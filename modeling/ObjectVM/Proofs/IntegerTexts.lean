import ObjectVM.Proofs.EvaluationStack
import ObjectVM.Proofs.IntegerArithmetic

/-!
# Integers as texts

An integer is written with a sign, if it needs one, and digits; it is read again whatever white
space stands around it. No integer of any kind is too great to be read as one, so what is read is
never a double, and the way through a text changes nothing.

* `Text.trim_padded`: white space around a text that has none is all that is taken off.
* `Decimal.readInt_signedDigits`: what was written is read.
* `Value.readNumber_padded`: so is what was written, with white space around it.
* `integers_as_texts`: a conversion to text and back, and the two instructions in a row.
-/
namespace ObjectVM

namespace Text

/-- A text of white space only. -/
def Blank (s : String) : Prop := ∀ c ∈ s.toList, isBlank c = true

instance (s : String) : Decidable (Blank s) := decidable_of_iff _ List.all_eq_true

/-- Characters of which none is white space. -/
def Solid (cs : List Char) : Prop := ∀ c ∈ cs, isBlank c = false

variable {cs : List Char}

theorem Solid.reverse (solid : Solid cs) : Solid cs.reverse :=
  fun c mem => solid c (List.mem_reverse.mp mem)

/-- Trimming at the start stops at the first character that is not white space. -/
theorem trimStart_padded {before : List Char} (blank : ∀ c ∈ before, isBlank c = true)
    (solid : Solid cs) (some : cs ≠ []) (more : List Char) :
    trimStart (before ++ (cs ++ more)) = cs ++ more := by
  unfold trimStart
  rw [List.dropWhile_append_of_pos blank]
  cases cs with
  | nil => exact absurd rfl some
  | cons c cs =>
    refine List.dropWhile_cons_of_neg ?_
    rw [solid c List.mem_cons_self]
    exact Bool.false_ne_true

theorem trim_padded {before after : String} (front : Blank before) (back : Blank after)
    (solid : Solid cs) (some : cs ≠ []) :
    trim (before ++ .ofList cs ++ after).toList = cs := by
  have reversed : (cs ++ after.toList).reverse = after.toList.reverse ++ (cs.reverse ++ []) := by
    rw [List.reverse_append, List.append_nil]
  rw [String.toList_append, String.toList_append, String.toList_ofList, List.append_assoc, trim,
    trimStart_padded front solid some]
  show (trimStart (cs ++ after.toList).reverse).reverse = cs
  rw [reversed, trimStart_padded (fun c mem => back c (List.mem_reverse.mp mem)) solid.reverse
    (mt List.reverse_eq_nil_iff.mp some), List.append_nil, List.reverse_reverse]

end Text

namespace Decimal

/-! ## Digits -/

/-- No digit is white space. -/
theorem isBlank_of_isDigit {c : Char} (digit : isDigit c = true) : Text.isBlank c = false := by
  unfold isDigit at digit
  rw [Bool.and_eq_true, decide_eq_true_iff, decide_eq_true_iff, Char.le_def, Char.le_def,
    UInt32.le_iff_toNat_le, UInt32.le_iff_toNat_le] at digit
  have low : 48 ≤ c.toNat := digit.1
  have high : c.toNat ≤ 57 := digit.2
  unfold Text.isBlank Text.memberOf Text.blankRanges
  simp only [List.any_cons, List.any_nil, Bool.or_eq_false_iff, Bool.and_eq_false_iff,
    decide_eq_false_iff_not, and_true]
  omega

theorem solid_signedDigits (n : Int) : Text.Solid (signedDigits n) := by
  cases n with
  | ofNat m => exact fun c mem => isBlank_of_isDigit (isDigit_of_mem_digits mem)
  | negSucc m =>
    intro c mem
    rcases List.mem_cons.mp mem with rfl | mem
    · decide
    · exact isBlank_of_isDigit (isDigit_of_mem_digits mem)

theorem signedDigits_ne_nil (n : Int) : signedDigits n ≠ [] := by
  cases n with
  | ofNat m => exact digits_ne_nil m
  | negSucc m => exact List.cons_ne_nil _ _

/-- Digits start with no sign. -/
theorem splitSign_digits (n : Nat) : splitSign (digits n) = (false, digits n) := by
  have all := fun c => isDigit_of_mem_digits (n := n) (c := c)
  generalize digits n = cs at all
  unfold splitSign
  split
  · exact absurd (all '-' List.mem_cons_self) (by decide)
  · exact absurd (all '+' List.mem_cons_self) (by decide)
  · rfl

/-- An integer within the bounds is read as it was written. -/
theorem readInt_signedDigits {low high n : Int} (bounds : low ≤ n ∧ n ≤ high) :
    readInt low high (signedDigits n) = some n := by
  unfold readInt
  cases n with
  | ofNat m =>
    rw [signedDigits, splitSign_digits]
    dsimp only
    rw [readDigits_digits]
    exact if_pos bounds
  | negSucc m =>
    rw [signedDigits, splitSign]
    dsimp only
    rw [readDigits_digits]
    exact if_pos bounds

end Decimal

/-! ## Conversions -/

namespace Value

variable {before after : String}

/-- A number of 64 bits is no more than an integer of 128 bits. -/
theorem readNumber_padded (front : Text.Blank before) (back : Text.Blank after) {n : Int}
    (low : -2 ^ 63 ≤ n) (high : n < 2 ^ 64) :
    readNumber (before ++ Decimal.intText n ++ after) = some (.int n) := by
  have limit : (wholeLimit : Int) = 2 ^ 127 := rfl
  have bounds : -(wholeLimit : Int) ≤ n ∧ n ≤ wholeLimit - 1 := by omega
  unfold readNumber Decimal.intText
  rw [Text.trim_padded front back (Decimal.solid_signedDigits n) (Decimal.signedDigits_ne_nil n)]
  dsimp only
  rw [Decimal.readInt_signedDigits bounds]

theorem convert_of_read {s : String} {n : Int} (read : readNumber s = some (.int n))
    (k : IntKind) : convert (.numeric (.int k)) (.text s) = .ok (ofInt k n) := by
  unfold convert
  dsimp only
  rw [read]
  rfl

/-- The text of an integer is converted as the integer itself. -/
theorem convert_padded (front : Text.Blank before) (back : Text.Blank after) (i : FixedInt)
    (k : IntKind) : convert (.numeric (.int k)) (.text (before ++ Decimal.intText i.val ++ after)) =
      convert (.numeric (.int k)) (.int i) := by
  obtain ⟨low, high⟩ := integer?_range (v := .int i) rfl
  exact convert_of_read (readNumber_padded front back low high) k

/-- An integer is not changed by a conversion to its own kind. -/
theorem convert_own (i : FixedInt) : convert (.numeric (.int i.kind)) (.int i) = .ok (.int i) := by
  obtain ⟨kind, val, inRange⟩ := i
  show Except.ok (Value.int ⟨kind, kind.wrap val, _⟩) = _
  congr
  exact kind.wrap_eq_self inRange

/-- With no white space around it, too. -/
theorem convert_intText (i : FixedInt) (k : IntKind) :
    convert (.numeric (.int k)) (.text (Decimal.intText i.val)) =
      convert (.numeric (.int k)) (.int i) := by
  have none : Text.Blank "" := nofun
  have plain := convert_padded none none i k
  rw [String.empty_append, String.append_empty] at plain
  exact plain

end Value

theorem Exec.execute_convert {p : Process} {f : Frame} {v w : Value} {below : List Value}
    {i : Instruction} {target : Kind} (instructed : i.op = .value (.convert target))
    (top : p.calls.top? = some f) (there : f.values = v :: below)
    (converts : v.convert target = .ok w) :
    execute i p = .ok () (p.withStacks f (w :: below) p.objects) := by
  have computes : (ValueOp.convert target).Computes v [] (.ok w) :=
    ⟨0, _, #v[], rfl, rfl, converts⟩
  exact execute_computes instructed computes top there

/-- An integer of any kind is written as a text that, with white space around it or without, is
converted to its own kind as the integer it was, and to any other kind as the integer itself is. So
an instruction that makes a text of it may come before one that makes an integer. -/
theorem integers_as_texts :
    (∀ i : FixedInt, Value.convert .text (.int i) = .ok (.text (Decimal.intText i.val)) ∧
      ∀ before after, Text.Blank before → Text.Blank after →
        Value.convert (.numeric (.int i.kind))
          (.text (before ++ Decimal.intText i.val ++ after)) = .ok (.int i) ∧
        ∀ k : IntKind, Value.convert (.numeric (.int k))
            (.text (before ++ Decimal.intText i.val ++ after)) =
          Value.convert (.numeric (.int k)) (.int i)) ∧
    ∀ (p : Process) (f : Frame) (i : FixedInt) (below : List Value) (k : IntKind)
      (first second : Instruction), p.calls.top? = some f → f.values = .int i :: below →
      first.op = .value (.convert .text) → second.op = .value (.convert (.numeric (.int k))) →
      ∃ q r, Exec.execute first p = .ok () q ∧ Exec.execute second q = .ok () r ∧
        Exec.execute second p = .ok () r := by
  refine ⟨fun i => ⟨rfl, fun _ _ front back => ⟨?_, Value.convert_padded front back i⟩⟩, ?_⟩
  · exact (Value.convert_padded front back i i.kind).trans (Value.convert_own i)
  · intro p f i below k first second top there writes reads
    have written := Exec.execute_convert writes top there (w := .text (Decimal.intText i.val)) rfl
    have direct := Exec.execute_convert reads top there (w := .ofInt k i.val) rfl
    have top' := Process.top?_withStacks top (.text (Decimal.intText i.val) :: below) p.objects
    have again := Exec.execute_convert reads top' rfl (Value.convert_intText i k)
    rw [Process.withStacks_withStacks] at again
    exact ⟨_, _, written, again, direct⟩

/-- The least number of 64 bits with other white space than blanks around it, and the greatest one
without a sign, which is no number of 64 bits with one; in eight bits it is -1. -/
theorem integers_as_texts_extreme :
    Value.convert (.numeric (.int .int64)) (.text "\u3000-9223372036854775808\t\n") =
      .ok (.ofInt .int64 (-2 ^ 63)) ∧
    Value.convert (.numeric (.int .int8)) (.text "18446744073709551615") =
      .ok (.ofInt .int8 (-1)) ∧
    ∃ f q r, (Process.ranFor pushing 2).calls.top? = some f ∧
      Exec.execute (.ofOp (.value (.convert .text))) ((Process.ranFor pushing 2).withStacks f
        [.ofInt .uint64 (2 ^ 64 - 1)] []) = .ok () q ∧
      Exec.execute (.ofOp (.value (.convert (.numeric (.int .int8))))) q = .ok () r ∧
      Exec.execute (.ofOp (.value (.convert (.numeric (.int .int8)))))
        ((Process.ranFor pushing 2).withStacks f [.ofInt .uint64 (2 ^ 64 - 1)] []) = .ok () r := by
  obtain ⟨values, instructions⟩ := integers_as_texts
  have none : Text.Blank "" := nofun
  have running : ((Process.ranFor pushing 2).calls.top?).isSome := by decide +kernel
  obtain ⟨f, top⟩ := Option.isSome_iff_exists.mp running
  refine ⟨?_, ?_, ?_⟩
  · have own := ((values (.ofInt .int64 (-2 ^ 63))).2 "\u3000" "\t\n" (by decide +kernel)
      (by decide +kernel)).1
    have text : "\u3000" ++ Decimal.intText (FixedInt.ofInt .int64 (-2 ^ 63)).val ++ "\t\n" =
        "\u3000-9223372036854775808\t\n" := by decide +kernel
    rw [text] at own
    exact own
  · have other := ((values (.ofInt .uint64 (2 ^ 64 - 1))).2 "" "" none none).2 .int8
    have text : "" ++ Decimal.intText (FixedInt.ofInt .uint64 (2 ^ 64 - 1)).val ++ "" =
        "18446744073709551615" := by decide +kernel
    rw [text] at other
    exact other.trans (by decide +kernel)
  · obtain ⟨q, r, both⟩ := instructions _ _ (.ofInt .uint64 (2 ^ 64 - 1)) [] .int8
      (.ofOp (.value (.convert .text))) (.ofOp (.value (.convert (.numeric (.int .int8)))))
      (Process.top?_withStacks top _ []) rfl rfl rfl
    exact ⟨f, q, r, top, both⟩

end ObjectVM
