import Mathlib.Data.List.Basic
import ObjectVM.Json.Printer

/-!
# Written numerals

A numeral that is well-formed is taken back from its text, whatever comes behind it that does not
go on with a numeral. The numerals that are written are well-formed: those of natural numbers, and
those of finite doubles, whose shortest decimals start with a digit other than zero.

* `Numeral.take_text`: a well-formed numeral is taken from its text and nothing more is.
* `Numeral.wellFormed_ofNat`, `Numeral.wellFormed_ofParts`: written numerals are well-formed.
* `Numeral.toNat?_ofNat`: a natural number is read as itself.
-/
namespace ObjectVM

namespace Decimal

/-! ## Shortest decimals are positive -/

theorem digits_head {n : Nat} (pos : 0 < n) : (digits n).head? ≠ some '0' := by
  induction n using Nat.strongRecOn with
  | ind n ih =>
    rw [digits]
    split
    · have one : ∀ d < 10, 0 < d → digitChar d ≠ '0' := by decide
      simpa using one n ‹_› pos
    · have := ih (n / 10) (by omega) (by omega)
      rw [List.head?_append_of_ne_nil _ (digits_ne_nil _)]
      exact this

theorem tenths_pos (n : Nat) (e : Int) : 0 < (tenths n e).2 := by
  simp only [tenths]
  split
  · exact Nat.one_pos
  · exact Nat.pow_pos (by omega)

theorem tenths_zero (e : Int) : (tenths 0 e).1 = 0 := by
  simp only [tenths]
  split <;> simp

/-- Zero lies below the interval, if that is above zero. -/
theorem Around.not_holds_zero {a : Around} (pos : 0 < a.low) (k : Int) : a.holds 0 k = false := by
  have below := Nat.mul_pos pos (tenths_pos 0 k)
  simp only [Around.holds, tenths_zero, Nat.zero_mul]
  split
  · rw [decide_eq_false (Nat.not_le.mpr below), Bool.false_and]
  · rw [decide_eq_false (Nat.not_lt_zero _), Bool.false_and]

theorem Around.nearer_le (a : Around) (tie : Tie) (c : Nat) (k : Int) : c ≤ a.nearer tie c k := by
  simp only [Around.nearer]
  split
  · exact Nat.le_refl c
  · omega
  · cases tie <;> simp
    split <;> omega

theorem Around.neighbour?_pos {a : Around} {tie : Tie} {k : Int} {c : Nat} (pos : 0 < a.low)
    (h : a.neighbour? tie k = some c) : 0 < c := by
  simp only [Around.neighbour?] at h
  generalize a.value * _ / _ = below at h
  have zero : a.holds below k = true → 0 < below := by
    intro holds
    refine Nat.pos_of_ne_zero fun none => ?_
    rw [none, a.not_holds_zero pos] at holds
    cases holds
  split at h
  · have := a.nearer_le tie below k
    have := zero ‹_›
    split at h <;> cases h <;> omega
  · cases h
    exact zero ‹_›
  · cases h
    omega
  · cases h

theorem Scaled.strip_pos {s : Scaled} (pos : 0 < s.coefficient) (steps : Nat) :
    0 < (s.strip steps).coefficient := by
  induction steps generalizing s with
  | zero => exact pos
  | succ steps ih =>
    rw [Scaled.strip]
    split
    · exact ih (by dsimp only; omega)
    · exact pos

theorem Around.shortest_pos {a : Around} (tie : Tie) (lead : Int) (low : 0 < a.low)
    (value : 0 < a.value) (length steps : Nat) :
    0 < (a.shortest tie lead length steps).coefficient := by
  induction steps generalizing length with
  | zero => exact value
  | succ steps ih =>
    simp only [Around.shortest]
    split
    · exact Scaled.strip_pos (a.neighbour?_pos low ‹_›) 20
    · exact ih _

/-- The shortest decimal of a positive float is positive. -/
theorem Layout.shortest_pos (l : Layout) (tie : Tie) {m : Nat} (pos : 0 < m) (e : Int) :
    0 < (l.shortest tie m e).coefficient := by
  have scale : 0 <
      (if 2 ≤ e then (Nat.pow 2 (e - 2).toNat, 1) else (1, Nat.pow 2 (2 - e).toNat)).1 := by
    split
    · exact Nat.pow_pos (by omega)
    · exact Nat.one_pos
  refine Around.shortest_pos tie _ ?_ ?_ 0 17
  · simp only [Layout.around]
    refine Nat.mul_pos ?_ scale
    split <;> omega
  · exact Nat.mul_pos (by omega) scale

end Decimal

namespace Json.Numeral

open Decimal

/-! ## Taking numerals from their texts -/

/-- At least one character, and all of them digits. -/
structure Digits (ds : List Char) : Prop where
  nonempty : ds ≠ []
  all : ∀ c ∈ ds, isDigit c = true

/-- The parts of a numeral are digits, and it starts with a zero only if that stands alone before
the point. -/
structure WellFormed (n : Numeral) : Prop where
  whole : Digits n.whole
  lead : n.whole.head? = some '0' → n.whole.length = 1
  fraction : ∀ ds ∈ n.fraction, Digits ds
  exponent : ∀ e ∈ n.exponent, Digits e.digits

/-- A text that does not go on with a numeral. -/
def Ends (rest : List Char) : Prop :=
  ∀ c ∈ rest.head?, isDigit c = false ∧ c ≠ '.' ∧ c ≠ 'e' ∧ c ≠ 'E'

theorem ends_nil : Ends [] := by
  intro c hc
  cases hc

theorem ends_cons {c : Char} {rest : List Char}
    (h : isDigit c = false ∧ c ≠ '.' ∧ c ≠ 'e' ∧ c ≠ 'E') : Ends (c :: rest) := by
  intro d hd
  cases hd
  exact h

theorem takeDigits_append {ds rest : List Char} (digits : Digits ds)
    (stop : ∀ c ∈ rest.head?, isDigit c = false) : takeDigits (ds ++ rest) = some (ds, rest) := by
  have taken : (ds ++ rest).takeWhile isDigit = ds := by
    rw [List.takeWhile_append_of_pos digits.all]
    cases rest with
    | nil => simp
    | cons c rest => simp [stop c rfl]
  have left : (ds ++ rest).dropWhile isDigit = rest := by
    rw [List.dropWhile_append_of_pos digits.all]
    cases rest with
    | nil => simp
    | cons c rest => simp [stop c rfl]
  simp only [takeDigits, taken, left]
  split
  · exact absurd rfl digits.nonempty
  · rfl

theorem takeWhole_append {ds rest : List Char} (digits : Digits ds)
    (lead : ds.head? = some '0' → ds.length = 1) (stop : ∀ c ∈ rest.head?, isDigit c = false) :
    takeWhole (ds ++ rest) = some (ds, rest) := by
  rw [takeWhole, takeDigits_append digits stop]
  split
  · rename_i same
    cases same
    simp at lead
  · rfl

/-- The text of a fraction. -/
def fractionText (fraction : Option (List Char)) : List Char :=
  match fraction with
  | some ds => '.' :: ds
  | none => []

/-- The text of an exponent. -/
def exponentText (exponent : Option Exponent) : List Char :=
  match exponent with
  | some e => 'e' :: (if e.negative then '-' else '+') :: e.digits
  | none => []

theorem text_eq (n : Numeral) : n.text = (if n.negative then ['-'] else []) ++
    (n.whole ++ (fractionText n.fraction ++ exponentText n.exponent)) := by
  simp only [text, List.append_assoc]
  rfl

theorem takeExponent_append {exponent : Option Exponent} {rest : List Char}
    (digits : ∀ e ∈ exponent, Digits e.digits) (stop : Ends rest) :
    takeExponent (exponentText exponent ++ rest) = some (exponent, rest) := by
  cases exponent with
  | none =>
    cases rest with
    | nil => rfl
    | cons c rest =>
      obtain ⟨-, -, e, E⟩ := stop c rfl
      simp only [exponentText, List.nil_append]
      unfold takeExponent
      split <;> simp_all
  | some e =>
    have taken := takeDigits_append (digits e rfl) fun c hc => (stop c hc).1
    obtain ⟨negative, ds⟩ := e
    cases negative <;> simp [exponentText, takeExponent, takePower, taken]

theorem takeFraction_append {fraction : Option (List Char)} {rest : List Char}
    (digits : ∀ ds ∈ fraction, Digits ds)
    (stop : ∀ c ∈ rest.head?, isDigit c = false ∧ c ≠ '.') :
    takeFraction (fractionText fraction ++ rest) = some (fraction, rest) := by
  cases fraction with
  | none =>
    cases rest with
    | nil => rfl
    | cons c rest =>
      have := (stop c rfl).2
      simp only [fractionText, List.nil_append]
      unfold takeFraction
      split <;> simp_all
  | some ds =>
    have taken := takeDigits_append (digits ds rfl) fun c hc => (stop c hc).1
    simp [fractionText, takeFraction, taken]

theorem exponentText_stops {exponent : Option Exponent} {rest : List Char} (stop : Ends rest) :
    ∀ c ∈ (exponentText exponent ++ rest).head?, isDigit c = false ∧ c ≠ '.' := by
  intro c hc
  cases exponent with
  | none => exact ⟨(stop c hc).1, (stop c hc).2.1⟩
  | some e =>
    cases hc
    decide

theorem fractionText_stops {fraction : Option (List Char)} {rest : List Char}
    (stop : ∀ c ∈ rest.head?, isDigit c = false ∧ c ≠ '.') :
    ∀ c ∈ (fractionText fraction ++ rest).head?, isDigit c = false := by
  intro c hc
  cases fraction with
  | none => exact (stop c hc).1
  | some ds =>
    cases hc
    decide

theorem takeMagnitude_append {n : Numeral} (h : n.WellFormed) {rest : List Char}
    (stop : Ends rest) :
    takeMagnitude n.negative
      (n.whole ++ (fractionText n.fraction ++ (exponentText n.exponent ++ rest))) =
        some (n, rest) := by
  have power := takeExponent_append h.exponent stop
  have point := @exponentText_stops n.exponent _ stop
  have fraction := takeFraction_append h.fraction point
  have whole := takeWhole_append h.whole h.lead (@fractionText_stops n.fraction _ point)
  simp only [takeMagnitude, whole, fraction, power, bind, Option.bind_some]

/-- A well-formed numeral is taken from its text, and nothing of what comes behind it. -/
theorem take_text {n : Numeral} (h : n.WellFormed) {rest : List Char} (stop : Ends rest) :
    take (n.text ++ rest) = some (n, rest) := by
  have taken := takeMagnitude_append h stop
  rw [text_eq]
  simp only [List.append_assoc]
  cases sign : n.negative with
  | true =>
    rw [sign] at taken
    exact taken
  | false =>
    rw [sign] at taken
    obtain ⟨c, cs, whole⟩ := List.exists_cons_of_ne_nil h.whole.nonempty
    have digit : isDigit c = true := h.whole.all c (by rw [whole]; exact List.mem_cons_self)
    rw [whole] at taken ⊢
    simp only [Bool.false_eq_true, if_false, List.nil_append, List.cons_append] at taken ⊢
    unfold take
    split
    · rename_i same
      cases same
      simp [isDigit] at digit
    · exact taken

/-- The text of a well-formed numeral starts with a digit or a minus sign. -/
theorem head_text {n : Numeral} (h : n.WellFormed) :
    ∃ c cs, n.text = c :: cs ∧ (isDigit c = true ∨ c = '-') := by
  obtain ⟨c, cs, whole⟩ := List.exists_cons_of_ne_nil h.whole.nonempty
  rw [text_eq, whole]
  cases n.negative with
  | true => exact ⟨'-', _, rfl, .inr rfl⟩
  | false => exact ⟨c, _, rfl, .inl (h.whole.all c (by rw [whole]; exact List.mem_cons_self))⟩

/-! ## Numerals that are written -/

theorem digits_digits (n : Nat) : Digits (digits n) :=
  ⟨digits_ne_nil n, fun _ => isDigit_of_mem_digits⟩

theorem digits_zeros (n : Nat) {c : Char} (h : c ∈ List.replicate n '0') : isDigit c = true := by
  rw [List.eq_of_mem_replicate h]
  decide

theorem digits_zero : Digits ['0'] :=
  ⟨List.cons_ne_nil _ _, fun c hc => by rw [List.mem_singleton.mp hc]; rfl⟩

theorem Digits.append {ds : List Char} (h : Digits ds) {more : List Char}
    (all : ∀ c ∈ more, isDigit c = true) : Digits (ds ++ more) := by
  refine ⟨by simp [h.nonempty], fun c hc => ?_⟩
  rcases List.mem_append.mp hc with hc | hc
  · exact h.all c hc
  · exact all c hc

theorem Digits.take {ds : List Char} (h : Digits ds) (n : Nat) : Digits (ds.take (n + 1)) := by
  refine ⟨by simp [h.nonempty], fun c hc => h.all c (List.mem_of_mem_take hc)⟩

theorem Digits.drop {ds : List Char} (h : Digits ds) {n : Nat} (more : n < ds.length) :
    Digits (ds.drop n) := by
  refine ⟨fun none => ?_, fun c hc => h.all c (List.mem_of_mem_drop hc)⟩
  have := List.drop_eq_nil_iff.mp none
  omega

theorem wellFormed_ofNat (n : Nat) : (ofNat n).WellFormed := by
  refine ⟨digits_digits n, fun lead => ?_, nofun, nofun⟩
  cases n with
  | zero => simp [ofNat, digits]
  | succ n => exact absurd lead (digits_head (by omega))

theorem wellFormed_ofScaled (negative : Bool) {s : Scaled} (pos : 0 < s.coefficient) :
    (ofScaled negative s).WellFormed := by
  have ds := digits_digits s.coefficient
  have first := digits_head pos
  simp only [ofScaled]
  generalize lead : s.lead = at_
  simp only [Scaled.lead] at lead
  -- the ways of writing: whole, with a point inside, with zeros behind the point, with an exponent
  split
  · split
    · refine ⟨ds.append fun c => digits_zeros _, fun h => ?_, ?_, nofun⟩
      · rw [List.head?_append_of_ne_nil _ ds.nonempty] at h
        exact absurd h first
      · rintro _ ⟨⟩
        exact digits_zero
    · split
      · refine ⟨ds.take _, fun h => ?_, ?_, nofun⟩
        · rw [List.head?_take, if_neg (by omega)] at h
          exact absurd h first
        · rintro _ ⟨⟩
          exact ds.drop (by omega)
      · refine ⟨digits_zero, fun _ => rfl, ?_, nofun⟩
        rintro _ ⟨⟩
        refine ⟨by simp [ds.nonempty], fun c hc => ?_⟩
        rcases List.mem_append.mp hc with hc | hc
        · exact digits_zeros _ hc
        · exact ds.all c hc
  · refine ⟨ds.take 0, fun h => ?_, ?_, ?_⟩
    · rw [List.head?_take, if_neg (by omega)] at h
      exact absurd h first
    · intro fraction hf
      split at hf
      · cases hf
      · cases hf
        refine ds.drop ?_
        have := List.length_pos_iff.mpr ds.nonempty
        omega
    · rintro _ ⟨⟩
      exact digits_digits _

theorem wellFormed_ofParts {parts : Parts} {n : Numeral} (h : ofParts? parts = some n) :
    n.WellFormed := by
  cases parts with
  | nan => cases h
  | infinite negative => cases h
  | finite negative m e =>
    simp only [ofParts?] at h
    split at h
    · cases h
      refine ⟨digits_zero, fun _ => rfl, ?_, nofun⟩
      rintro _ ⟨⟩
      exact digits_zero
    · cases h
      exact wellFormed_ofScaled negative (double.shortest_pos .even (by omega) e)

/-- A natural number below the limit is read as itself. -/
theorem toNat?_ofNat {n limit : Nat} (small : n < limit) : (ofNat n).toNat? limit = some n := by
  simp [toNat?, ofNat, readDigits_digits, Option.filter, small]

end Json.Numeral

end ObjectVM
