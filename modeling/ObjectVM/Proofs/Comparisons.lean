import ObjectVM.Proofs.IntegerArithmetic
import ObjectVM.Proofs.TextOrder
import ObjectVM.Value.Texts

/-!
# Comparisons

The seven comparisons tell of two values how they are ordered (`Value.Tells`): integers and truth
values of any kinds by their numbers, texts by their characters. They all go by one order, whichever
way they reach it, so one of them is known from the others (`Value.Agree`), and the order is total
and transitive across kinds.

* `Value.tells_integers`, `Value.tells_texts`: what is compared by size, and what character by
  character.
* `Value.refused`: no other values but decimals are ordered, and equality is that of the content.
* `comparisons_agree`: all of it together.
-/
namespace ObjectVM

/-- The comparison is made, and what it asks is true. -/
def BinaryOp.Holds (op : BinaryOp) (l r : Value) : Prop := Value.binary op l r = .ok (.bool true)

/-- The comparisons that fail where there is no order. -/
def BinaryOp.ordering : List BinaryOp := [.gt, .lt, .gte, .lte, .cmp]

/-- The comparisons that go on from one pair to the next. -/
def BinaryOp.chaining : List BinaryOp := [.gt, .lt, .gte, .lte, .eq]

namespace Value

/-- The comparisons tell of `l` and `r` how `a` and `b` are ordered. -/
structure Tells {α : Type} [LinearOrder α] (l r : Value) (a b : α) : Prop where
  lt : binary .lt l r = .ok (.bool (a < b))
  gt : binary .gt l r = .ok (.bool (b < a))
  lte : binary .lte l r = .ok (.bool (a ≤ b))
  gte : binary .gte l r = .ok (.bool (b ≤ a))
  eq : binary .eq l r = .ok (.bool (a = b))
  neq : binary .neq l r = .ok (.bool (a ≠ b))
  cmp : binary .cmp l r =
    .ok (.ofInt .int32 (if a < b then -1 else if a = b then 0 else 1))

/-- Values that are in one order: integers and truth values, and texts. -/
inductive Comparable : Value → Value → Prop where
  | integers {l r : Value} {m n : Int} (hl : l.integer? = some m) (hr : r.integer? = some n) :
    Comparable l r
  | texts (s t : String) : Comparable (.text s) (.text t)

/-- Just one of three comparisons holds, and the others follow from them. -/
structure Agree (l r : Value) : Prop where
  one : (BinaryOp.lt.Holds l r ∧ ¬ BinaryOp.eq.Holds l r ∧ ¬ BinaryOp.gt.Holds l r ∧
      binary .cmp l r = .ok (.ofInt .int32 (-1))) ∨
    (¬ BinaryOp.lt.Holds l r ∧ BinaryOp.eq.Holds l r ∧ ¬ BinaryOp.gt.Holds l r ∧
      binary .cmp l r = .ok (.ofInt .int32 0)) ∨
    (¬ BinaryOp.lt.Holds l r ∧ ¬ BinaryOp.eq.Holds l r ∧ BinaryOp.gt.Holds l r ∧
      binary .cmp l r = .ok (.ofInt .int32 1))
  gte : BinaryOp.gte.Holds l r ↔ BinaryOp.gt.Holds l r ∨ BinaryOp.eq.Holds l r
  lte : BinaryOp.lte.Holds l r ↔ BinaryOp.lt.Holds l r ∨ BinaryOp.eq.Holds l r
  neq : BinaryOp.neq.Holds l r ↔ ¬ BinaryOp.eq.Holds l r
  turned : ∃ i : Int, binary .cmp l r = .ok (.ofInt .int32 i) ∧
    binary .cmp r l = .ok (.ofInt .int32 (-i))
  total : BinaryOp.lte.Holds l r ∨ BinaryOp.lte.Holds r l

/-- The values are not both numbers and not both texts. -/
def Disparate (l r : Value) : Prop :=
  ¬ (l.kind.isNumeric ∧ r.kind.isNumeric) ∧ ¬ (l.kind = .text ∧ r.kind = .text)

/-- The values have no order, but they are equal if they have the same kind and content. -/
structure Unordered (l r : Value) : Prop where
  fails : ∀ op ∈ BinaryOp.ordering, binary op l r = .error (.operands op.name l.kind r.kind)
  eq : binary .eq l r = .ok (.bool (l = r))
  neq : binary .neq l r = .ok (.bool (l ≠ r))
  kinds : l.kind ≠ r.kind → binary .eq l r = .ok (.bool false)

variable {l r : Value} {m n : Int} {o : Ordering}

/-! ## One order -/

/-- Where values are ordered and equality goes by the order, all comparisons do. -/
theorem tells_of_order {α : Type} [LinearOrder α] {a b : α}
    (ordered : ∀ op, order op l r = .ok (some o)) (equality : equals l r = decide (o = .eq))
    (compares : o.Compares a b) : Tells l r a b := by
  have tests : ∀ op test (p : Prop) [Decidable p], (test o = true ↔ p) →
      Value.ordered op test l r = .ok (.bool p) := by
    intro op test p _ same
    have result : test o = decide p := Bool.eq_iff_iff.mpr (same.trans decide_eq_true_iff.symm)
    unfold Value.ordered
    rw [ordered, ← result]
    rfl
  have equal : equals l r = decide (a = b) := by
    rw [equality, decide_eq_decide]
    exact compares.eq_eq
  constructor
  case lt => exact tests .lt _ _ (Ordering.isLT_iff_eq_lt.trans compares.eq_lt)
  case gt => exact tests .gt _ _ (Ordering.isGT_iff_eq_gt.trans compares.eq_gt)
  case lte => exact tests .lte _ _ (Ordering.isLE_iff_ne_gt.trans compares.ne_gt)
  case gte => exact tests .gte _ _ (Ordering.isGE_iff_ne_lt.trans compares.ne_lt)
  case eq =>
    show Except.ok (Value.bool (equals l r)) = _
    rw [equal]
  case neq =>
    show Except.ok (Value.bool !equals l r) = _
    rw [equal, decide_not]
  case cmp =>
    have made : binary .cmp l r = .ok (ofOrdering o) := by
      show threeWay l r = _
      unfold threeWay
      rw [ordered]
      rfl
    rw [made]
    cases o with
    | lt =>
      rw [if_pos (compares.eq_lt.mp rfl)]
      rfl
    | eq =>
      rw [if_neg (mt compares.eq_lt.mpr nofun), if_pos (compares.eq_eq.mp rfl)]
      rfl
    | gt =>
      rw [if_neg (mt compares.eq_lt.mpr nofun), if_neg (mt compares.eq_eq.mpr nofun)]
      rfl

/-- Integers of any kinds are compared by size. -/
theorem tells_integers (hl : l.integer? = some m) (hr : r.integer? = some n) : Tells l r m n := by
  obtain ⟨i, -, whole, number⟩ := number?_of_integer? hl
  obtain ⟨j, -, whole', number'⟩ := number?_of_integer? hr
  obtain ⟨k, -, promoted⟩ := exists_meet_promote whole whole'
  have ordered : ∀ op, order op l r = .ok (some (compare m n)) := by
    intro op
    unfold order
    split
    · cases hl
    · rw [number, number']
      dsimp only
      rw [promoted]
      rfl
  refine tells_of_order ordered ?_ (compare_iff m n |>.mp rfl)
  unfold equals
  rw [number, number', ordered]
  cases compare m n <;> rfl

/-- Texts are compared character by character. -/
theorem tells_texts (s t : String) : Tells (.text s) (.text t) s.toList t.toList := by
  refine tells_of_order (fun _ => rfl) ?_ (Text.order_compares s t)
  show decide (Value.text s = .text t) = _
  rw [decide_eq_decide, (Text.order_compares s t).eq_eq, String.toList_inj, Value.text.injEq]

theorem compare_eq_cmp (s t : String) :
    Texts.compare (.text s) (.text t) = binary .cmp (.text s) (.text t) := rfl

/-! ## What follows -/

theorem holds_iff {op : BinaryOp} {p : Prop} [Decidable p] (h : binary op l r = .ok (.bool p)) :
    op.Holds l r ↔ p := by
  unfold BinaryOp.Holds
  rw [h]
  simp

section

variable {α : Type} [LinearOrder α] {a b : α}

theorem Tells.agree (tells : Tells l r a b) (back : Tells r l b a) : Agree l r := by
  have lt := holds_iff tells.lt
  have gt := holds_iff tells.gt
  have eq := holds_iff tells.eq
  have cmp := tells.cmp
  constructor
  case one =>
    rw [lt, gt, eq]
    rcases lt_trichotomy a b with h | h | h
    · exact .inl ⟨h, h.ne, h.not_gt, by rw [cmp, if_pos h]⟩
    · exact .inr (.inl ⟨h.not_lt, h, h.not_gt, by rw [cmp, if_neg h.not_lt, if_pos h]⟩)
    · exact .inr (.inr ⟨h.not_gt, h.ne', h, by rw [cmp, if_neg h.not_gt, if_neg h.ne']⟩)
  case gte => rw [holds_iff tells.gte, gt, eq, le_iff_lt_or_eq, eq_comm]
  case lte => rw [holds_iff tells.lte, lt, eq, le_iff_lt_or_eq]
  case neq => rw [holds_iff tells.neq, eq]
  case turned =>
    refine ⟨_, cmp, back.cmp.trans ?_⟩
    rcases lt_trichotomy a b with h | h | h
    · rw [if_pos h, if_neg h.not_gt, if_neg h.ne']
      rfl
    · rw [if_neg h.not_lt, if_pos h, if_neg h.not_gt, if_pos h.symm]
      rfl
    · rw [if_pos h, if_neg h.not_gt, if_neg h.ne']
  case total =>
    rw [holds_iff tells.lte, holds_iff back.lte]
    exact le_total a b

end

theorem Comparable.agree (comparable : Comparable l r) : Agree l r := by
  cases comparable with
  | integers hl hr => exact (tells_integers hl hr).agree (tells_integers hr hl)
  | texts s t => exact (tells_texts s t).agree (tells_texts t s)

/-- Three values of which each two are in one order are so together. -/
theorem Comparable.exists_tells {a b c : Value} (left : Comparable a b) (right : Comparable b c) :
    ∃ (α : Type) (_ : LinearOrder α) (x y z : α),
      Tells a b x y ∧ Tells b c y z ∧ Tells a c x z := by
  cases left with
  | integers ha hb =>
    cases right with
    | integers hb' hc =>
      obtain rfl := Option.some.inj (hb.symm.trans hb')
      exact ⟨Int, inferInstance, _, _, _, tells_integers ha hb, tells_integers hb hc,
        tells_integers ha hc⟩
    | texts => cases hb
  | texts s t =>
    cases right with
    | integers ht => cases ht
    | texts t u =>
      exact ⟨List Char, inferInstance, _, _, _, tells_texts s t, tells_texts t u, tells_texts s u⟩

theorem Comparable.trans {a b c : Value} {op : BinaryOp} (chains : op ∈ BinaryOp.chaining)
    (left : Comparable a b) (right : Comparable b c) (hab : op.Holds a b) (hbc : op.Holds b c) :
    op.Holds a c := by
  obtain ⟨α, _, x, y, z, first, second, whole⟩ := left.exists_tells right
  unfold BinaryOp.chaining at chains
  simp only [List.mem_cons, List.not_mem_nil, or_false] at chains
  rcases chains with rfl | rfl | rfl | rfl | rfl
  · rw [holds_iff first.gt] at hab
    rw [holds_iff second.gt] at hbc
    exact (holds_iff whole.gt).mpr (hbc.trans hab)
  · rw [holds_iff first.lt] at hab
    rw [holds_iff second.lt] at hbc
    exact (holds_iff whole.lt).mpr (hab.trans hbc)
  · rw [holds_iff first.gte] at hab
    rw [holds_iff second.gte] at hbc
    exact (holds_iff whole.gte).mpr (hbc.trans hab)
  · rw [holds_iff first.lte] at hab
    rw [holds_iff second.lte] at hbc
    exact (holds_iff whole.lte).mpr (hab.trans hbc)
  · rw [holds_iff first.eq] at hab
    rw [holds_iff second.eq] at hbc
    exact (holds_iff whole.eq).mpr (hab.trans hbc)

/-! ## No order -/

theorem isNumeric_of_number? {x : NumericKind × Number} (some : l.number? = some x) :
    l.kind.isNumeric := by
  cases l with
  | bool | int | dec1 | dec2 => rfl
  | text | array | map => cases some

theorem refused_order (disparate : Disparate l r) (op : BinaryOp) :
    order op l r = .error (.operands op.name l.kind r.kind) := by
  unfold order
  split
  · exact absurd ⟨rfl, rfl⟩ disparate.2
  · split
    · rename_i hl hr
      exact absurd ⟨isNumeric_of_number? hl, isNumeric_of_number? hr⟩ disparate.1
    · rfl

theorem equals_of_disparate (disparate : Disparate l r) : equals l r = decide (l = r) := by
  unfold equals
  split
  · rename_i hl hr
    exact absurd ⟨isNumeric_of_number? hl, isNumeric_of_number? hr⟩ disparate.1
  · rfl

theorem Disparate.unordered (disparate : Disparate l r) : Unordered l r := by
  have eq : binary .eq l r = .ok (.bool (l = r)) :=
    congrArg (fun b => Except.ok (Value.bool b)) (equals_of_disparate disparate)
  constructor
  case fails =>
    intro op mem
    have refused := refused_order disparate op
    unfold BinaryOp.ordering at mem
    simp only [List.mem_cons, List.not_mem_nil, or_false] at mem
    rcases mem with rfl | rfl | rfl | rfl | rfl
    case inr.inr.inr.inr =>
      show threeWay l r = _
      unfold threeWay
      rw [refused]
      rfl
    all_goals
      show (order _ l r).map _ = _
      rw [refused]
      rfl
  case eq => exact eq
  case neq =>
    show Except.ok (Value.bool !equals l r) = _
    rw [equals_of_disparate disparate, decide_not]
  case kinds =>
    intro differ
    rw [eq, decide_eq_false (mt (congrArg kind) differ)]

end Value

/-- The comparisons are those of one order. Integers and truth values are compared by the numbers
they stand for, whatever their kinds, and texts by the code points of their characters; so just one
of less, equal and greater holds, the others follow from that, and what holds in a row holds from
end to end. Other values than numbers, and a text and something else, are not ordered; they are
equal if they are the same. -/
theorem comparisons_agree :
    (∀ (l r : Value) (m n : Int), l.integer? = some m → r.integer? = some n → l.Tells r m n) ∧
    (∀ s t : String, Value.Tells (.text s) (.text t) s.toList t.toList ∧
      Texts.compare (.text s) (.text t) = Value.binary .cmp (.text s) (.text t)) ∧
    (∀ l r, Value.Comparable l r → Value.Agree l r) ∧
    (∀ a b c, Value.Comparable a b → Value.Comparable b c →
      ∀ op ∈ BinaryOp.chaining, op.Holds a b → op.Holds b c → op.Holds a c) ∧
    ∀ l r, Value.Disparate l r → Value.Unordered l r :=
  ⟨fun _ _ _ _ hl hr => Value.tells_integers hl hr,
    fun s t => ⟨Value.tells_texts s t, Value.compare_eq_cmp s t⟩,
    fun _ _ comparable => comparable.agree,
    fun _ _ _ left right _ chains => Value.Comparable.trans chains left right,
    fun _ _ disparate => disparate.unordered⟩

/-- The greatest number without a sign is not less than -1, though both have the same bits; a
character that takes four bytes comes after one that takes three; and an array is no text. -/
theorem comparisons_agree_extreme :
    Value.binary .cmp (.ofInt .int64 (-1)) (.ofInt .uint64 (2 ^ 64 - 1)) =
      .ok (.ofInt .int32 (-1)) ∧
    Value.binary .gt (.text "😀") (.text "日") = .ok (.bool true) ∧
    Value.Agree (.text "😀") (.text "日") ∧
    BinaryOp.lt.Holds (.bool false) (.ofInt .uint64 (2 ^ 64 - 1)) ∧
    Value.binary .lt (.array []) (.text "") = .error (.operands "lt" .array .text) ∧
    Value.binary .eq (.array []) (.text "") = .ok (.bool false) := by
  obtain ⟨integers, texts, agree, chain, apart⟩ := comparisons_agree
  have number : (Value.ofInt .int64 (-1)).integer? = some (-1) := by decide
  have greatest : (Value.ofInt .uint64 (2 ^ 64 - 1)).integer? = some (2 ^ 64 - 1) := by decide
  have one : (Value.bool true).integer? = some 1 := rfl
  have zero : (Value.bool false).integer? = some 0 := rfl
  have unordered := apart (.array []) (.text "") ⟨by decide, by decide⟩
  refine ⟨?_, ?_, agree _ _ (.texts _ _), ?_, unordered.fails .lt (by decide),
    unordered.kinds (by decide)⟩
  · rw [(integers _ _ _ _ number greatest).cmp]
    decide
  · rw [(texts "😀" "日").1.gt]
    decide +kernel
  · have first : BinaryOp.lt.Holds (.bool false) (.bool true) :=
      (integers _ _ _ _ zero one).lt
    have second : BinaryOp.lt.Holds (.bool true) (.ofInt .uint64 (2 ^ 64 - 1)) :=
      (integers _ _ _ _ one greatest).lt
    exact chain _ _ _ (.integers zero one) (.integers one greatest) .lt (by decide) first second

end ObjectVM
