import ObjectVM.Proofs.IntegerLaws

/-!
# Arithmetic on integers

What the operators give on integers and truth values of any kinds is what they would give on the
integers without bounds (`BinaryOp.Exact`, `UnaryOp.Exact`), reduced once into a kind
(`Value.IsResidue`): the computation at 128 bits in between leaves no trace. Two operands are
combined in the later of their kinds (`Kind.Meet`).

* `Value.isResidue_iff`: there is just one value that a number is reduced to.
* `Value.exists_meet`: two integral kinds meet, and what is computed with the numbers is reduced
  into the kind in which they do.
* `integers_combine`: so the operators are exact but for the reduction, and fail where a divisor is
  zero and nowhere else.
-/
namespace ObjectVM

/-- The kind in which numbers of two integral kinds are combined: the later one in promotion order,
and `int8` for two truth values. -/
inductive Kind.Meet : Kind → Kind → IntKind → Prop where
  | truths : Meet (.numeric .bool) (.numeric .bool) .int8
  | left {k : IntKind} {other : Kind} (later : other.rank ≤ k.rank) :
    Meet (.numeric (.int k)) other k
  | right {k : IntKind} {other : Kind} (later : other.rank ≤ k.rank) :
    Meet other (.numeric (.int k)) k

/-- The value is the integer of kind `k` that `n` is reduced to. It lies in the range of its kind as
all integers do. -/
def Value.IsResidue (v : Value) (k : IntKind) (n : Int) : Prop :=
  ∃ i : FixedInt, v = .int i ∧ i.kind = k ∧ i.val ≡ n [ZMOD 2 ^ k.width]

/-- What an operator gives on two integers without bounds. Division goes toward zero, and the bits
are those of two's complements without end. -/
inductive BinaryOp.Exact (m n : Int) : BinaryOp → Int → Prop where
  | add : Exact m n .add (m + n)
  | sub : Exact m n .sub (m - n)
  | mul : Exact m n .mul (m * n)
  | div (divisor : n ≠ 0) : Exact m n .div (m.tdiv n)
  | mod (divisor : n ≠ 0) : Exact m n .mod (m.tmod n)
  | band : Exact m n .band (m.land n)
  | bor : Exact m n .bor (m.lor n)
  | bxor : Exact m n .bxor (Int.xor m n)

/-- What an operator gives on one integer without bounds. -/
inductive UnaryOp.Exact (n : Int) : UnaryOp → Int → Prop where
  | neg : Exact n .neg (-n)
  | inc : Exact n .inc (n + 1)
  | dec : Exact n .dec (n - 1)
  | abs : Exact n .abs |n|
  | bnot : Exact n .bnot n.lnot

namespace Value

variable {l r v : Value} {k : IntKind} {m n x : Int}

/-! ## Residues -/

theorem isResidue_ofInt (same : m ≡ n [ZMOD 2 ^ k.width]) : (ofInt k m).IsResidue k n :=
  ⟨FixedInt.ofInt k m, rfl, rfl, (k.wrap_modEq m).trans same⟩

theorem isResidue_of_wide (same : m ≡ n [ZMOD 2 ^ 128]) : (ofInt k m).IsResidue k n :=
  isResidue_ofInt (k.modEq_of_wide same)

/-- There is just one value that a number is reduced to. -/
theorem isResidue_iff : v.IsResidue k n ↔ v = ofInt k n := by
  constructor
  · rintro ⟨⟨kind, val, inRange⟩, rfl, rfl, same⟩
    have equal : val = kind.wrap n := IntKind.eq_of_modEq inRange (kind.wrap_range n)
      (same.trans (kind.wrap_modEq n).symm)
    subst equal
    rfl
  · rintro rfl
    exact isResidue_ofInt (.refl n)

/-- A number is reduced to the same value as another if it is the same modulo the size of the kind. -/
theorem IsResidue.iff_modEq (residue : v.IsResidue k m) :
    v.IsResidue k n ↔ m ≡ n [ZMOD 2 ^ k.width] := by
  rw [isResidue_iff.mp residue]
  constructor
  · intro same
    obtain ⟨i, eq, -, congr⟩ := same
    cases eq
    exact (k.wrap_modEq m).symm.trans congr
  · exact isResidue_ofInt

/-! ## Two integral values -/

theorem integer?_range (h : v.integer? = some n) : -2 ^ 63 ≤ n ∧ n < 2 ^ 64 := by
  cases v with
  | bool b =>
    cases h
    cases b <;> decide
  | int i =>
    cases h
    obtain ⟨kind, val, low, high⟩ := i
    have least : -2 ^ 63 ≤ kind.lowest := by cases kind <;> decide
    have limit : kind.limit ≤ 2 ^ 64 := by cases kind <;> decide
    exact ⟨Int.le_trans least low, Int.lt_of_lt_of_le high limit⟩
  | dec1 | dec2 | text | array | map => cases h

theorem integer?_ofInt (inRange : k.lowest ≤ n ∧ n < k.limit) : (ofInt k n).integer? = some n :=
  congrArg some (IntKind.wrap_eq_self inRange)

/-- Integral values are those that count as numbers without a fraction. -/
theorem number?_of_integer? (h : v.integer? = some n) : ∃ i : NumericKind,
    v.kind = .numeric i ∧ i.isDecimal = false ∧ v.number? = some (i, .int n) := by
  cases v with
  | bool b =>
    cases h
    exact ⟨.bool, rfl, rfl, rfl⟩
  | int i =>
    cases h
    exact ⟨.int i.kind, rfl, rfl, rfl⟩
  | dec1 | dec2 | text | array | map => cases h

theorem exists_meet_promote {i j : NumericKind} (hi : i.isDecimal = false)
    (hj : j.isDecimal = false) :
    ∃ k, Kind.Meet (.numeric i) (.numeric j) k ∧ i.promote j = .int k := by
  cases i with
  | bool =>
    cases j with
    | bool => exact ⟨.int8, .truths, rfl⟩
    | int k => exact ⟨k, .right (Nat.zero_le _), by cases k <;> rfl⟩
    | dec1 | dec2 => cases hj
  | int l =>
    cases j with
    | bool => exact ⟨l, .left (Nat.zero_le _), rfl⟩
    | int k =>
      unfold NumericKind.promote
      by_cases lt : (NumericKind.int l).rank < (NumericKind.int k).rank
      · rw [if_pos lt]
        exact ⟨k, .right (Nat.le_of_lt lt), rfl⟩
      · rw [if_neg lt]
        exact ⟨l, .left (Nat.le_of_not_lt lt), rfl⟩
    | dec1 | dec2 => cases hj
  | dec1 | dec2 => cases hi

/-- Two integral values meet in a kind, and what is computed with their numbers is reduced into
it. -/
theorem exists_meet (hl : l.integer? = some m) (hr : r.integer? = some n) :
    ∃ k, l.kind.Meet r.kind k ∧ ∀ op onInt onReal, arithmetic op onInt onReal l r =
      (onInt m n).map (ofInt k) := by
  obtain ⟨i, kind, whole, number⟩ := number?_of_integer? hl
  obtain ⟨j, kind', whole', number'⟩ := number?_of_integer? hr
  obtain ⟨k, meet, promoted⟩ := exists_meet_promote whole whole'
  refine ⟨k, kind ▸ kind' ▸ meet, fun op onInt onReal => ?_⟩
  unfold arithmetic
  rw [number, number']
  dsimp only
  rw [promoted]
  rfl

/-- Numbers of 64 bits have a quotient of 128 bits. -/
theorem divided_eq (f : Int → Int → Int) (low : -2 ^ 63 ≤ m) (divisor : n ≠ 0) :
    divided f m n = .ok (f m n) := by
  unfold divided
  refine if_neg ?_
  rintro (zero | ⟨least, -⟩)
  · exact divisor zero
  · have bound : (wholeLimit : Int) = 2 ^ 127 := Nat.cast_pow 2 127
    omega

/-! ## Operators -/

theorem integral_eq (hl : l.integer? = some m) (hr : r.integer? = some n) (op : BinaryOp)
    (f : Int → Int → Int) :
    integral op f l r = arithmetic op (fun m n => .ok (f m n)) (fun x _ => x) l r := by
  obtain ⟨i, kind, whole, -⟩ := number?_of_integer? hl
  obtain ⟨j, kind', whole', -⟩ := number?_of_integer? hr
  have integrals : (l.kind.isIntegral && r.kind.isIntegral) = true := by
    rw [kind, kind']
    show (!i.isDecimal && !j.isDecimal) = true
    rw [whole, whole']
    rfl
  exact if_pos integrals

theorem add_eq (hl : l.integer? = some m) : add l r =
    arithmetic .add (fun m n => .ok (Integer.cut (m + n))) (· + ·) l r := by
  cases l <;> first | rfl | cases hl

/-- What is the same at 128 bits is reduced to the same value. -/
theorem computed_exact {op : BinaryOp} {onReal : Float → Float → Float}
    (meet : ∀ op onInt onReal, arithmetic op onInt onReal l r = (onInt m n).map (ofInt k))
    (f : Int → Int → Int) (same : f m n ≡ x [ZMOD 2 ^ 128]) :
    ∃ v, arithmetic op (fun m n => .ok (f m n)) onReal l r = .ok v ∧ v.IsResidue k x :=
  ⟨ofInt k (f m n), meet op _ onReal, isResidue_of_wide same⟩

theorem integral_exact {op : BinaryOp} (hl : l.integer? = some m) (hr : r.integer? = some n)
    (meet : ∀ op onInt onReal, arithmetic op onInt onReal l r = (onInt m n).map (ofInt k))
    (f : Int → Int → Int) (same : f m n ≡ x [ZMOD 2 ^ 128]) :
    ∃ v, integral op f l r = .ok v ∧ v.IsResidue k x := by
  rw [integral_eq hl hr]
  exact computed_exact meet f same

theorem binary_exact {op : BinaryOp} (hl : l.integer? = some m) (hr : r.integer? = some n)
    (meet : ∀ op onInt onReal, arithmetic op onInt onReal l r = (onInt m n).map (ofInt k))
    (exact : BinaryOp.Exact m n op x) : ∃ v, binary op l r = .ok v ∧ v.IsResidue k x := by
  have low := (integer?_range hl).1
  cases exact with
  | add =>
    show ∃ v, add l r = .ok v ∧ v.IsResidue k (m + n)
    rw [add_eq hl]
    exact computed_exact meet (fun m n => Integer.cut (m + n)) (Integer.cut_modEq _)
  | sub => exact computed_exact meet (fun m n => Integer.cut (m - n)) (Integer.cut_modEq _)
  | mul => exact computed_exact meet (fun m n => Integer.cut (m * n)) (Integer.cut_modEq _)
  | div divisor =>
    have computed := meet .div (divided Int.tdiv) (· / ·)
    rw [divided_eq _ low divisor] at computed
    exact ⟨_, computed, isResidue_ofInt (.refl _)⟩
  | mod divisor =>
    have computed := meet .mod (divided Int.tmod) Decimal.remainder
    rw [divided_eq _ low divisor] at computed
    exact ⟨_, computed, isResidue_ofInt (.refl _)⟩
  | band => exact integral_exact hl hr meet _ (Integer.and_modEq m n)
  | bor => exact integral_exact hl hr meet _ (Integer.or_modEq m n)
  | bxor => exact integral_exact hl hr meet _ (Integer.xor_modEq m n)

theorem unary_exact {op : UnaryOp} {i : FixedInt} (exact : UnaryOp.Exact i.val op x) :
    ∃ v, unary op (.int i) = .ok v ∧ v.IsResidue i.kind x := by
  cases exact with
  | neg | inc | dec => exact ⟨_, rfl, isResidue_of_wide (Integer.cut_modEq _)⟩
  | abs =>
    rw [Int.abs_eq_natAbs]
    exact ⟨_, rfl, isResidue_of_wide (Integer.cut_modEq _)⟩
  | bnot => exact ⟨_, rfl, isResidue_of_wide (Integer.complement_modEq _)⟩

end Value

/-- Of two values that are integers or truth values, of whatever kinds, the operators give what they
give on the integers without bounds, reduced into the later of the kinds; only where the divisor is
zero a division fails. The operators on one integer keep its kind in the same way. -/
theorem integers_combine {l r : Value} {m n : Int} (hl : l.integer? = some m)
    (hr : r.integer? = some n) :
    (∃ k, l.kind.Meet r.kind k ∧ ∀ op x, BinaryOp.Exact m n op x →
      ∃ v, Value.binary op l r = .ok v ∧ v.IsResidue k x) ∧
    (n = 0 → Value.binary .div l r = .error .divisionByZero ∧
      Value.binary .mod l r = .error .divisionByZero) ∧
    ∀ (i : FixedInt) op x, UnaryOp.Exact i.val op x →
      ∃ v, Value.unary op (.int i) = .ok v ∧ v.IsResidue i.kind x := by
  obtain ⟨k, meet, computes⟩ := Value.exists_meet hl hr
  refine ⟨⟨k, meet, fun op x exact => Value.binary_exact hl hr computes exact⟩, ?_,
    fun i op x exact => Value.unary_exact exact⟩
  rintro rfl
  exact ⟨computes .div (Value.divided Int.tdiv) (· / ·),
    computes .mod (Value.divided Int.tmod) Decimal.remainder⟩

/-- The square of the greatest number of all kinds has 128 bits, too many for one with a sign. -/
theorem integers_combine_greatest :
    (Value.ofInt .uint64 (2 ^ 64 - 1)).integer? = some (2 ^ 64 - 1) ∧
    Value.binary .mul (.ofInt .uint64 (2 ^ 64 - 1)) (.ofInt .uint64 (2 ^ 64 - 1)) =
      .ok (.ofInt .uint64 1) := by
  have greatest : (Value.ofInt .uint64 (2 ^ 64 - 1)).integer? = some (2 ^ 64 - 1) := by decide
  obtain ⟨⟨k, meet, exact⟩, -⟩ := integers_combine greatest greatest
  replace meet : Kind.Meet (.numeric (.int .uint64)) (.numeric (.int .uint64)) k := meet
  obtain rfl : k = .uint64 := by cases meet <;> rfl
  obtain ⟨v, computed, residue⟩ := exact .mul _ .mul
  refine ⟨greatest, ?_⟩
  rw [computed, Value.isResidue_iff.mp residue]
  decide

end ObjectVM
