import Mathlib.Data.Int.Bitwise
import Mathlib.Data.Int.ModEq
import ObjectVM.Value.Operator

/-!
# Integers at 128 bits

An integer that is cut to 128 bits stays the same modulo `2 ^ 128`, and with it modulo the size of
every kind. So what is computed at 128 bits may be compared with what would be computed without any
bounds: `Integer.cut_modEq` for a single result, `Integer.bitwise_modEq` and
`Integer.complement_modEq` for bits, where the integers without bounds are two's complements without
end, and `Integer.powerMod_modEq` for powers.

* `IntKind.wrap_modEq`, `IntKind.eq_of_modEq`: the reduction into a kind gives the one number of the
  kind that is the same modulo its size.
-/
namespace ObjectVM

namespace Integer

variable {l r : Int}

theorem cut_modEq (n : Int) : cut n ≡ n [ZMOD 2 ^ 128] := Int.bmod_emod

/-! ## Bits -/

/-- The low bits of an integer. -/
theorem getLsbD_ofInt (w : Nat) (n : Int) (i : Nat) :
    (BitVec.ofInt w n).getLsbD i = (decide (i < w) && n.testBit i) := by
  cases n with
  | ofNat n =>
    rw [Int.ofNat_eq_natCast, BitVec.ofInt_natCast, BitVec.getLsbD_ofNat]
    rfl
  | negSucc n =>
    rw [BitVec.ofInt_negSucc_eq_not_ofNat, BitVec.getLsbD_not, BitVec.getLsbD_ofNat]
    cases decide (i < w) <;> rfl

theorem toInt_ofInt_modEq (n : Int) : (BitVec.ofInt 128 n).toInt ≡ n [ZMOD 2 ^ 128] := by
  rw [BitVec.toInt_ofInt]
  exact Int.bmod_emod

/-- An operation that goes bit by bit does not depend on how many bits there are. -/
theorem bitwise_modEq {f : BitVec 128 → BitVec 128 → BitVec 128} {g : Int → Int → Int}
    {bit : Bool → Bool → Bool}
    (cutOff : ∀ x y i, (f x y).getLsbD i = bit (x.getLsbD i) (y.getLsbD i))
    (endless : ∀ m n i, (g m n).testBit i = bit (m.testBit i) (n.testBit i)) (l r : Int) :
    bitwise f l r ≡ g l r [ZMOD 2 ^ 128] := by
  have same : f (BitVec.ofInt 128 l) (BitVec.ofInt 128 r) = BitVec.ofInt 128 (g l r) := by
    refine BitVec.eq_of_getLsbD_eq fun i lt => ?_
    rw [cutOff, getLsbD_ofInt, getLsbD_ofInt, getLsbD_ofInt, endless, decide_eq_true lt,
      Bool.true_and, Bool.true_and, Bool.true_and]
  unfold bitwise
  rw [same]
  exact toInt_ofInt_modEq _

theorem and_modEq (l r : Int) : bitwise (· &&& ·) l r ≡ l.land r [ZMOD 2 ^ 128] :=
  bitwise_modEq (fun _ _ _ => BitVec.getLsbD_and) Int.testBit_land l r

theorem or_modEq (l r : Int) : bitwise (· ||| ·) l r ≡ l.lor r [ZMOD 2 ^ 128] :=
  bitwise_modEq (fun _ _ _ => BitVec.getLsbD_or) Int.testBit_lor l r

theorem xor_modEq (l r : Int) : bitwise (· ^^^ ·) l r ≡ Int.xor l r [ZMOD 2 ^ 128] :=
  bitwise_modEq (fun _ _ _ => BitVec.getLsbD_xor) Int.testBit_lxor l r

theorem complement_modEq (n : Int) : complement n ≡ n.lnot [ZMOD 2 ^ 128] := by
  have same : ~~~BitVec.ofInt 128 n = BitVec.ofInt 128 n.lnot := by
    refine BitVec.eq_of_getLsbD_eq fun i lt => ?_
    rw [BitVec.getLsbD_not, getLsbD_ofInt, getLsbD_ofInt, Int.testBit_lnot, decide_eq_true lt,
      Bool.true_and, Bool.true_and, Bool.true_and]
  unfold complement
  rw [same]
  exact toInt_ofInt_modEq _

/-! ## Powers -/

theorem powerMod_modEq (base : Int) (e : Nat) : powerMod base e ≡ base ^ e [ZMOD 2 ^ 128] := by
  induction base, e using powerMod.induct with
  | case1 base => rw [powerMod_zero, pow_zero]
  | case2 base e positive even ih =>
    have half := ih.trans ((cut_modEq (base * base)).pow (e / 2))
    have whole : base ^ e = (base * base) ^ (e / 2) := by
      rw [← sq, ← pow_mul, Nat.mul_div_cancel' (Nat.dvd_of_mod_eq_zero even)]
    rw [powerMod, if_neg positive, if_pos even, whole]
    exact half
  | case3 base e positive odd ih =>
    have half := ih.trans ((cut_modEq (base * base)).pow (e / 2))
    have whole : base ^ e = (base * base) ^ (e / 2) * base := by
      rw [← sq, ← pow_mul, ← pow_succ]
      congr 1
      omega
    rw [powerMod, if_neg positive, if_neg odd, whole]
    exact (cut_modEq _).trans (half.mul_right base)

end Integer

/-! ## Kinds -/

namespace IntKind

variable {m n : Int} {k : IntKind}

theorem width_le (k : IntKind) : k.width ≤ 64 := by cases k <;> decide

/-- The reduction into a kind, as one modulo a power of two. -/
theorem wrap_modEq (k : IntKind) (n : Int) : k.wrap n ≡ n [ZMOD 2 ^ k.width] := by
  have size : ((Nat.pow 2 k.width : Nat) : Int) = 2 ^ k.width := Nat.cast_pow 2 k.width
  rw [← size]
  unfold wrap
  split
  · exact Int.bmod_emod
  · exact Int.mod_modEq _ _

/-- What is the same modulo `2 ^ 128` is so modulo the size of a kind. -/
theorem modEq_of_wide (k : IntKind) (same : m ≡ n [ZMOD 2 ^ 128]) : m ≡ n [ZMOD 2 ^ k.width] :=
  same.of_dvd (pow_dvd_pow 2 (Nat.le_trans k.width_le (by decide)))

theorem limit_eq (k : IntKind) : k.limit = k.lowest + 2 ^ k.width := by cases k <;> decide

/-- There is one number of the kind that is the same modulo its size. -/
theorem eq_of_modEq (hm : k.lowest ≤ m ∧ m < k.limit) (hn : k.lowest ≤ n ∧ n < k.limit)
    (same : m ≡ n [ZMOD 2 ^ k.width]) : m = n := by
  have size := k.limit_eq
  have near : |n - m| < 2 ^ k.width := abs_lt.mpr ⟨by omega, by omega⟩
  have equal := Int.eq_zero_of_abs_lt_dvd same.dvd near
  omega

/-- The numbers of a kind stay as they are. -/
theorem wrap_eq_self (inRange : k.lowest ≤ n ∧ n < k.limit) : k.wrap n = n :=
  eq_of_modEq (k.wrap_range n) inRange (k.wrap_modEq n)

end IntKind

end ObjectVM
