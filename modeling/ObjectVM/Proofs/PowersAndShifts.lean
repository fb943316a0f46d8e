import Mathlib.RingTheory.Coprime.Lemmas
import ObjectVM.Proofs.IntegerArithmetic

/-!
# Powers and shifts of integers

Powers and shifts are computed at 128 bits as other arithmetic is, but not with every right operand:
an exponent beyond `2 ^ 32 - 1` is taken for that one, and a count of places is taken modulo 128. Up
to these bounds the results are exact but for the reduction into a kind. Beyond them they are those
of another operand, and it depends on the left operand whether that shows.

* `powers_reduce`: what a power gives, and when that is the power.
* `power_capped`: an odd base and a great exponent, where it is not.
* `shifts_reduce`: what shifts give, and when that is what they are said to give.
* `shift_wraps`: a number that a great count leaves in place.
-/
namespace ObjectVM

/-! ## Powers -/

namespace Integer

variable {b e x n : Int} {w : Nat}

/-- Of the exponents that are not negative only the first `2 ^ 32` count. -/
theorem power_modEq (b : Int) (notNegative : 0 ≤ e) :
    power b e ≡ b ^ min e.toNat (2 ^ 32 - 1) [ZMOD 2 ^ 128] := by
  unfold power
  rw [if_neg (Int.not_lt.mpr notNegative)]
  exact powerMod_modEq b _

/-- If a power is the same with a lesser exponent, the base is even, or the powers go round. -/
theorem pow_modEq_iff {s t : Nat} (wide : w ≤ s) :
    b ^ s ≡ b ^ (s + t) [ZMOD 2 ^ w] ↔ 2 ∣ b ∨ b ^ t ≡ 1 [ZMOD 2 ^ w] := by
  constructor
  · intro same
    by_cases even : 2 ∣ b
    · exact .inl even
    · right
      obtain ⟨c, rfl⟩ : Odd b := Int.not_even_iff_odd.mp (mt even_iff_two_dvd.mp even)
      have coprime : IsCoprime (2 : Int) (2 * c + 1) := ⟨-c, 1, by ring⟩
      have divides := same.dvd
      rw [pow_add, ← mul_sub_one] at divides
      exact (Int.modEq_iff_dvd.mpr (coprime.pow.dvd_of_dvd_mul_left divides)).symm
  · rintro (even | round)
    · have vanishes : ∀ u, w ≤ u → b ^ u ≡ 0 [ZMOD 2 ^ w] := fun u le =>
        Int.modEq_zero_iff_dvd.mpr ((pow_dvd_pow 2 le).trans (pow_dvd_pow_of_dvd even u))
      exact (vanishes s wide).trans (vanishes (s + t) (Nat.le_add_right_of_le wide)).symm
    · have more := (round.mul_left (b ^ s)).symm
      rwa [mul_one, ← pow_add] at more

/-- What becomes of a power when exponents are bounded. -/
theorem pow_min_modEq_iff {s top : Nat} (wide : w ≤ top) :
    b ^ min s top ≡ b ^ s [ZMOD 2 ^ w] ↔
      s ≤ top ∨ 2 ∣ b ∨ b ^ (s - top) ≡ 1 [ZMOD 2 ^ w] := by
  by_cases le : s ≤ top
  · rw [Nat.min_eq_left le]
    exact ⟨fun _ => .inl le, fun _ => .refl _⟩
  · have ge := Nat.le_of_not_le le
    obtain ⟨t, rfl⟩ := Nat.exists_eq_add_of_le ge
    rw [Nat.min_eq_right ge, pow_modEq_iff wide, Nat.add_sub_cancel_left]
    exact ⟨.inr, fun exact => exact.resolve_left le⟩

end Integer

theorem Value.power_residue {l r : Value} {b e : Int} (hl : l.integer? = some b)
    (hr : r.integer? = some e) (notNegative : 0 ≤ e) :
    ∃ k v, l.kind.Meet r.kind k ∧ Value.binary .pow l r = .ok v ∧
      v.IsResidue k (b ^ min e.toNat (2 ^ 32 - 1)) := by
  obtain ⟨k, meet, computes⟩ := Value.exists_meet hl hr
  obtain ⟨v, computed, residue⟩ : ∃ v, Value.binary .pow l r = .ok v ∧
      v.IsResidue k (b ^ min e.toNat (2 ^ 32 - 1)) :=
    Value.computed_exact computes Integer.power (Integer.power_modEq b notNegative)
  exact ⟨k, v, meet, computed, residue⟩

/-- A power with an exponent that is not negative is that of the base to the exponent or, if that is
less, to `2 ^ 32 - 1`, reduced into the later of the kinds. So it is the power itself if the exponent
is below `2 ^ 32`, or the base is even, or the powers of the base go round, and in no other case. -/
theorem powers_reduce {l r : Value} {b e : Int} (hl : l.integer? = some b)
    (hr : r.integer? = some e) (notNegative : 0 ≤ e) :
    ∃ k v, l.kind.Meet r.kind k ∧ Value.binary .pow l r = .ok v ∧
      v.IsResidue k (b ^ min e.toNat (2 ^ 32 - 1)) ∧
      (v.IsResidue k (b ^ e.toNat) ↔ e < 2 ^ 32 ∨ 2 ∣ b ∨
        b ^ (e.toNat - (2 ^ 32 - 1)) ≡ 1 [ZMOD 2 ^ k.width]) := by
  obtain ⟨k, v, meet, computed, residue⟩ := Value.power_residue hl hr notNegative
  have wide : k.width ≤ 2 ^ 32 - 1 := Nat.le_trans k.width_le (by decide)
  have small : e < 2 ^ 32 ↔ e.toNat ≤ 2 ^ 32 - 1 := by omega
  rw [small]
  exact ⟨k, v, meet, computed, residue,
    residue.iff_modEq.trans (Integer.pow_min_modEq_iff wide)⟩

/-- An even base has the same power with every great exponent, up to the greatest there is. -/
theorem powers_reduce_even :
    (Value.ofInt .uint8 6).integer? = some 6 ∧
    (Value.ofInt .uint64 (2 ^ 64 - 1)).integer? = some (2 ^ 64 - 1) ∧ (0 : Int) ≤ 2 ^ 64 - 1 ∧
    ∃ k v, Kind.Meet (.numeric (.int .uint8)) (.numeric (.int .uint64)) k ∧
      Value.binary .pow (.ofInt .uint8 6) (.ofInt .uint64 (2 ^ 64 - 1)) = .ok v ∧
      v.IsResidue k (6 ^ (2 ^ 64 - 1 : Int).toNat) := by
  have base : (Value.ofInt .uint8 6).integer? = some 6 := by decide
  have exponent : (Value.ofInt .uint64 (2 ^ 64 - 1)).integer? = some (2 ^ 64 - 1) := by decide
  have notNegative : (0 : Int) ≤ 2 ^ 64 - 1 := by decide
  obtain ⟨k, v, meet, computed, -, exact⟩ := powers_reduce base exponent notNegative
  exact ⟨base, exponent, notNegative, k, v, meet, computed, exact.mpr (.inr (.inl (by decide)))⟩

/-- Of an odd base another power is computed: that of -1 to `2 ^ 32`, which is 1, comes out as
-1. -/
theorem power_capped :
    Value.binary .pow (.ofInt .int64 (-1)) (.ofInt .int64 (2 ^ 32)) = .ok (.ofInt .int64 (-1)) ∧
    ¬ (Value.ofInt .int64 (-1)).IsResidue .int64 ((-1) ^ 2 ^ 32) := by
  have base : (Value.ofInt .int64 (-1)).integer? = some (-1) := by decide
  have exponent : (Value.ofInt .int64 (2 ^ 32)).integer? = some (2 ^ 32) := by decide
  obtain ⟨k, v, meet, computed, residue⟩ := Value.power_residue base exponent (by decide)
  replace meet : Kind.Meet (.numeric (.int .int64)) (.numeric (.int .int64)) k := meet
  obtain rfl : k = .int64 := by cases meet <;> rfl
  have capped : min (2 ^ 32 : Int).toNat (2 ^ 32 - 1) = 2 ^ 32 - 1 := by omega
  have odd : (-1 : Int) ^ (2 ^ 32 - 1) = -1 := Odd.neg_one_pow (Nat.odd_iff.mpr rfl)
  have even : (-1 : Int) ^ 2 ^ 32 = 1 := Even.neg_one_pow (Nat.even_iff.mpr rfl)
  rw [capped, odd] at residue
  constructor
  · rw [computed, Value.isResidue_iff.mp residue]
  · rw [even, Value.isResidue_iff]
    decide

/-! ## Shifts -/

namespace Integer

variable {x n : Int} {w : Nat}

theorem shiftCount_eq (notNegative : 0 ≤ n) : shiftCount n = n.toNat % 128 := by
  have size : (UInt32.size : Int) = 2 ^ 32 := rfl
  unfold shiftCount
  rw [size]
  omega

theorem shiftLeft_modEq (x : Int) (notNegative : 0 ≤ n) :
    shiftLeft x n ≡ x * 2 ^ (n.toNat % 128) [ZMOD 2 ^ 128] := by
  unfold shiftLeft
  rw [shiftCount_eq notNegative, Nat.pow_eq, Nat.cast_pow]
  exact cut_modEq _

theorem shiftRight_eq (x : Int) (notNegative : 0 ≤ n) :
    shiftRight x n = x / 2 ^ (n.toNat % 128) := by
  unfold shiftRight
  rw [shiftCount_eq notNegative, Int.shiftRight_eq_div_pow, Nat.cast_pow]
  rfl

/-- Of a number of 64 bits as many places down only the sign is left. -/
theorem ediv_pow_eq {s : Nat} (low : -2 ^ 63 ≤ x) (high : x < 2 ^ 64) (far : 64 ≤ s) :
    x / 2 ^ s = if x < 0 then -1 else 0 := by
  have size : (2 : Int) ^ 64 ≤ 2 ^ s := mod_cast Nat.pow_le_pow_right (by decide) far
  have positive : (0 : Int) < 2 ^ s := Int.pow_pos (by decide)
  split
  · exact ((Int.ediv_emod_unique (r := x + 2 ^ s) positive).mpr
      ⟨by ring, by omega, by omega⟩).1
  · exact Int.ediv_eq_zero_of_lt (by omega) (by omega)

/-- Shifted up by as many places as a kind has bits, a number leaves nothing. -/
theorem mul_pow_modEq_zero {s : Nat} (x : Int) (far : w ≤ s) : x * 2 ^ s ≡ 0 [ZMOD 2 ^ w] :=
  Int.modEq_zero_iff_dvd.mpr ((pow_dvd_pow 2 far).mul_left x)

/-- When a count modulo 128 shifts up as the count does. -/
theorem shiftedUp_iff (x : Int) (width : w ≤ 64) :
    x * 2 ^ (n.toNat % 128) ≡ x * 2 ^ n.toNat [ZMOD 2 ^ w] ↔
      n < 128 ∨ x * 2 ^ (n.toNat % 128) ≡ 0 [ZMOD 2 ^ w] := by
  by_cases near : n < 128
  · have same : n.toNat % 128 = n.toNat := by omega
    rw [same]
    exact ⟨fun _ => .inl near, fun _ => .refl _⟩
  · have nothing : x * 2 ^ n.toNat ≡ 0 [ZMOD 2 ^ w] := mul_pow_modEq_zero x (by omega)
    exact ⟨fun same => .inr (same.trans nothing),
      fun same => (same.resolve_left near).trans nothing.symm⟩

/-- When a count modulo 128 shifts down as the count does. -/
theorem shiftedDown_iff (low : -2 ^ 63 ≤ x) (high : x < 2 ^ 64) :
    x / 2 ^ (n.toNat % 128) ≡ x / 2 ^ n.toNat [ZMOD 2 ^ w] ↔
      n < 128 ∨ x / 2 ^ (n.toNat % 128) ≡ (if x < 0 then -1 else 0) [ZMOD 2 ^ w] := by
  by_cases near : n < 128
  · have same : n.toNat % 128 = n.toNat := by omega
    rw [same]
    exact ⟨fun _ => .inl near, fun _ => .refl _⟩
  · rw [ediv_pow_eq (s := n.toNat) low high (by omega)]
    exact ⟨.inr, fun same => same.resolve_left near⟩

end Integer

/-- A shift by a count that is not negative goes by the count modulo 128. So up to a count of 127 a
number `x` shifted by `n` places is `x * 2 ^ n` or the whole part of `x / 2 ^ n`, reduced into the
later of the kinds; and with a greater count it is so only if what the lesser count leaves happens to
be the same. -/
theorem shifts_reduce {l r : Value} {x n : Int} (hl : l.integer? = some x)
    (hr : r.integer? = some n) (notNegative : 0 ≤ n) :
    ∃ k up down, l.kind.Meet r.kind k ∧
      Value.binary .bls l r = .ok up ∧ Value.binary .brs l r = .ok down ∧
      up.IsResidue k (x * 2 ^ (n.toNat % 128)) ∧ down.IsResidue k (x / 2 ^ (n.toNat % 128)) ∧
      (up.IsResidue k (x * 2 ^ n.toNat) ↔ n < 128 ∨
        x * 2 ^ (n.toNat % 128) ≡ 0 [ZMOD 2 ^ k.width]) ∧
      (down.IsResidue k (x / 2 ^ n.toNat) ↔ n < 128 ∨
        x / 2 ^ (n.toNat % 128) ≡ (if x < 0 then -1 else 0) [ZMOD 2 ^ k.width]) ∧
      (k.width ≤ n → n < 128 → up = .ofInt k 0) ∧
      (0 ≤ x → 64 ≤ n → n < 128 → down = .ofInt k 0) := by
  obtain ⟨k, meet, computes⟩ := Value.exists_meet hl hr
  obtain ⟨low, high⟩ := Value.integer?_range hl
  obtain ⟨up, raised, residue⟩ : ∃ v, Value.binary .bls l r = .ok v ∧
      v.IsResidue k (x * 2 ^ (n.toNat % 128)) :=
    Value.integral_exact hl hr computes Integer.shiftLeft (Integer.shiftLeft_modEq x notNegative)
  obtain ⟨down, lowered, residue'⟩ : ∃ v, Value.binary .brs l r = .ok v ∧
      v.IsResidue k (x / 2 ^ (n.toNat % 128)) :=
    Value.integral_exact hl hr computes Integer.shiftRight
      (congrArg (· % _) (Integer.shiftRight_eq x notNegative))
  have within : n < 128 → n.toNat % 128 = n.toNat := by omega
  refine ⟨k, up, down, meet, raised, lowered, residue, residue',
    residue.iff_modEq.trans (Integer.shiftedUp_iff x k.width_le),
    residue'.iff_modEq.trans (Integer.shiftedDown_iff low high), ?_, ?_⟩
  · intro far near
    rw [within near] at residue
    exact Value.isResidue_iff.mp
      (residue.iff_modEq.mpr (Integer.mul_pow_modEq_zero x (by omega)))
  · intro positive far near
    rw [within near, Integer.ediv_pow_eq low high (by omega), if_neg (Int.not_lt.mpr positive)]
      at residue'
    exact Value.isResidue_iff.mp residue'

/-- The least number of eight bits, shifted by 100 places as one of 64 bits: nothing is left of it
going up, and only the sign going down. -/
theorem shifts_reduce_far :
    (Value.ofInt .int8 (-128)).integer? = some (-128) ∧
    (Value.ofInt .int64 100).integer? = some 100 ∧ (0 : Int) ≤ 100 ∧
    Value.binary .bls (.ofInt .int8 (-128)) (.ofInt .int64 100) = .ok (.ofInt .int64 0) ∧
    Value.binary .brs (.ofInt .int8 (-128)) (.ofInt .int64 100) = .ok (.ofInt .int64 (-1)) := by
  have number : (Value.ofInt .int8 (-128)).integer? = some (-128) := by decide
  have count : (Value.ofInt .int64 100).integer? = some 100 := by decide
  obtain ⟨k, up, down, meet, raised, lowered, -, residue, -, -, nothing, -⟩ :=
    shifts_reduce number count (by decide)
  replace meet : Kind.Meet (.numeric (.int .int8)) (.numeric (.int .int64)) k := meet
  obtain rfl : k = .int64 := by
    cases meet with
    | left later => exact absurd later (by decide)
    | right => rfl
  refine ⟨number, count, by decide, ?_, ?_⟩
  · rw [raised, nothing (by decide) (by decide)]
  · rw [lowered, Value.isResidue_iff.mp residue]
    decide

/-- A count of 128 places leaves numbers where they are: 1 does not vanish going up, nor 5 going
down. -/
theorem shift_wraps :
    Value.binary .bls (.ofInt .int64 1) (.ofInt .int64 128) = .ok (.ofInt .int64 1) ∧
    ¬ (Value.ofInt .int64 1).IsResidue .int64 (1 * 2 ^ 128) ∧
    Value.binary .brs (.ofInt .int64 5) (.ofInt .int64 128) = .ok (.ofInt .int64 5) ∧
    ¬ (Value.ofInt .int64 5).IsResidue .int64 (5 / 2 ^ 128) := by
  rw [Value.isResidue_iff, Value.isResidue_iff]
  exact ⟨rfl, by decide, rfl, by decide⟩

end ObjectVM
