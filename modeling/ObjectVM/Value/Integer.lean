/-!
# Whole-number arithmetic

Integers of every kind are computed with at 128 bits, in two's complement: what does not fit is cut
to 128 bits. The reduction into a kind comes after.

Specification: B.3.2.
-/
namespace ObjectVM.Integer

/-- What integers are computed modulo: `2 ^ 128`. -/
def modulus : Nat := Nat.pow 2 128

/-- `n` cut to 128 bits, one of them for the sign. -/
def cut (n : Int) : Int := n.bmod modulus

/-- An operation on the bits of two integers. -/
def bitwise (f : BitVec 128 → BitVec 128 → BitVec 128) (l r : Int) : Int :=
  (f (BitVec.ofInt 128 l) (BitVec.ofInt 128 r)).toInt

/-- All bits the other way round. Mirrors `bit_not`. -/
def complement (n : Int) : Int := (~~~BitVec.ofInt 128 n).toInt

/-- `base ^ e` cut to 128 bits, by squaring. Part of `pow`. -/
def powerMod (base : Int) (e : Nat) : Int :=
  if e = 0 then 1
  else
    let half := powerMod (cut (base * base)) (e / 2)
    if e % 2 = 0 then half else cut (half * base)
termination_by e
decreasing_by omega

/-- The greatest exponent that counts; a greater one is taken for it. -/
def exponentLimit : Nat := UInt32.size - 1

/-- `base` to a negative power `-e`, computed as a real number and cut to a whole one. Zero gives
infinity, which stops at `2 ^ 127 - 1`. The exponent is a double, so beyond `2 ^ 53` it is even.
Part of `pow`. -/
def reciprocalPower (base : Int) (e : Nat) : Int :=
  if base = 0 then (Nat.pow 2 127 : Nat) - 1
  else if base = 1 then 1
  else if base = -1 then if e % 2 = 1 ∧ e < Nat.pow 2 53 then -1 else 1
  else 0

/-- `base ^ e`. Mirrors `pow`. -/
def power (base e : Int) : Int :=
  if e < 0 then reciprocalPower base (-e).toNat else powerMod base (min e.toNat exponentLimit)

/-- The count of a shift: of a count of 32 bits, as much as an integer has places to be shifted
by. Part of `shl` and `shr`. -/
def shiftCount (n : Int) : Nat := (n % UInt32.size).toNat % 128

/-- `x` shifted up. Mirrors `shl`. -/
def shiftLeft (x n : Int) : Int := cut (x * (Nat.pow 2 (shiftCount n) : Nat))

/-- `x` shifted down, toward negative infinity. Mirrors `shr`. -/
def shiftRight (x n : Int) : Int := x >>> shiftCount n

/-- The power with exponent zero is one, whatever the base. -/
theorem powerMod_zero (base : Int) : powerMod base 0 = 1 := by rw [powerMod]; rfl

end ObjectVM.Integer
