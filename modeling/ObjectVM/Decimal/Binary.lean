/-!
# Binary floating-point numbers taken apart

A binary float of either width is a whole mantissa times a power of two. Reading the stored bits
that way makes exact work in natural numbers possible: cutting off the fraction, the remainder of a
division, and the decimal digits of `Decimal.Shortest`.
-/
namespace ObjectVM.Decimal

/-- How a float is stored: this many bits of fraction below this many bits of exponent. -/
structure Layout where
  fractionBits : Nat
  exponentBits : Nat
  deriving DecidableEq, Repr

/-- Single width, 32 bits. -/
def single : Layout := ⟨23, 8⟩

/-- Double width, 64 bits. -/
def double : Layout := ⟨52, 11⟩

/-- A float taken apart; a finite one is `± mantissa · 2 ^ exponent`. -/
inductive Parts where
  | nan
  | infinite (negative : Bool)
  | finite (negative : Bool) (mantissa : Nat) (exponent : Int)
  deriving DecidableEq, Repr

namespace Layout

/-- The power of two that the last bit of the smallest floats counts. -/
def leastExponent (l : Layout) : Int := 2 - (Nat.pow 2 (l.exponentBits - 1) : Nat) - l.fractionBits

/-- The float that `bits` stores. -/
def parts (l : Layout) (bits : Nat) : Parts :=
  let fraction := bits % Nat.pow 2 l.fractionBits
  let exponent := bits / Nat.pow 2 l.fractionBits % Nat.pow 2 l.exponentBits
  let negative := bits / Nat.pow 2 (l.fractionBits + l.exponentBits) % 2 == 1
  if exponent = Nat.pow 2 l.exponentBits - 1 then
    if fraction = 0 then .infinite negative else .nan
  else if exponent = 0 then .finite negative fraction l.leastExponent
  else .finite negative (Nat.pow 2 l.fractionBits + fraction) (l.leastExponent + (exponent - 1))

end Layout

/-- A double taken apart. -/
def parts64 (x : Float) : Parts := double.parts x.toBits.toNat

/-- A single taken apart. -/
def parts32 (x : Float32) : Parts := single.parts x.toBits.toNat

/-- The whole number that `x` becomes when its fraction is cut off. Numbers beyond `limit` stop
there and a NaN counts as zero. -/
def truncate (limit : Nat) (x : Float) : Int :=
  let signed (negative : Bool) (n : Nat) : Int :=
    if negative then -(min n limit : Nat) else (min n (limit - 1) : Nat)
  match parts64 x with
  | .nan => 0
  | .infinite negative => signed negative limit
  | .finite negative m e =>
    signed negative (if 0 ≤ e then m * Nat.pow 2 e.toNat else m / Nat.pow 2 (-e).toNat)

/-- The double `± n · 2 ^ e` for an `n` that its mantissa can hold. -/
def scaled (negative : Bool) (n : Nat) (e : Int) : Float :=
  let magnitude := (Float.ofNat n).scaleB e
  if negative then -magnitude else magnitude

/-- Remainder of the division that rounds toward zero: exact, with the sign of `x`. -/
def remainder (x y : Float) : Float :=
  match parts64 x, parts64 y with
  | .finite negative m e, .finite _ n f =>
    if n = 0 then 0.0 / 0.0
    else
      let g := min e f
      scaled negative (m * Nat.pow 2 (e - g).toNat % (n * Nat.pow 2 (f - g).toNat)) g
  | .finite .., .infinite _ => x
  | _, _ => 0.0 / 0.0

end ObjectVM.Decimal
