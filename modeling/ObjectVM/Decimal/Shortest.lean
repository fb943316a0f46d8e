import ObjectVM.Decimal.Binary

/-!
# The shortest decimal

Of all decimals that read back as a given float, the ones with the fewest digits, and of those the
nearest. The decimals that read back are an interval around the float, with its ends if the
mantissa is even. For one digit, two digits and so on the float's two neighbours among the decimals
of that many digits are tried; if any decimal of that length lies in the interval, a neighbour does.
-/
namespace ObjectVM.Decimal

/-- The positive decimal `coefficient · 10 ^ exponent`. -/
structure Scaled where
  coefficient : Nat
  exponent : Int
  deriving DecidableEq, Repr

/-- Of two decimals equally near, which one to take. -/
inductive Tie where
  | upper
  | even
  deriving DecidableEq, Repr

/-- `n · 10 ^ e` and `1 · 10 ^ -e` as a fraction over whole numbers. -/
def tenths (n : Nat) (e : Int) : Nat × Nat :=
  if 0 ≤ e then (n * Nat.pow 10 e.toNat, 1) else (n, Nat.pow 10 (-e).toNat)

/-- Whether `n / d` is below `10 ^ e`. -/
def belowPower (n d : Nat) (e : Int) : Bool :=
  let (p, q) := tenths 1 e
  n * q < d * p

/-- Raises `e` at most `steps` times until `n / d` is below `10 ^ (e + 1)`. -/
def raisePower (n d : Nat) (e : Int) : Nat → Int
  | 0 => e
  | steps + 1 => if belowPower n d (e + 1) then e else raisePower n d (e + 1) steps

/-- The power of ten that the leading digit of `n / d` counts. -/
def leadingPower (n d : Nat) : Int :=
  raisePower n d (((Nat.log2 n : Int) - (Nat.log2 d : Int) - 1) * 30103 / 100000 - 1) 4

/-- The decimal without the zeros its coefficient ends with. -/
def Scaled.strip (s : Scaled) : Nat → Scaled
  | 0 => s
  | steps + 1 =>
    if s.coefficient % 10 = 0 ∧ s.coefficient ≠ 0 then
      Scaled.strip ⟨s.coefficient / 10, s.exponent + 1⟩ steps
    else s

/-- An interval of positive rationals over one denominator, around a value. -/
structure Around where
  low : Nat
  value : Nat
  high : Nat
  denominator : Nat
  closed : Bool

/-- Whether `c · 10 ^ k` lies in the interval. -/
def Around.holds (a : Around) (c : Nat) (k : Int) : Bool :=
  let (p, q) := tenths c k
  let x := p * a.denominator
  if a.closed then a.low * q ≤ x && x ≤ a.high * q else a.low * q < x && x < a.high * q

/-- Which of `c` and `c + 1`, times `10 ^ k`, lies nearer to the value between them. -/
def Around.nearer (a : Around) (tie : Tie) (c : Nat) (k : Int) : Nat :=
  let (p, q) := tenths (2 * c + 1) k
  match compare (2 * a.value * q) (p * a.denominator) with
  | .lt => c
  | .gt => c + 1
  | .eq => match tie with
    | .upper => c + 1
    | .even => if c % 2 = 0 then c else c + 1

/-- The neighbour of the value among the multiples of `10 ^ k`, if one lies in the interval. -/
def Around.neighbour? (a : Around) (tie : Tie) (k : Int) : Option Nat :=
  let (p, q) := tenths a.denominator k
  let c := a.value * q / p
  match a.holds c k, a.holds (c + 1) k with
  | true, true => some (if c * p = a.value * q then c else a.nearer tie c k)
  | true, false => some c
  | false, true => some (c + 1)
  | false, false => none

/-- The shortest decimal of at least the given number of digits, by trying `steps` more lengths. -/
def Around.shortest (a : Around) (tie : Tie) (lead : Int) : Nat → Nat → Scaled
  | length, 0 => ⟨a.value, lead - length⟩
  | length, steps + 1 =>
    let k := lead - length
    match a.neighbour? tie k with
    | some c => (⟨c, k⟩ : Scaled).strip 20
    | none => a.shortest tie lead (length + 1) steps

/-- The positive numbers that read back as `m · 2 ^ e`. At a power of two the floats below lie twice
as close. -/
def Layout.around (l : Layout) (m : Nat) (e : Int) : Around :=
  let below := if m = Nat.pow 2 l.fractionBits ∧ l.leastExponent < e then 1 else 2
  let (scale, denominator) :=
    if 2 ≤ e then (Nat.pow 2 (e - 2).toNat, 1) else (1, Nat.pow 2 (2 - e).toNat)
  ⟨(4 * m - below) * scale, 4 * m * scale, (4 * m + 2) * scale, denominator, m % 2 == 0⟩

/-- The shortest decimal that reads back as the positive float `m · 2 ^ e`. -/
def Layout.shortest (l : Layout) (tie : Tie) (m : Nat) (e : Int) : Scaled :=
  let a := l.around m e
  a.shortest tie (leadingPower a.value a.denominator) 0 17

end ObjectVM.Decimal
