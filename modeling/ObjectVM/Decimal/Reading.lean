import ObjectVM.Decimal.Digits

/-!
# Reading numbers

Text as a whole number or, failing that, as a float. A float is a sign, digits with at most one
point among them, and an exponent; or one of the words for infinity and NaN in any case. It is read
to the nearest double, but for an exponent of more than five digits: of that only the leading digits
count, up to the one that takes it to `2 ^ 16` or more.
-/
namespace ObjectVM.Decimal

/-- The sign a text starts with, and what follows it. -/
def splitSign : List Char → Bool × List Char
  | '-' :: cs => (true, cs)
  | '+' :: cs => (false, cs)
  | cs => (false, cs)

/-- A whole number in `low ≤ n ≤ high`: an optional sign and digits. -/
def readInt (low high : Int) (cs : List Char) : Option Int :=
  let (negative, rest) := splitSign cs
  match readDigits rest with
  | some n =>
    let n : Int := if negative then -(n : Int) else n
    if low ≤ n ∧ n ≤ high then some n else none
  | none => none

/-- `coefficient · 10 ^ exponent` as the nearest double. Powers far outside the range of doubles
are not computed. -/
def nearestDouble (coefficient : Nat) (exponent : Int) : Float :=
  if coefficient = 0 then 0.0
  else
    let lead := exponent + (Nat.log2 coefficient : Int) * 30103 / 100000
    if 400 < lead then 1.0 / 0.0
    else if lead < -400 then 0.0
    else if 0 ≤ exponent then Float.ofScientific coefficient false exponent.toNat
    else Float.ofScientific coefficient true (-exponent).toNat

/-- From here on an exponent takes no more digits: `2 ^ 16`. -/
def exponentFull : Nat := UInt16.size

/-- The exponent that digits continue when `acc` was read before them. Once it is full, the digits
that are left are passed over, so it stays below ten times that. -/
def readExponentFrom (acc : Nat) : List Char → Option Nat
  | [] => some acc
  | c :: cs =>
    if isDigit c then
      readExponentFrom (if acc < exponentFull then 10 * acc + digitValue c else acc) cs
    else none

/-- An exponent: nothing, or a mark, an optional sign and digits up to the end of the text. -/
def readExponent : List Char → Option Int
  | [] => some 0
  | c :: cs =>
    if c = 'e' ∨ c = 'E' then
      let (negative, ds) := splitSign cs
      if ds.isEmpty then none
      else (readExponentFrom 0 ds).map fun n => if negative then -(n : Int) else n
    else none

/-- The words for values without digits. -/
def readWord (cs : List Char) : Option Float :=
  let word := String.ofList (cs.map Char.toLower)
  if word = "inf" ∨ word = "infinity" then some (1.0 / 0.0)
  else if word = "nan" then some (0.0 / 0.0)
  else none

/-- A float without its sign. -/
def readMagnitude (cs : List Char) : Option Float :=
  let whole := cs.takeWhile isDigit
  let (part, rest) := match cs.dropWhile isDigit with
    | '.' :: more => (more.takeWhile isDigit, more.dropWhile isDigit)
    | more => ([], more)
  match readDigits (whole ++ part) with
  | some n => (readExponent rest).map fun e => nearestDouble n (e - part.length)
  | none => readWord cs

/-- The double nearest to the number that a text stands for, its exponent read as described above. -/
def readDouble (cs : List Char) : Option Float :=
  let (negative, rest) := splitSign cs
  (readMagnitude rest).map fun x => if negative then -x else x

end ObjectVM.Decimal
