import ObjectVM.Decimal.Digits

/-!
# Numerals of JSON texts

A numeral is kept as it is written. As a whole number it is exact. As a float it is read in two
steps, first the leading digits as far as a 64-bit word holds them, then a product with or a
quotient by a power of ten; each step rounds, so a numeral of many digits or with a large exponent
may be read as a neighbour of the nearest double.
-/
namespace ObjectVM.Json

/-- The power of ten behind a numeral: its sign and its digits. -/
structure Exponent where
  negative : Bool
  digits : List Char
  deriving DecidableEq, Repr

/-- A numeral: a sign, the digits before the point, those behind it, and an exponent. -/
structure Numeral where
  negative : Bool
  whole : List Char
  fraction : Option (List Char)
  exponent : Option Exponent
  deriving DecidableEq, Repr

namespace Numeral

/-- The numeral of a natural number. -/
def ofNat (n : Nat) : Numeral := ⟨false, Decimal.digits n, none, none⟩

/-- How the numeral is written. -/
def text (n : Numeral) : List Char :=
  (if n.negative then ['-'] else []) ++ n.whole
    ++ (match n.fraction with
      | some ds => '.' :: ds
      | none => [])
    ++ (match n.exponent with
      | some e => 'e' :: (if e.negative then '-' else '+') :: e.digits
      | none => [])

/-! ## Reading texts -/

/-- Takes digits, at least one. -/
def takeDigits (cs : List Char) : Option (List Char × List Char) :=
  match cs.takeWhile Decimal.isDigit with
  | [] => none
  | ds => some (ds, cs.dropWhile Decimal.isDigit)

/-- Takes the digits before the point. They start with a zero only if it stands alone. -/
def takeWhole (cs : List Char) : Option (List Char × List Char) :=
  match takeDigits cs with
  | some ('0' :: _ :: _, _) => none
  | r => r

/-- Takes the digits behind the point, if there is one. -/
def takeFraction : List Char → Option (Option (List Char) × List Char)
  | '.' :: cs => (takeDigits cs).map fun (ds, rest) => (some ds, rest)
  | cs => some (none, cs)

/-- Takes an exponent's sign and digits. -/
def takePower : List Char → Option (Exponent × List Char)
  | '-' :: cs => (takeDigits cs).map fun (ds, rest) => (⟨true, ds⟩, rest)
  | '+' :: cs => (takeDigits cs).map fun (ds, rest) => (⟨false, ds⟩, rest)
  | cs => (takeDigits cs).map fun (ds, rest) => (⟨false, ds⟩, rest)

/-- Takes an exponent, if there is one. -/
def takeExponent : List Char → Option (Option Exponent × List Char)
  | 'e' :: cs | 'E' :: cs => (takePower cs).map fun (e, rest) => (some e, rest)
  | cs => some (none, cs)

/-- Takes a numeral without its sign. -/
def takeMagnitude (negative : Bool) (cs : List Char) : Option (Numeral × List Char) := do
  let (whole, cs) ← takeWhole cs
  let (fraction, cs) ← takeFraction cs
  let (exponent, cs) ← takeExponent cs
  some (⟨negative, whole, fraction, exponent⟩, cs)

/-- Takes the numeral that a text starts with. -/
def take : List Char → Option (Numeral × List Char)
  | '-' :: cs => takeMagnitude true cs
  | cs => takeMagnitude false cs

theorem takeDigits_length {cs ds rest : List Char} (h : takeDigits cs = some (ds, rest)) :
    rest.length < cs.length := by
  have hcs := congrArg List.length (List.takeWhile_append_dropWhile (p := Decimal.isDigit) (l := cs))
  rw [List.length_append] at hcs
  unfold takeDigits at h
  split at h
  · simp at h
  · rename_i hne
    have : (cs.takeWhile Decimal.isDigit).length ≠ 0 := fun h0 =>
      hne (List.eq_nil_of_length_eq_zero h0)
    simp only [Option.some.injEq, Prod.mk.injEq] at h
    rw [← h.2]
    omega

theorem takeWhole_length {cs ds rest : List Char} (h : takeWhole cs = some (ds, rest)) :
    rest.length < cs.length := by
  unfold takeWhole at h
  split at h
  · simp at h
  · exact takeDigits_length h

theorem takeFraction_length {cs rest : List Char} {ds : Option (List Char)}
    (h : takeFraction cs = some (ds, rest)) : rest.length ≤ cs.length := by
  unfold takeFraction at h
  split at h
  · obtain ⟨⟨ds, rest⟩, hd, h⟩ := Option.map_eq_some_iff.mp h
    have := takeDigits_length hd
    simp_all
    omega
  · simp_all

theorem takePower_length {cs rest : List Char} {e : Exponent}
    (h : takePower cs = some (e, rest)) : rest.length ≤ cs.length := by
  unfold takePower at h
  split at h <;>
  · obtain ⟨⟨ds, rest⟩, hd, h⟩ := Option.map_eq_some_iff.mp h
    have := takeDigits_length hd
    simp_all
    omega

theorem takeExponent_length {cs rest : List Char} {e : Option Exponent}
    (h : takeExponent cs = some (e, rest)) : rest.length ≤ cs.length := by
  unfold takeExponent at h
  split at h
  · obtain ⟨⟨e, rest⟩, hd, h⟩ := Option.map_eq_some_iff.mp h
    have := takePower_length hd
    simp_all
    omega
  · obtain ⟨⟨e, rest⟩, hd, h⟩ := Option.map_eq_some_iff.mp h
    have := takePower_length hd
    simp_all
    omega
  · simp_all

theorem takeMagnitude_length {negative : Bool} {cs rest : List Char} {n : Numeral}
    (h : takeMagnitude negative cs = some (n, rest)) : rest.length < cs.length := by
  unfold takeMagnitude at h
  obtain ⟨⟨whole, cs₁⟩, h₁, h⟩ := Option.bind_eq_some_iff.mp h
  obtain ⟨⟨fraction, cs₂⟩, h₂, h⟩ := Option.bind_eq_some_iff.mp h
  obtain ⟨⟨exponent, cs₃⟩, h₃, h⟩ := Option.bind_eq_some_iff.mp h
  have := takeWhole_length h₁
  have := takeFraction_length h₂
  have := takeExponent_length h₃
  simp_all
  omega

/-- A numeral leaves a shorter text. -/
theorem take_length {cs rest : List Char} {n : Numeral} (h : take cs = some (n, rest)) :
    rest.length < cs.length := by
  unfold take at h
  split at h
  · have := takeMagnitude_length h
    simp only [List.length_cons]
    omega
  · exact takeMagnitude_length h

/-! ## As a number -/

/-- The number below `limit` that the numeral writes without sign, point and exponent. -/
def toNat? (n : Numeral) (limit : Nat) : Option Nat :=
  if n.negative || n.fraction.isSome || n.exponent.isSome then none
  else (Decimal.readDigits n.whole).filter (· < limit)

/-- Appends digits to a word as long as it can hold them. Also counts the digits left over. -/
def gather (word : Nat) : List Char → Nat × Nat
  | [] => (word, 0)
  | c :: cs =>
    let more := 10 * word + Decimal.digitValue c
    if more < UInt64.size then gather more cs else (word, cs.length + 1)

/-- The nearest double to a power of ten. -/
def power (n : Nat) : Float := Float.ofScientific 1 false n

/-- `x` times a power of ten. None is too small, but the result has to be finite. -/
def scale (x : Float) (e : Int) : Option Float :=
  if 0 ≤ e then
    if 308 < e then if x == 0.0 then some x else none
    else
      let y := x * power e.toNat
      if y.isInf then none else some y
  else if -308 ≤ e then some (x / power (-e).toNat)
  else if x == 0.0 then some x
  else scale (x / power 308) (e + 308)
termination_by (-e).toNat

/-- The largest exponent that is computed with. -/
def exponentLimit : Nat := Nat.pow 2 31 - 1

/-- A word times a power of ten and the numeral's exponent. An exponent past the limit makes any
number but zero too large or vanish. -/
def scaleBy (exponent : Option Exponent) (word : Nat) (e : Int) : Option Float :=
  match exponent with
  | none => scale (Float.ofNat word) e
  | some x =>
    let n := (Decimal.readDigits x.digits).getD 0
    if exponentLimit < n then if word = 0 ∨ x.negative then some 0.0 else none
    else scale (Float.ofNat word) (if x.negative then e - n else e + n)

/-- The double that the numeral is read as, unless that is infinite. -/
def toFloat? (n : Numeral) : Option Float :=
  let (word, dropped) := gather 0 n.whole
  let ds := n.fraction.getD []
  let (word, ignored) := gather word ds
  (scaleBy n.exponent word (dropped - (ds.length - ignored : Nat))).map fun x =>
    if n.negative then -x else x

end Numeral

end ObjectVM.Json
