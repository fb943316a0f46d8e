import ObjectVM.Decimal.Notation
import ObjectVM.Json.Tree
import ObjectVM.Text.Quoted

/-!
# Writing JSON

A tree as text, two blanks for each level it lies deep, every item and entry on a line of its own.
Floats are written with the fewest digits that tell them apart, and as null where they are not
finite.
-/
namespace ObjectVM.Json

/-- How a character of a string is written. -/
def escape (c : Char) : List Char :=
  if c = '"' then ['\\', '"']
  else if c = '\\' then ['\\', '\\']
  else if c = '\x08' then ['\\', 'b']
  else if c = '\x0c' then ['\\', 'f']
  else if c = '\n' then ['\\', 'n']
  else if c = '\r' then ['\\', 'r']
  else if c = '\t' then ['\\', 't']
  else if c.toNat < 0x20 then
    let ds := Text.hexDigits c.toNat
    '\\' :: 'u' :: List.replicate (4 - ds.length) '0' ++ ds
  else [c]

/-- A text as a string. -/
def quote (s : String) : List Char := '"' :: s.toList.flatMap escape ++ ['"']

/-- A new line, `depth` levels deep. -/
def newLine (depth : Nat) : List Char := '\n' :: List.replicate (2 * depth) ' '

namespace Numeral

/-- The numeral of a positive decimal: with a point as long as the leading digit counts between
`10 ^ -5` and `10 ^ 15`, and with an exponent elsewhere. -/
def ofScaled (negative : Bool) (s : Decimal.Scaled) : Numeral :=
  let ds := Decimal.digits s.coefficient
  if -5 ≤ s.lead ∧ s.lead ≤ 15 then
    if 0 ≤ s.exponent then
      ⟨negative, ds ++ List.replicate s.exponent.toNat '0', some ['0'], none⟩
    else if 0 ≤ s.lead then
      ⟨negative, ds.take (s.lead.toNat + 1), some (ds.drop (s.lead.toNat + 1)), none⟩
    else ⟨negative, ['0'], some (List.replicate (-s.lead - 1).toNat '0' ++ ds), none⟩
  else
    let fraction := if ds.length = 1 then none else some (ds.drop 1)
    ⟨negative, ds.take 1, fraction, some ⟨s.lead < 0, Decimal.digits s.lead.natAbs⟩⟩

/-- The numeral of a finite double. Of two shortest decimals equally near, the even one is taken. -/
def ofParts? : Decimal.Parts → Option Numeral
  | .finite negative m e =>
    if m = 0 then some ⟨negative, ['0'], some ['0'], none⟩
    else some (ofScaled negative (Decimal.double.shortest .even m e))
  | _ => none

end Numeral

namespace Tree

/-- A text. -/
def ofText (s : String) : Tree := .string (some s)

/-- A natural number. -/
def ofNat (n : Nat) : Tree := .numeral (.ofNat n)

/-- A float, given by its stored bits; null if it is not finite. -/
def ofFloatBits (bits : UInt64) : Tree :=
  match Numeral.ofParts? (Decimal.parts64 (Float.ofBits bits)) with
  | some n => .numeral n
  | none => .null

/-- A list of values. -/
def ofList (f : α → Tree) (as : List α) : Tree := .array (as.map f)

/-- A value or null. -/
def ofOption (f : α → Tree) : Option α → Tree
  | some a => f a
  | none => .null

/-- A record with the given fields. -/
def ofFields (fields : List (String × Tree)) : Tree :=
  .object (fields.map fun (key, t) => (some key, t))

mutual

/-- The text of a tree that lies `depth` levels deep. -/
def print (depth : Nat) : Tree → List Char
  | .null => ['n', 'u', 'l', 'l']
  | .bool true => ['t', 'r', 'u', 'e']
  | .bool false => ['f', 'a', 'l', 's', 'e']
  | .numeral n => n.text
  | .string s => quote (s.getD "")
  | .array [] => ['[', ']']
  | .array (t :: ts) =>
    '[' :: newLine (depth + 1) ++ print (depth + 1) t ++ printItems (depth + 1) ts
      ++ newLine depth ++ [']']
  | .object [] => ['\x7b', '\x7d']
  | .object ((key, t) :: es) =>
    '\x7b' :: newLine (depth + 1) ++ quote (key.getD "") ++ ':' :: ' ' :: print (depth + 1) t
      ++ printEntries (depth + 1) es ++ newLine depth ++ ['\x7d']

/-- The items behind the first, each with its comma and line. -/
def printItems (depth : Nat) : List Tree → List Char
  | [] => []
  | t :: ts => ',' :: newLine depth ++ print depth t ++ printItems depth ts

/-- The entries behind the first, each with its comma and line. -/
def printEntries (depth : Nat) : List (Option String × Tree) → List Char
  | [] => []
  | (key, t) :: es =>
    ',' :: newLine depth ++ quote (key.getD "") ++ ':' :: ' ' :: print depth t
      ++ printEntries depth es

end

/-- The tree as a text. -/
def text (t : Tree) : String := String.ofList (print 0 t)

end Tree

end ObjectVM.Json
