/-!
# Kinds of values

Every value has a kind. The numeric kinds stand in promotion order: an operator on two numbers
works in the later of their kinds, and on two booleans in `int8`.

Specification: B.3.2.
-/
namespace ObjectVM

/-- The fixed-width integer kinds, in promotion order. -/
inductive IntKind where
  | int8 | uint8 | int16 | uint16 | int32 | uint32 | int64 | uint64
  deriving DecidableEq, Repr

namespace IntKind

/-- Number of bits. -/
def width : IntKind → Nat
  | .int8 | .uint8 => 8
  | .int16 | .uint16 => 16
  | .int32 | .uint32 => 32
  | .int64 | .uint64 => 64

/-- Whether the numbers of this kind have a sign. -/
def signed : IntKind → Bool
  | .int8 | .int16 | .int32 | .int64 => true
  | .uint8 | .uint16 | .uint32 | .uint64 => false

/-- The least number of this kind. -/
def lowest (k : IntKind) : Int := if k.signed then -(Nat.pow 2 (k.width - 1) : Nat) else 0

/-- The number after the greatest one of this kind. -/
def limit (k : IntKind) : Int := Nat.pow 2 (if k.signed then k.width - 1 else k.width)

/-- The number of this kind that is congruent to `n` modulo `2 ^ width`. -/
def wrap (k : IntKind) (n : Int) : Int :=
  if k.signed then n.bmod (Nat.pow 2 k.width) else n % (Nat.pow 2 k.width : Nat)

theorem wrap_range (k : IntKind) (n : Int) : k.lowest ≤ k.wrap n ∧ k.wrap n < k.limit := by
  have low := Int.le_bmod (x := n) (m := Nat.pow 2 k.width) (Nat.two_pow_pos _)
  have high := Int.bmod_lt (x := n) (m := Nat.pow 2 k.width) (Nat.two_pow_pos _)
  cases k <;> simp_all [wrap, lowest, limit, signed, width] <;> omega

/-- Promotion rank. -/
def rank : IntKind → Nat
  | .int8 => 1 | .uint8 => 2 | .int16 => 3 | .uint16 => 4
  | .int32 => 5 | .uint32 => 6 | .int64 => 7 | .uint64 => 8

/-- How the kind is called. -/
def name : IntKind → String
  | .int8 => "int8" | .uint8 => "uint8" | .int16 => "int16" | .uint16 => "uint16"
  | .int32 => "int32" | .uint32 => "uint32" | .int64 => "int64" | .uint64 => "uint64"

end IntKind

/-- The kinds of numbers: booleans, integers, and decimals of single and double width. -/
inductive NumericKind where
  | bool
  | int (k : IntKind)
  | dec1
  | dec2
  deriving DecidableEq, Repr

namespace NumericKind

/-- Promotion rank. -/
def rank : NumericKind → Nat
  | .bool => 0
  | .int k => k.rank
  | .dec1 => 9
  | .dec2 => 10

/-- Whether numbers of this kind have a fraction. -/
def isDecimal : NumericKind → Bool
  | .dec1 | .dec2 => true
  | _ => false

/-- How the kind is called. -/
def name : NumericKind → String
  | .bool => "bool"
  | .int k => k.name
  | .dec1 => "dec1"
  | .dec2 => "dec2"

/-- The kind in which an operator works on numbers of two kinds. Mirrors `result_kind`. -/
def promote (a b : NumericKind) : NumericKind :=
  match if a.rank < b.rank then b else a with
  | .bool => .int .int8
  | k => k

end NumericKind

/-- What a value is: a number, a text, or a container of object ids. -/
inductive Kind where
  | numeric (k : NumericKind)
  | text
  | array
  | map
  deriving DecidableEq, Repr

namespace Kind

/-- Promotion rank. -/
def rank : Kind → Nat
  | .numeric k => k.rank
  | .text => 11
  | .array => 12
  | .map => 13

/-- How the kind is called. -/
def name : Kind → String
  | .numeric k => k.name
  | .text => "string"
  | .array => "array"
  | .map => "map"

/-- Whether values of this kind are numbers. -/
def isNumeric : Kind → Bool
  | .numeric _ => true
  | _ => false

/-- Whether values of this kind are numbers with a fraction. -/
def isDecimal : Kind → Bool
  | .numeric k => k.isDecimal
  | _ => false

/-- Whether values of this kind are whole numbers, truth values included. -/
def isIntegral : Kind → Bool
  | .numeric k => !k.isDecimal
  | _ => false

/-- The later of two kinds; two booleans give `int8`. Mirrors `result_kind`. -/
def promote : Kind → Kind → Kind
  | .numeric a, .numeric b => .numeric (a.promote b)
  | a, b => if a.rank < b.rank then b else a

/-- Every kind, in promotion order. -/
def all : List Kind :=
  [.numeric .bool, .numeric (.int .int8), .numeric (.int .uint8), .numeric (.int .int16),
    .numeric (.int .uint16), .numeric (.int .int32), .numeric (.int .uint32),
    .numeric (.int .int64), .numeric (.int .uint64), .numeric .dec1, .numeric .dec2, .text,
    .array, .map]

/-- The kind with the given name. -/
def ofName? (s : String) : Option Kind := all.find? (·.name == s)

end Kind

end ObjectVM
