import ObjectVM.Decimal.Notation
import ObjectVM.Identity
import ObjectVM.KeyMap
import ObjectVM.Text.Hash
import ObjectVM.Value.Error

/-!
# Values

The values that an evaluation stack and a pooled handle hold. Integers carry their kind and lie in
its range; arrays and maps hold the ids of objects, never values.

Specification: B.3.2.
-/
namespace ObjectVM

/-- An integer of a fixed width. -/
structure FixedInt where
  kind : IntKind
  val : Int
  inRange : kind.lowest ≤ val ∧ val < kind.limit
  deriving DecidableEq

namespace FixedInt

/-- `n` reduced modulo `2 ^ width` into the range of the kind. -/
def ofInt (k : IntKind) (n : Int) : FixedInt := ⟨k, k.wrap n, k.wrap_range n⟩

@[simp] theorem kind_ofInt (k : IntKind) (n : Int) : (ofInt k n).kind = k := rfl

@[simp] theorem val_ofInt (k : IntKind) (n : Int) : (ofInt k n).val = k.wrap n := rfl

end FixedInt

/-- A value. Mirrors `NativeValue`. -/
inductive Value where
  | bool (b : Bool)
  | int (n : FixedInt)
  | dec1 (x : Float32)
  | dec2 (x : Float)
  | text (s : String)
  | array (items : List ObjectId)
  | map (entries : KeyMap ObjectId)
  deriving DecidableEq

/-- A number in the width in which it is computed with. Mirrors `Num`. -/
inductive Number where
  | int (n : Int)
  | real (x : Float)

/-- The bound at which a real number stops when it becomes whole. -/
def wholeLimit : Nat := Nat.pow 2 127

namespace Number

/-- The number as a double. Mirrors `to_f64`. -/
def toFloat : Number → Float
  | .int n => Float.ofInt n
  | .real x => x

/-- The number without its fraction. Mirrors `to_i128`. -/
def toInt : Number → Int
  | .int n => n
  | .real x => Decimal.truncate wholeLimit x

/-- Whether the number differs from zero. -/
def isNonzero : Number → Bool
  | .int n => n != 0
  | .real x => x != 0.0

end Number

namespace Value

/-- An integer value of kind `k`: `n` reduced into its range. -/
def ofInt (k : IntKind) (n : Int) : Value := .int (FixedInt.ofInt k n)

instance : Inhabited Value := ⟨ofInt .int64 0⟩

/-- The value that tells an order: -1, 0 or 1. -/
def ofOrdering : Ordering → Value
  | .lt => ofInt .int32 (-1)
  | .eq => ofInt .int32 0
  | .gt => ofInt .int32 1

/-- The kind of a value. -/
def kind : Value → Kind
  | .bool _ => .numeric .bool
  | .int n => .numeric (.int n.kind)
  | .dec1 _ => .numeric .dec1
  | .dec2 _ => .numeric .dec2
  | .text _ => .text
  | .array _ => .array
  | .map _ => .map

/-- The kind and the number of a numeric value. A truth value counts as 0 or 1. Mirrors `num`. -/
def number? : Value → Option (NumericKind × Number)
  | .bool b => some (.bool, .int (if b then 1 else 0))
  | .int n => some (.int n.kind, .int n.val)
  | .dec1 x => some (.dec1, .real x.toFloat)
  | .dec2 x => some (.dec2, .real x)
  | _ => none

/-- The number of an integral value: an integer, or a truth value as 0 or 1. Part of `as_index`. -/
def integer? : Value → Option Int
  | .bool b => some (if b then 1 else 0)
  | .int n => some n.val
  | _ => none

/-- The value of a numeric kind that stands for `n`: cut to the width of an integer kind, rounded
to the width of a decimal one. Mirrors `from_num`. -/
def ofNumber (k : NumericKind) (n : Number) : Value :=
  match k with
  | .bool => .bool n.isNonzero
  | .int k => ofInt k n.toInt
  | .dec1 => .dec1 n.toFloat.toFloat32
  | .dec2 => .dec2 n.toFloat

/-- Numbers other than zero, and texts and containers that hold anything, count as true. -/
def isTruthy : Value → Bool
  | .bool b => b
  | .int n => n.val != 0
  | .dec1 x => x != 0.0
  | .dec2 x => x != 0.0
  | .text s => !s.isEmpty
  | .array items => !items.isEmpty
  | .map entries => !entries.isEmpty

/-- A value as text. Mirrors `repr`. -/
def render : Value → String
  | .bool b => if b then "true" else "false"
  | .int n => Decimal.intText n.val
  | .dec1 x => Decimal.plain32 x
  | .dec2 x => Decimal.plain64 x
  | .text s => s
  | .array items => "[" ++ String.intercalate ", " (items.map ObjectId.text) ++ "]"
  | .map entries =>
    "\x7b" ++ String.intercalate ", "
      (entries.entries.map fun e => Decimal.natText e.1.toNat ++ ": " ++ e.2.text) ++ "\x7d"

/-- Hash of the kind's name and the text, with a colon between them. Mirrors `hash_value`. -/
def hash (v : Value) : UInt64 := Text.hash (v.kind.name ++ ":" ++ v.render)

/-- The object ids that a container holds. -/
def objectIds : Value → List ObjectId
  | .array items => items
  | .map entries => entries.values
  | _ => []

/-- The integer of an integral operand. -/
def asIndex (operation : String) (v : Value) : Except ValueError Int :=
  match v.integer? with
  | some n => .ok n
  | none => .error (.operand operation v.kind)

/-- The key that an integral operand stands for. -/
def asKey (operation : String) (v : Value) : Except ValueError UInt64 := do
  let n ← v.asIndex operation
  if 0 ≤ n ∧ n < UInt64.size then .ok (UInt64.ofNat n.toNat)
  else .error (.argument operation .negativeKey)

/-- The text of a text operand. Mirrors `as_str`. -/
def asText (operation : String) : Value → Except ValueError String
  | .text s => .ok s
  | v => .error (.operand operation v.kind)

/-- The items of an array operand. -/
def asArray (operation : String) : Value → Except ValueError (List ObjectId)
  | .array items => .ok items
  | v => .error (.operand operation v.kind)

/-- The entries of a map operand. -/
def asMap (operation : String) : Value → Except ValueError (KeyMap ObjectId)
  | .map entries => .ok entries
  | v => .error (.operand operation v.kind)

end Value

end ObjectVM
