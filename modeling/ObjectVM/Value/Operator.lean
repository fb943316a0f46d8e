import ObjectVM.Decimal.Reading
import ObjectVM.Text.Blank
import ObjectVM.Text.Order
import ObjectVM.Value.Basic
import ObjectVM.Value.Integer

/-!
# Operators

The operators that work on numbers of every kind: arithmetic, bit operations, comparison, logic,
and conversion between kinds. A binary operator takes its operands in the order in which they were
pushed. Integers are combined at 128 bits and then reduced into the promoted kind; as soon as one
side is a decimal both are taken as doubles.

Specification: B.3.2 and B.6.
-/
namespace ObjectVM

/-- The operators with two operands. -/
inductive BinaryOp where
  | add | sub | mul | div | mod | pow
  | band | bor | bxor | bls | brs
  | eq | neq | gt | lt | gte | lte
  | land | lor | cmp
  deriving DecidableEq, Repr

/-- How the operator is called in error messages. -/
def BinaryOp.name : BinaryOp → String
  | .add => "add" | .sub => "sub" | .mul => "mul" | .div => "div" | .mod => "mod" | .pow => "pow"
  | .band => "band" | .bor => "bor" | .bxor => "bxor" | .bls => "bls" | .brs => "brs"
  | .eq => "eq" | .neq => "neq" | .gt => "gt" | .lt => "lt" | .gte => "gte" | .lte => "lte"
  | .land => "land" | .lor => "lor" | .cmp => "cmp"

/-- The operators with one operand. -/
inductive UnaryOp where
  | pos | neg | inc | dec | abs | sqrt | bnot | lnot | truthy | repr | hash
  deriving DecidableEq, Repr

/-- How the operator is called in error messages. -/
def UnaryOp.name : UnaryOp → String
  | .pos => "pos" | .neg => "neg" | .inc => "inc" | .dec => "dec" | .abs => "abs"
  | .sqrt => "sqrt" | .bnot => "bnot" | .lnot => "lnot" | .truthy => "truthy"
  | .repr => "repr" | .hash => "hash"

namespace Value

/-! ## Two operands -/

/-- Combines two numbers in their promoted kind. Mirrors `arith`. -/
def arithmetic (op : BinaryOp) (onInt : Int → Int → Except ValueError Int)
    (onReal : Float → Float → Float) (l r : Value) : Except ValueError Value :=
  match l.number?, r.number? with
  | some (j, m), some (k, n) =>
    let kind := j.promote k
    if kind.isDecimal then .ok (ofNumber kind (.real (onReal m.toFloat n.toFloat)))
    else (onInt m.toInt n.toInt).map fun x => ofNumber kind (.int x)
  | _, _ => .error (.operands op.name l.kind r.kind)

/-- Combines two integral values in their promoted kind. Mirrors `bitwise`. -/
def integral (op : BinaryOp) (f : Int → Int → Int) (l r : Value) : Except ValueError Value :=
  if l.kind.isIntegral && r.kind.isIntegral then
    arithmetic op (fun m n => .ok (f m n)) (fun x _ => x) l r
  else .error (.operands op.name l.kind r.kind)

/-- Division is refused when the divisor is zero, and when the quotient does not fit in 128 bits.
Part of `div` and `rem`. -/
def divided (f : Int → Int → Int) (m n : Int) : Except ValueError Int :=
  if n = 0 ∨ (m = -wholeLimit ∧ n = -1) then .error .divisionByZero else .ok (f m n)

/-- Sum of numbers; texts and arrays are joined. -/
def add (l r : Value) : Except ValueError Value :=
  match l, r with
  | .text s, .text t => .ok (.text (s ++ t))
  | .array a, .array b => .ok (.array (a ++ b))
  | _, _ => arithmetic .add (fun m n => .ok (Integer.cut (m + n))) (· + ·) l r

/-- How two doubles are ordered; a NaN is ordered with nothing. -/
def orderReals (x y : Float) : Option Ordering :=
  if x < y then some .lt else if x == y then some .eq else if y < x then some .gt else none

/-- How two values are ordered: texts by their bytes, numbers by size. Mirrors `ordering`. -/
def order (op : BinaryOp) (l r : Value) : Except ValueError (Option Ordering) :=
  match l, r with
  | .text s, .text t => .ok (some (Text.order s t))
  | _, _ =>
    match l.number?, r.number? with
    | some (j, m), some (k, n) =>
      if (j.promote k).isDecimal then .ok (orderReals m.toFloat n.toFloat)
      else .ok (some (compare m.toInt n.toInt))
    | _, _ => .error (.operands op.name l.kind r.kind)

/-- Whether two values are equal: numbers by size, anything else by kind and content. -/
def equals (l r : Value) : Bool :=
  match l.number?, r.number? with
  | some _, some _ =>
    match order .eq l r with
    | .ok (some .eq) => true
    | _ => false
  | _, _ => l = r

/-- Whether two values are ordered in one of the ways that `test` accepts. -/
def ordered (op : BinaryOp) (test : Ordering → Bool) (l r : Value) : Except ValueError Value :=
  (order op l r).map fun o => .bool (o.any test)

/-- Three-way comparison: -1, 0 or 1. Mirrors `cmp`. -/
def threeWay (l r : Value) : Except ValueError Value := do
  match ← order .cmp l r with
  | some o => .ok (ofOrdering o)
  | none => .error (.argument BinaryOp.cmp.name .unordered)

/-- The result of a binary operator. -/
def binary (op : BinaryOp) (l r : Value) : Except ValueError Value :=
  match op with
  | .add => add l r
  | .sub => arithmetic op (fun m n => .ok (Integer.cut (m - n))) (· - ·) l r
  | .mul => arithmetic op (fun m n => .ok (Integer.cut (m * n))) (· * ·) l r
  | .div => arithmetic op (divided Int.tdiv) (· / ·) l r
  | .mod => arithmetic op (divided Int.tmod) Decimal.remainder l r
  | .pow => arithmetic op (fun m n => .ok (Integer.power m n)) Float.pow l r
  | .band => integral op (Integer.bitwise (· &&& ·)) l r
  | .bor => integral op (Integer.bitwise (· ||| ·)) l r
  | .bxor => integral op (Integer.bitwise (· ^^^ ·)) l r
  | .bls => integral op Integer.shiftLeft l r
  | .brs => integral op Integer.shiftRight l r
  | .eq => .ok (.bool (equals l r))
  | .neq => .ok (.bool (!equals l r))
  | .gt => ordered op Ordering.isGT l r
  | .lt => ordered op Ordering.isLT l r
  | .gte => ordered op Ordering.isGE l r
  | .lte => ordered op Ordering.isLE l r
  | .land => .ok (.bool (l.isTruthy && r.isTruthy))
  | .lor => .ok (.bool (l.isTruthy || r.isTruthy))
  | .cmp => threeWay l r

/-! ## One operand -/

/-- Applies an operation to a number and keeps its kind. Mirrors `map_numeric`. -/
def mapNumber (op : UnaryOp) (onInt : Int → Int) (onReal : Float → Float) (v : Value) :
    Except ValueError Value :=
  match v.number? with
  | some (k, .int n) => .ok (ofNumber k (.int (onInt n)))
  | some (k, .real x) => .ok (ofNumber k (.real (onReal x)))
  | none => .error (.operand op.name v.kind)

/-- Square root: a decimal keeps its width, anything else gives a double. -/
def sqrt (v : Value) : Except ValueError Value :=
  match v with
  | .dec1 x => .ok (.dec1 x.sqrt)
  | _ =>
    match v.number? with
    | some (_, n) => .ok (.dec2 n.toFloat.sqrt)
    | none => .error (.operand UnaryOp.sqrt.name v.kind)

/-- Complement of the bits of an integer, or of a truth value. Mirrors `bit_not`. -/
def complement (v : Value) : Except ValueError Value :=
  match v with
  | .bool b => .ok (.bool !b)
  | .int n => .ok (ofInt n.kind (Integer.complement n.val))
  | _ => .error (.operand UnaryOp.bnot.name v.kind)

/-- The result of a unary operator. -/
def unary (op : UnaryOp) (v : Value) : Except ValueError Value :=
  match op with
  | .pos => if v.kind.isNumeric then .ok v else .error (.operand op.name v.kind)
  | .neg => mapNumber op (fun n => Integer.cut (-n)) (- ·) v
  | .inc => mapNumber op (fun n => Integer.cut (n + 1)) (· + 1.0) v
  | .dec => mapNumber op (fun n => Integer.cut (n - 1)) (· - 1.0) v
  | .abs => mapNumber op (fun n => Integer.cut n.natAbs) Float.abs v
  | .sqrt => sqrt v
  | .bnot => complement v
  | .lnot => .ok (.bool !v.isTruthy)
  | .truthy => .ok (.bool v.isTruthy)
  | .repr => .ok (.text v.render)
  | .hash => .ok (ofInt .uint64 v.hash.toNat)

/-! ## Conversion -/

/-- The number that a text stands for, white space around it aside: a whole number if it fits in
128 bits, else a double. Mirrors `parse_num`. -/
def readNumber (s : String) : Option Number :=
  let cs := Text.trim s.toList
  match Decimal.readInt (-wholeLimit) (wholeLimit - 1) cs with
  | some n => some (.int n)
  | none => (Decimal.readDouble cs).map .real

/-- The value as one of kind `target`. -/
def convert (target : Kind) (v : Value) : Except ValueError Value :=
  match target with
  | .text => .ok (.text v.render)
  | .numeric .bool => .ok (.bool v.isTruthy)
  | .numeric k =>
    match v with
    | .text s =>
      match readNumber s with
      | some n => .ok (ofNumber k n)
      | none => .error (.conversion v.kind target)
    | _ =>
      match v.number? with
      | some (_, n) => .ok (ofNumber k n)
      | none => .error (.conversion v.kind target)
  | .array | .map => if v.kind = target then .ok v else .error (.conversion v.kind target)

end Value

end ObjectVM
