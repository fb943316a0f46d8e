import ObjectVM.Decimal.Digits
import ObjectVM.Value.Kind

/-!
# Misuse of values

Why an operation on values is refused. `operation` is the name under which the operation is known.

Specification: B.2.2.
-/
namespace ObjectVM

/-- What is wrong with an argument of the right kind. -/
inductive ArgumentFault where
  | unordered
  | negativeLength
  | notACharacter
  | negativeKey
  | emptyArray
  | startPastStop
  | strideNotPositive
  deriving DecidableEq, Repr

/-- The fault in words. -/
def ArgumentFault.message : ArgumentFault → String
  | .unordered => "operands are unordered"
  | .negativeLength => "length must be non-negative"
  | .notACharacter => "not a unicode scalar value"
  | .negativeKey => "map keys must be non-negative"
  | .emptyArray => "array is empty"
  | .startPastStop => "start is past stop"
  | .strideNotPositive => "stride must be positive"

/-- Why an operation on values fails. Mirrors `NativeTypeError`. -/
inductive ValueError where
  | operand (operation : String) (kind : Kind)
  | operands (operation : String) (lhs rhs : Kind)
  | argument (operation : String) (fault : ArgumentFault)
  | divisionByZero
  | indexOutOfRange (index : Int) (length : Nat)
  | keyNotFound (key : UInt64)
  | conversion (source target : Kind)
  deriving DecidableEq, Repr

/-- The error in words. -/
def ValueError.message : ValueError → String
  | .operand operation kind => "`" ++ operation ++ "` is not defined for " ++ kind.name
  | .operands operation lhs rhs =>
    "`" ++ operation ++ "` is not defined for " ++ lhs.name ++ " and " ++ rhs.name
  | .argument operation fault => "`" ++ operation ++ "`: " ++ fault.message
  | .divisionByZero => "division by zero"
  | .indexOutOfRange index length =>
    "index " ++ Decimal.intText index ++ " out of range for length " ++ Decimal.natText length
  | .keyNotFound key => "key " ++ Decimal.natText key.toNat ++ " not found"
  | .conversion source target => "cannot convert " ++ source.name ++ " to " ++ target.name

end ObjectVM
