import ObjectVM.Machine.Options
import ObjectVM.Machine.Signal
import ObjectVM.Store.Heap
import ObjectVM.Store.Pool

/-!
# Faults of a process

What stops a run short. An exception that a program raises is none of these: it looks for a handler
among the program's own frames.

Specification: 7 and B.2.2.
-/
namespace ObjectVM

/-- What an instruction or the run around it may not do. -/
inductive Misstep where
  | swapValues
  | swapObjects
  | immutableObject
  | noException
  deriving DecidableEq, Repr

/-- The misstep in words. -/
def Misstep.message : Misstep → String
  | .swapValues => "swap needs two values"
  | .swapObjects => "swap needs two objects"
  | .immutableObject => "object is immutable"
  | .noException => "no active exception"

/-- Why an instruction, or a request to the process, fails. Mirrors `VmError`. -/
inductive Fault where
  | nameNotFound (name : String)
  | closureNotFound (id : UInt64)
  | compartmentNotFound (id : UInt64)
  | noHandle (id : ObjectId)
  | stringNotFound (key : UInt64)
  | floatNotFound (key : UInt64)
  | frameNotFound
  | invocationNotFound
  | missingParameter (key : Option UInt64)
  | attributeNotFound (name : String)
  | invalidAddress (address : Int)
  | valueStackEmpty
  | objectStackEmpty
  | misstep (m : Misstep)
  | indelible (id : ObjectId)
  | uncallable (id : ObjectId)
  | callStackOverflow (limit : Nat)
  | options (fault : OptionFault)
  | value (e : ValueError)
  | heap (e : HeapError)
  | pool (e : PoolError)
  | fatalSignal (s : Signal)
  | output (reason : String)
  deriving DecidableEq, Repr

namespace Fault

/-- How a key without a name is written. -/
def anonymous (key : UInt64) : String := "#" ++ Decimal.natText key.toNat

/-- The fault in words. -/
def message : Fault → String
  | .nameNotFound name => "name `" ++ name ++ "` not found"
  | .closureNotFound id => "closure " ++ Decimal.natText id.toNat ++ " not found"
  | .compartmentNotFound id => "compartment " ++ Decimal.natText id.toNat ++ " not found"
  | .noHandle id => "native type handle not found for " ++ id.text
  | .stringNotFound key => "string literal " ++ Decimal.natText key.toNat ++ " not found"
  | .floatNotFound key => "floating-point literal " ++ Decimal.natText key.toNat ++ " not found"
  | .frameNotFound => "frame not found"
  | .invocationNotFound => "invocation context not found"
  | .missingParameter none => "missing parameter"
  | .missingParameter (some key) => "missing parameter `" ++ Decimal.natText key.toNat ++ "`"
  | .attributeNotFound name => "attribute `" ++ name ++ "` not found"
  | .invalidAddress address => "invalid instruction address " ++ Decimal.intText address
  | .valueStackEmpty => "evaluation stack is empty"
  | .objectStackEmpty => "object stack is empty"
  | .misstep m => "invalid operation: " ++ m.message
  | .indelible id => "object " ++ id.text ++ " cannot be deleted"
  | .uncallable id => "object " ++ id.text ++ " is not callable"
  | .callStackOverflow limit =>
    "call stack overflow: depth limit " ++ Decimal.natText limit ++ " reached"
  | .options fault => "invalid process options: " ++ fault.message
  | .value e => e.message
  | .heap e => e.message
  | .pool e => e.message
  | .fatalSignal s => "fatal signal " ++ s.name
  | .output reason => "process output: " ++ reason

end Fault

end ObjectVM
