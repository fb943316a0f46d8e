import ObjectVM.Machine.Fault
import ObjectVM.Program.Closure

/-!
# Compartments

One loaded file: its path, its tables of literals, and its closures. A closure is found by its
number. Most closures stand at the position that their number says; the others are kept in a side
table. Floats are kept as stored bits.
-/
namespace ObjectVM

/-- A loaded file. `strays` gives the position of closures that do not stand where their number
says. -/
structure Compartment where
  path : String
  strings : Array String
  floats : Array UInt64
  closures : Array Closure
  strays : KeyMap Nat
  deriving DecidableEq

namespace Compartment

/-- The name of the closure in which a program starts, if it has one of that name. -/
def mainName : String := "__main__"

/-- A compartment without literals and closures. -/
def new (path : String) : Compartment := ⟨path, #[], #[], #[], ∅⟩

/-- The closures whose number is not their position, each with its position. -/
def straysOf (closures : Array Closure) : List (UInt64 × Nat) :=
  closures.toList.zipIdx.filterMap fun (c, i) => if c.id.toNat = i then none else some (c.id, i)

/-- The compartment with these closures in place of its own. -/
def withClosures (c : Compartment) (closures : Array Closure) : Compartment :=
  { c with closures, strays := KeyMap.ofList (straysOf closures) }

/-- The compartment with these literals in place of its own. -/
def withLiterals (c : Compartment) (strings : Array String) (floats : Array UInt64) :
    Compartment :=
  { c with strings, floats }

/-- The closure that stands where the number says. -/
def inPlace? (c : Compartment) (id : UInt64) : Option Closure :=
  c.closures[id.toNat]?.filter (·.id == id)

/-- The closure with the given number. -/
def closure? (c : Compartment) (id : UInt64) : Option Closure :=
  (c.inPlace? id).or ((c.strays.get? id).bind (c.closures[·]?))

/-- The closure with the given number, or the fault that there is none. -/
def closure (c : Compartment) (id : UInt64) : Except Fault Closure :=
  match c.closure? id with
  | some closure => .ok closure
  | none => .error (.closureNotFound id)

/-- The closure in which the program starts: the one with the main name, else the first without a
parent. -/
def entryPoint? (c : Compartment) : Option Closure :=
  (c.closures.find? (·.name == mainName)).or (c.closures.find? (·.parent.isNone))

/-- A text literal. -/
def string (c : Compartment) (key : UInt64) : Except Fault String :=
  match c.strings[key.toNat]? with
  | some s => .ok s
  | none => .error (.stringNotFound key)

/-- The stored bits of a float literal. -/
def floatBits (c : Compartment) (key : UInt64) : Except Fault UInt64 :=
  match c.floats[key.toNat]? with
  | some bits => .ok bits
  | none => .error (.floatNotFound key)

end Compartment

end ObjectVM
