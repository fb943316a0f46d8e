import ObjectVM.Binary.Codec
import ObjectVM.Container.Basic
import ObjectVM.Files.Path
import ObjectVM.Program.Compartment

/-!
# Loading

From a stored container to a compartment that can run: the format has to be known, the numbers of
closures distinct, every code an opcode, and every catch site has to resume inside its closure. The
first violation is reported: the format before the closures, closures in order, and in each of them
its number before its codes and its codes before its catch sites.
-/
namespace ObjectVM

/-- Why a program is not loaded. -/
inductive LoadError where
  | inaccessible (path : String) (fault : FileFault)
  | invalidJson
  | invalidBinary (fault : BinaryFault)
  | unsupportedFormat (format version : String)
  | unknownOpcode (closure : String) (index : Nat) (code : UInt16)
  | duplicateClosure (id : UInt64)
  | invalidCatchSite (closure : String) (target : UInt64)
  deriving DecidableEq, Repr

/-- The error in words. -/
def LoadError.message : LoadError → String
  | .inaccessible path fault => "cannot access " ++ path ++ ": " ++ fault.message
  | .invalidJson => "invalid JSON container"
  | .invalidBinary fault => "invalid binary container: " ++ fault.message
  | .unsupportedFormat format version =>
    "unsupported container format `" ++ format ++ "` version `" ++ version ++ "`"
  | .unknownOpcode closure index code =>
    "closure `" ++ closure ++ "`: " ++ Op.unknownMessage code ++ " at instruction "
      ++ Decimal.natText index
  | .duplicateClosure id => "closure id " ++ Decimal.natText id.toNat ++ " is defined twice"
  | .invalidCatchSite closure target =>
    "closure `" ++ closure ++ "`: catch site destination " ++ Decimal.natText target.toNat
      ++ " is outside its code"

/-- The instruction that a record stores, if its code is known. -/
def InstructionRecord.instruction? (r : InstructionRecord) : Option Instruction :=
  (Op.ofCode? r.code).map fun op => ⟨op, r.first, r.second⟩

namespace ClosureRecord

/-- The instructions of a closure, behind those in `done`, of which the last comes first. -/
def decode (closure : String) (done : List Instruction) :
    List InstructionRecord → Except LoadError (List Instruction)
  | [] => .ok done.reverse
  | r :: rs =>
    match r.instruction? with
    | some i => decode closure (i :: done) rs
    | none => .error (.unknownOpcode closure done.length r.code)

/-- The first catch site that resumes outside a code of length `n`. -/
def strayCatch? (n : Nat) (sites : List CatchRecord) : Option CatchRecord :=
  sites.find? fun s => n ≤ s.target.toNat

/-- The closure that a record stores. -/
def closure (r : ClosureRecord) : Except LoadError Closure := do
  let code ← decode r.name [] r.instructions
  match strayCatch? code.length r.catchSites with
  | some s => .error (.invalidCatchSite r.name s.target)
  | none =>
    .ok
      { name := r.name
        id := r.id
        parent := r.parent
        code := code.toArray
        positions := .ofList (r.positions.map fun p => (p.index, ⟨p.line, p.column⟩))
        catchSites := r.catchSites.map fun s => ⟨s.first.toNat, s.last.toNat, s.target.toNat⟩ }

/-- The closures that records store. `seen` holds the numbers of those in `done`, of which the last
comes first. -/
def closures (seen : KeyMap Unit) (done : List Closure) :
    List ClosureRecord → Except LoadError (List Closure)
  | [] => .ok done.reverse
  | r :: rs =>
    if seen.contains r.id then .error (.duplicateClosure r.id)
    else
      match r.closure with
      | .ok c => closures (seen.insert r.id ()) (c :: done) rs
      | .error e => .error e

end ClosureRecord

/-- Whether the container's format can be loaded. What is left empty can. -/
def Container.isKnown (c : Container) : Bool :=
  (c.format = "" || c.format = knownFormat)
    && (c.formatVersion = "" || c.formatVersion = knownVersion)

namespace Compartment

/-- The compartment that a container stores. -/
def ofContainer (c : Container) : Except LoadError Compartment := do
  if !c.isKnown then .error (.unsupportedFormat c.format c.formatVersion)
  else
    let closures ← ClosureRecord.closures ∅ [] c.closures
    .ok (((new c.path).withLiterals c.strings.toArray c.floats.toArray).withClosures
      closures.toArray)

end Compartment

end ObjectVM
