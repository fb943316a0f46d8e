import ObjectVM.Code.Instruction
import ObjectVM.KeyMap

/-!
# Closures

A named unit of code. Source positions are kept for some of its instructions and hold until the next
one; catch sites say where an exception resumes, and the first that covers an instruction counts.
-/
namespace ObjectVM

/-- An exception raised at any of the instructions `first` to `last` resumes at `target`. -/
structure CatchSite where
  first : Nat
  last : Nat
  target : Nat
  deriving DecidableEq, Repr

/-- Whether the site catches what is raised at `index`. -/
def CatchSite.covers (s : CatchSite) (index : Nat) : Bool := s.first ≤ index && index ≤ s.last

/-- A position in a source text. -/
structure Position where
  line : UInt32
  column : UInt32
  deriving DecidableEq, Repr

/-- A unit of code; `parent` is the closure around it. -/
structure Closure where
  name : String
  id : UInt64
  parent : Option UInt64
  code : Code
  positions : KeyMap Position
  catchSites : List CatchSite
  deriving DecidableEq

namespace Closure

/-- A closure without positions and catch sites. -/
def new (name : String) (id : UInt64) (parent : Option UInt64) (code : Code) : Closure :=
  ⟨name, id, parent, code, ∅, []⟩

/-- The closure with the position of one more instruction. -/
def withPosition (c : Closure) (index : UInt64) (p : Position) : Closure :=
  { c with positions := c.positions.insert index p }

/-- The closure with a catch site behind those it has. -/
def withCatchSite (c : Closure) (s : CatchSite) : Closure :=
  { c with catchSites := c.catchSites ++ [s] }

/-- The position of the last instruction up to `index` that has one. -/
def positionAt (c : Closure) (index : Nat) : Option Position :=
  c.positions.floor? (UInt64.ofNat index)

/-- The first catch site that covers `index`. -/
def catchSiteAt (c : Closure) (index : Nat) : Option CatchSite :=
  c.catchSites.find? (·.covers index)

end Closure

end ObjectVM
