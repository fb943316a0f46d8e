/-!
# Options of a process

How much a process may hold, how deep it may call, and when it collects by itself. Collection rules
are asked each time a frame returns.

Specification: B.2.3 and B.4.5.
-/
namespace ObjectVM

/-- When a process collects by itself: after every return, or when its heap or its pool is filled to
the threshold. Mirrors `GcFlag`. -/
inductive GcRule where
  | always
  | heapSize
  | poolSize
  deriving DecidableEq, Repr

namespace GcRule

/-- Every rule. -/
def all : List GcRule := [.always, .heapSize, .poolSize]

/-- How the rule is called. -/
def name : GcRule → String
  | .always => "always"
  | .heapSize => "heap-size"
  | .poolSize => "pool-size"

/-- The rule with the given name. -/
def ofName? (s : String) : Option GcRule := all.find? (·.name == s)

end GcRule

/-- A set of collection rules. Mirrors `GcFlags`. -/
structure GcRules where
  always : Bool
  heapSize : Bool
  poolSize : Bool
  deriving DecidableEq, Repr

namespace GcRules

/-- No rule. -/
def none : GcRules := ⟨false, false, false⟩

/-- Whether the set holds a rule. -/
def contains (s : GcRules) : GcRule → Bool
  | .always => s.always
  | .heapSize => s.heapSize
  | .poolSize => s.poolSize

/-- The set with a rule put in or taken out. Mirrors `with` and `without`. -/
def update (s : GcRules) (rule : GcRule) (on : Bool) : GcRules :=
  match rule with
  | .always => { s with always := on }
  | .heapSize => { s with heapSize := on }
  | .poolSize => { s with poolSize := on }

/-- The set of the given rules. Mirrors `from_iter`. -/
def ofList (rules : List GcRule) : GcRules := rules.foldl (·.update · true) none

/-- The set as bits: 1, 2 and 4 in the order of the rules. -/
def bits (s : GcRules) : Nat :=
  (if s.always then 1 else 0) + (if s.heapSize then 2 else 0) + (if s.poolSize then 4 else 0)

/-- Whether the set holds no rule. -/
def isEmpty (s : GcRules) : Bool := s = none

end GcRules

/-- Why a process cannot have its options. -/
inductive OptionFault where
  | zeroCapacity
  | capacityTooLarge
  | zeroDepth
  | thresholdOutOfRange
  deriving DecidableEq, Repr

/-- The fault in words. -/
def OptionFault.message : OptionFault → String
  | .zeroCapacity => "capacities must be > 0"
  | .capacityTooLarge => "capacities must fit in 32 bits"
  | .zeroDepth => "max_call_depth must be > 0"
  | .thresholdOutOfRange => "gc_threshold must be between 0.0 and 1.0"

/-- The limits of a process. `threshold` is the part of a capacity at which a size rule applies. -/
structure ProcessOptions where
  heapCapacity : Nat
  poolCapacity : Nat
  maxCallDepth : Nat
  rules : GcRules
  threshold : Float

namespace ProcessOptions

/-- A million objects and handles, 1024 frames, and no collection by itself. -/
def standard : ProcessOptions := ⟨1048576, 1048576, 1024, .none, 0.75⟩

instance : Inhabited ProcessOptions := ⟨standard⟩

/-- Whether a process can have these options. Mirrors `validate`. -/
def check (o : ProcessOptions) : Except OptionFault Unit :=
  if o.heapCapacity = 0 ∨ o.poolCapacity = 0 then .error .zeroCapacity
  else if UInt32.size ≤ o.heapCapacity ∨ UInt32.size ≤ o.poolCapacity then .error .capacityTooLarge
  else if o.maxCallDepth = 0 then .error .zeroDepth
  else if 0.0 ≤ o.threshold ∧ o.threshold ≤ 1.0 then .ok ()
  else .error .thresholdOutOfRange

/-- Whether a store of `capacity` places that holds `size` is filled to the threshold. -/
def isFilled (o : ProcessOptions) (size capacity : Nat) : Bool :=
  o.threshold * Float.ofNat capacity ≤ Float.ofNat size

end ProcessOptions

end ObjectVM
