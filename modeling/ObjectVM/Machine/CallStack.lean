import ObjectVM.Machine.Frame

/-!
# The call stack

Frames in call order, up to a depth. A frame's index is the number of frames below it, so it stays
the same as long as the frame lives. Frames of inner closures know the index of a frame of the
closure around them, and variables are looked up along these links.

Specification: 4.2 and B.4.3.
-/
namespace ObjectVM

/-- Frames, outermost first. -/
structure CallStack where
  frames : Array Frame
  maxDepth : Nat
  deriving DecidableEq

namespace CallStack

/-- A stack without frames. -/
def empty (maxDepth : Nat) : CallStack := ⟨#[], maxDepth⟩

/-- Number of frames. -/
def depth (s : CallStack) : Nat := s.frames.size

/-- The stack without its frames. -/
def clear (s : CallStack) : CallStack := { s with frames := #[] }

/-- Whether there is no room for another frame. -/
def isFull (s : CallStack) : Bool := s.maxDepth ≤ s.depth

/-- Adds a frame on top. -/
def add (s : CallStack) (f : Frame) : CallStack := { s with frames := s.frames.push f }

/-- Adds a frame on top if there is room. -/
def push (s : CallStack) (f : Frame) : Except Fault CallStack :=
  if s.isFull then .error (.callStackOverflow s.maxDepth) else .ok (s.add f)

/-- The frame on top. -/
def top? (s : CallStack) : Option Frame := s.frames.back?

/-- The stack without the frame on top. -/
def dropTop (s : CallStack) : CallStack := { s with frames := s.frames.pop }

/-- The frame at an index. -/
def get? (s : CallStack) (index : Nat) : Option Frame := s.frames[index]?

/-- Changes the frame at an index. -/
def modify (s : CallStack) (index : Nat) (f : Frame → Frame) : CallStack :=
  { s with frames := s.frames.modify index f }

/-- Changes the frame on top. -/
def modifyTop (s : CallStack) (f : Frame → Frame) : CallStack := s.modify (s.depth - 1) f

/-- Index of the topmost frame of a closure among the first `n` frames. -/
def lastFrameOf (s : CallStack) (closure : ClosureRef) : Nat → Option Nat
  | 0 => none
  | n + 1 =>
    if s.frames[n]?.any (·.closure == closure) then some n else lastFrameOf s closure n

/-- Index of the topmost frame of a closure. Mirrors `find_parent`. -/
def frameOf? (s : CallStack) (closure : ClosureRef) : Option Nat := s.lastFrameOf closure s.depth

/-- Where `n` links lead from an index. Part of `ancestor`. -/
def follow (s : CallStack) (index : Nat) : Nat → Except Fault Nat
  | 0 => .ok index
  | n + 1 =>
    match (s.get? index).bind (·.parent) with
    | some parent => follow s parent n
    | none => .error .frameNotFound

/-- Index of the frame `n` links out from the frame at `index`, which is itself for `n = 0`. -/
def ancestor (s : CallStack) (index n : Nat) : Except Fault Nat :=
  if (s.get? index).isSome then s.follow index n else .error .frameNotFound

/-- What the first frame that binds `key` binds it to, from the frame at `index` outward, along at
most `links` links. Part of `get_visible_through_ancestry`. -/
def visibleAlong (s : CallStack) (key : UInt64) (index : Nat) : Nat → Option ObjectId
  | 0 => none
  | links + 1 =>
    match s.get? index with
    | none => none
    | some f =>
      match f.visible.get? key with
      | some id => some id
      | none =>
        match f.parent with
        | some parent => visibleAlong s key parent links
        | none => none

/-- What a variable is bound to in the frame at `index` or else in the nearest one outward. No chain
of links is longer than the stack. Mirrors `get_visible_through_ancestry`. -/
def visibleFrom (s : CallStack) (index : Nat) (key : UInt64) : Option ObjectId :=
  s.visibleAlong key index s.depth

/-- What a variable is bound to as seen from the frame at `index`. -/
def getVisible (s : CallStack) (index : Nat) (key : UInt64) : Except Fault ObjectId :=
  match s.get? index with
  | none => .error .frameNotFound
  | some _ =>
    match s.visibleFrom index key with
    | some id => .ok id
    | none => .error (.nameNotFound (Fault.anonymous key))

end CallStack

end ObjectVM
