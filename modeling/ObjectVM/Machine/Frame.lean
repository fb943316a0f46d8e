import ObjectVM.Machine.Fault
import ObjectVM.Program.Closure

/-!
# Frames

One activation of a closure. The counter points at the next instruction to fetch, so the one being
executed lies just before it. A signal vector runs in the frame it interrupts: the frame's code and
counter are set aside as a window and come back when the vector ends.

Specification: 4.2, B.4.1 and B.4.6.
-/
namespace ObjectVM

/-- Code set aside, and the counter in it. -/
structure Window where
  code : Code
  pc : Nat
  deriving DecidableEq

/-- An activation. `returnAddress` is the index of the caller's call instruction, `invocation` the
place of the arguments, and `parent` the call-stack index of the nearest frame of the closure
around. Of the values the top comes first, and of the windows the one to resume next. -/
structure Frame where
  closure : ClosureRef
  code : Code
  pc : Nat
  returnAddress : Option Nat
  invocation : Nat
  parent : Option Nat
  visible : KeyMap ObjectId
  hidden : KeyMap ObjectId
  values : List Value
  exception : Option ObjectId
  suspended : List Window
  deriving DecidableEq

/-- A number cut to 64 bits and read with a sign. -/
def signed64 (n : Int) : Int := n.bmod UInt64.size

namespace Frame

/-- A frame at the start of its code. -/
def new (closure : ClosureRef) (code : Code) (invocation : Nat)
    (returnAddress parent : Option Nat) : Frame :=
  ⟨closure, code, 0, returnAddress, invocation, parent, ∅, ∅, [], none, []⟩

/-! ## Counter -/

/-- Index of the instruction being executed. -/
def currentIndex (f : Frame) : Nat := f.pc - 1

/-- Whether a signal vector runs in the frame. -/
def isInterrupted (f : Frame) : Bool := !f.suspended.isEmpty

/-- Index of the instruction of the closure itself, behind all signal vectors. -/
def closureIndex (f : Frame) : Nat :=
  match f.suspended.getLast? with
  | some w => w.pc - 1
  | none => f.currentIndex

/-- Whether an instruction is left to fetch. -/
def canExecute (f : Frame) : Bool := f.pc < f.code.size

/-- The next instruction, with the counter behind it. -/
def fetch? (f : Frame) : Option (Instruction × Frame) :=
  (f.code[f.pc]?).map fun i => (i, { f with pc := f.pc + 1 })

/-- Moves the counter to an instruction. Mirrors `set_pc`. -/
def goTo (f : Frame) (address : Nat) : Except Fault Frame :=
  if address < f.code.size then .ok { f with pc := address }
  else .error (.invalidAddress (signed64 address))

/-- Moves the counter behind the last instruction. Mirrors `set_pc`. -/
def goToEnd (f : Frame) : Frame := { f with pc := f.code.size }

/-- Jumps forward from the instruction being executed; jumping back is refused. Mirrors
`jump_relative`. -/
def jump (f : Frame) (offset : Int) : Except Fault Frame :=
  let target := signed64 (f.currentIndex + offset)
  if offset < 0 ∨ target < 0 then .error (.invalidAddress target) else f.goTo target.toNat

/-- Passes over the next `n` instructions, at most to the end of the code. -/
def skip (f : Frame) (n : UInt64) : Except Fault Frame :=
  let target := min (f.pc + n.toNat) (UInt64.size - 1)
  if f.code.size < target then .error (.invalidAddress (signed64 target))
  else .ok { f with pc := target }

/-! ## Signal vectors -/

/-- Sets the code aside and starts a vector. -/
def interrupt (f : Frame) (vector : Code) : Frame :=
  { f with code := vector, pc := 0, suspended := ⟨f.code, f.pc⟩ :: f.suspended }

/-- Takes up the code set aside last. -/
def resume? (f : Frame) : Option Frame :=
  match f.suspended with
  | w :: rest => some { f with code := w.code, pc := w.pc, suspended := rest }
  | [] => none

/-! ## Values -/

/-- Puts a value on top. Mirrors `push_eval`. -/
def pushValue (f : Frame) (v : Value) : Frame := { f with values := v :: f.values }

/-- Takes the top value. Mirrors `pop_eval`. -/
def popValue (f : Frame) : Except Fault (Value × Frame) :=
  match f.values with
  | v :: rest => .ok (v, { f with values := rest })
  | [] => .error .valueStackEmpty

/-- The top value. Mirrors `top_eval`. -/
def topValue (f : Frame) : Except Fault Value :=
  match f.values with
  | v :: _ => .ok v
  | [] => .error .valueStackEmpty

/-- Puts a value in place of the top one. -/
def setTopValue (f : Frame) (v : Value) : Except Fault Frame :=
  match f.values with
  | _ :: rest => .ok { f with values := v :: rest }
  | [] => .error .valueStackEmpty

/-- The two top values, the deeper one first. Mirrors `top_two_eval`. -/
def topTwoValues (f : Frame) : Except Fault (Value × Value) :=
  match f.values with
  | b :: a :: _ => .ok (a, b)
  | _ => .error .valueStackEmpty

/-- Puts two values in place of the two top ones, the deeper one first. -/
def setTopTwoValues (f : Frame) (a b : Value) : Except Fault Frame :=
  match f.values with
  | _ :: _ :: rest => .ok { f with values := b :: a :: rest }
  | _ => .error .valueStackEmpty

/-- Exchanges the two top values. Mirrors `swap_eval`. -/
def swapValues (f : Frame) : Except Fault Frame :=
  match f.values with
  | b :: a :: rest => .ok { f with values := a :: b :: rest }
  | _ => .error (.misstep .swapValues)

/-! ## Variables and exception -/

/-- Binds a visible variable. -/
def setVisible (f : Frame) (key : UInt64) (id : ObjectId) : Frame :=
  { f with visible := f.visible.insert key id }

/-- What a visible variable of this frame is bound to. -/
def getVisible (f : Frame) (key : UInt64) : Except Fault ObjectId :=
  match f.visible.get? key with
  | some id => .ok id
  | none => .error (.nameNotFound (Fault.anonymous key))

/-- Unbinds a visible variable. Mirrors `pop_visible`. -/
def eraseVisible (f : Frame) (key : UInt64) : Frame :=
  { f with visible := f.visible.erase key }

/-- Binds a hidden variable. Mirrors `set_invisible`. -/
def setHidden (f : Frame) (key : UInt64) (id : ObjectId) : Frame :=
  { f with hidden := f.hidden.insert key id }

/-- What a hidden variable is bound to. Mirrors `get_invisible`. -/
def getHidden (f : Frame) (key : UInt64) : Except Fault ObjectId :=
  match f.hidden.get? key with
  | some id => .ok id
  | none => .error (.nameNotFound (Fault.anonymous key))

/-- Unbinds a hidden variable. Mirrors `pop_invisible`. -/
def eraseHidden (f : Frame) (key : UInt64) : Frame :=
  { f with hidden := f.hidden.erase key }

/-- Stores an exception, or none. Mirrors `set_exc` and `clear_exc`. -/
def setException (f : Frame) (e : Option ObjectId) : Frame := { f with exception := e }

/-- The objects that the frame keeps alive. Mirrors `visit_roots`. -/
def objectIds (f : Frame) : List ObjectId :=
  f.visible.values ++ f.hidden.values ++ f.exception.toList ++ f.values.flatMap Value.objectIds

end Frame

end ObjectVM
