import ObjectVM.Code.Instruction

/-!
# Building code

Code is built instruction by instruction. A jump forward is emitted before its target is known and
leaves a label; binding the label makes the jump lead to the place the code has reached by then.
-/
namespace ObjectVM

/-- A jump whose target is still open. -/
structure Label where
  index : Nat
  deriving DecidableEq, Repr

/-- Code under construction. -/
structure Builder where
  code : Code
  deriving DecidableEq, Repr

namespace Builder

/-- No code yet. -/
def empty : Builder := ⟨#[]⟩

/-- The index that the next instruction will have. -/
def next (b : Builder) : Nat := b.code.size

/-- Adds an instruction. -/
def emit (b : Builder) (op : Op) (first second : UInt64) : Builder :=
  ⟨b.code.push ⟨op, first, second⟩⟩

/-- Adds a jump whose offset is still open. -/
def emitJump (b : Builder) (op : ControlOp) (second : UInt64) : Label × Builder :=
  (⟨b.next⟩, b.emit (.control op) 0 second)

/-- Adds a jump forward. -/
def jump (b : Builder) : Label × Builder := b.emitJump .jump 0

/-- Adds a jump forward that is taken when the top of the evaluation stack counts as true. -/
def jumpIf (b : Builder) : Label × Builder := b.emitJump .jumpIf 0

/-- Adds a jump forward that is taken when an exception is stored, or when none is. -/
def jumpException (b : Builder) (whenSet : Bool) : Label × Builder :=
  b.emitJump .jumpException (if whenSet then 1 else 0)

/-- Makes the jump of a label lead here. Offsets count from the jump itself. -/
def bind (b : Builder) (label : Label) : Builder :=
  ⟨b.code.modify label.index fun i => { i with first := UInt64.ofNat (b.next - label.index) }⟩

/-- Adds a jump to an index that the code already had. -/
def loopTo (b : Builder) (target : UInt64) : Builder := b.emit (.control .jumpTo) target 0

end Builder

end ObjectVM
