import ObjectVM.Decimal.Digits
import ObjectVM.Store.Object

/-!
# The heap

Objects live in slots. An id names a slot and a generation of it; the generation rises each time the
slot is reclaimed, so an id held too long finds nothing instead of another object. Free slots are
used again, the last reclaimed first, before new ones are made.

Specification: B.3.1.
-/
namespace ObjectVM

/-- Why a heap cannot have a capacity. -/
inductive CapacityFault where
  | zero
  | tooLarge
  deriving DecidableEq, Repr

/-- The fault in words. -/
def CapacityFault.message : CapacityFault → String
  | .zero => "capacity must be > 0"
  | .tooLarge => "capacity does not fit an object index"

/-- Why the heap refuses. -/
inductive HeapError where
  | objectNotFound (id : ObjectId)
  | exhausted (capacity : Nat)
  deriving DecidableEq, Repr

/-- The refusal in words. -/
def HeapError.message : HeapError → String
  | .objectNotFound id => "object " ++ id.text ++ " not found"
  | .exhausted capacity =>
    "heap exhausted: capacity of " ++ Decimal.natText capacity ++ " objects reached"

/-- A place for one object, and how often it has been reclaimed. -/
structure Slot where
  generation : UInt32
  object : Option Object
  deriving DecidableEq, Inhabited

/-- An arena of at most `capacity` objects. `free` holds the slots to use again, the next one
first, and `live` counts the objects. -/
structure Heap where
  capacity : Nat
  slots : Array Slot
  free : List UInt32
  live : Nat
  deriving DecidableEq

namespace Heap

/-- Capacity of a heap that is given none. -/
def defaultCapacity : Nat := 1048576

/-- Whether every slot of a heap of this capacity has an index. Mirrors `validate`. -/
def checkCapacity (capacity : Nat) : Except CapacityFault Unit :=
  if capacity = 0 then .error .zero
  else if UInt32.size ≤ capacity then .error .tooLarge
  else .ok ()

/-- The message under which a capacity is refused outright. -/
def refusal (fault : CapacityFault) : String := "invalid heap settings: " ++ fault.message

/-- A heap without objects. -/
def empty (capacity : Nat) : Heap := ⟨capacity, #[], [], 0⟩

/-- A heap without objects, if it can have this capacity. -/
def new? (capacity : Nat) : Except CapacityFault Heap := do
  checkCapacity capacity
  .ok (empty capacity)

/-- The object that `id` names. -/
def get? (h : Heap) (id : ObjectId) : Option Object :=
  match h.slots[id.index.toNat]? with
  | some slot => if slot.generation = id.generation then slot.object else none
  | none => none

/-- Whether `id` names an object. -/
def contains (h : Heap) (id : ObjectId) : Bool := (h.get? id).isSome

/-- The object that `id` names, or the error that there is none. Mirrors `get_dyobj`. -/
def find (h : Heap) (id : ObjectId) : Except HeapError Object :=
  match h.get? id with
  | some o => .ok o
  | none => .error (.objectNotFound id)

/-- The heap with `o` in place of the object that `id` names. -/
def put (h : Heap) (id : ObjectId) (o : Object) : Heap :=
  { h with slots := h.slots.modify id.index.toNat fun slot => { slot with object := some o } }

/-- Whether there is no room for another object. -/
def isFull (h : Heap) : Bool := h.capacity ≤ h.live

/-- Makes a blank object, in the slot reclaimed last if there is one. -/
def allocate (h : Heap) : ObjectId × Heap :=
  match h.free with
  | index :: free =>
    let generation := match h.slots[index.toNat]? with
      | some slot => slot.generation
      | none => 0
    let slots := h.slots.modify index.toNat fun slot => { slot with object := some .blank }
    (⟨index, generation⟩, { h with slots, free, live := h.live + 1 })
  | [] =>
    let index := UInt32.ofNat h.slots.size
    (⟨index, 0⟩, { h with slots := h.slots.push ⟨0, some .blank⟩, live := h.live + 1 })

/-- Makes a blank object if there is room. Mirrors `create_dyobj`. -/
def create (h : Heap) : Except HeapError (ObjectId × Heap) :=
  if h.isFull then .error (.exhausted h.capacity) else .ok h.allocate

/-- Makes `n` blank objects one after another, after those in `made`, last first. -/
def allocateEach (h : Heap) (made : List ObjectId) : Nat → List ObjectId × Heap
  | 0 => (made.reverse, h)
  | n + 1 =>
    let (id, h) := h.allocate
    allocateEach h (id :: made) n

/-- Makes `n` blank objects, or none if there is not room for all. Mirrors `create_dyobjs`. -/
def createMany (h : Heap) (n : Nat) : Except HeapError (List ObjectId × Heap) :=
  if h.capacity - h.live < n then .error (.exhausted h.capacity)
  else .ok (h.allocateEach [] n)

/-- Every object with its id, in slot order. -/
def objects (h : Heap) : List (ObjectId × Object) :=
  h.slots.toList.zipIdx.filterMap fun (slot, i) =>
    slot.object.map fun o => (⟨UInt32.ofNat i, slot.generation⟩, o)

end Heap

end ObjectVM
