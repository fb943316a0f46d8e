import ObjectVM.Value.Basic

/-!
# The pool of handles

Values that objects hold live in slots of a pool of fixed capacity. A key names a slot and nothing
else; erased slots are used again, the last erased first.

Specification: 4.4.
-/
namespace ObjectVM

/-- Why the pool refuses. -/
inductive PoolError where
  | full (capacity : Nat)
  | notLive (key : HandleKey)
  deriving DecidableEq, Repr

/-- The refusal in words. -/
def PoolError.message : PoolError → String
  | .full capacity =>
    "native type handle pool is full (" ++ Decimal.natText capacity ++ " handles)"
  | .notLive key => "native type handle not found for " ++ key.text

/-- At most `capacity` values. `free` holds the slots to use again, the next one first, and `live`
counts the values. Mirrors `NativeTypesPool`. -/
structure Pool where
  capacity : Nat
  slots : Array (Option Value)
  free : List UInt32
  live : Nat
  deriving DecidableEq

namespace Pool

/-- A pool without values. -/
def empty (capacity : Nat) : Pool := ⟨capacity, #[], [], 0⟩

/-- The value under `key`. -/
def get? (p : Pool) (key : HandleKey) : Option Value := (p.slots[key.slot.toNat]?).join

/-- Whether there is a value under `key`. -/
def contains (p : Pool) (key : HandleKey) : Bool := (p.get? key).isSome

/-- The value under `key`, or the error that there is none. Mirrors `at`. -/
def find (p : Pool) (key : HandleKey) : Except PoolError Value :=
  match p.get? key with
  | some v => .ok v
  | none => .error (.notLive key)

/-- Whether there is no room for another value. -/
def isFull (p : Pool) : Bool := p.capacity ≤ p.live

/-- Stores a value under a key that has none, the one erased last if there is one. -/
def allocate (p : Pool) (v : Value) : HandleKey × Pool :=
  match p.free with
  | slot :: free =>
    let slots := p.slots.setIfInBounds slot.toNat (some v)
    (⟨slot⟩, { p with slots, free, live := p.live + 1 })
  | [] =>
    let key := ⟨UInt32.ofNat p.slots.size⟩
    (key, { p with slots := p.slots.push (some v), live := p.live + 1 })

/-- Stores a value under a key that has none, if there is room. Mirrors `create_with`. -/
def create (p : Pool) (v : Value) : Except PoolError (HandleKey × Pool) :=
  if p.isFull then .error (.full p.capacity) else .ok (p.allocate v)

/-- The pool with `v` in place of the value under `key`. -/
def replace (p : Pool) (key : HandleKey) (v : Value) : Pool :=
  { p with slots := p.slots.setIfInBounds key.slot.toNat (some v) }

/-- The pool with `v` in place of the value under `key`, or the error that there is none. -/
def put (p : Pool) (key : HandleKey) (v : Value) : Except PoolError Pool :=
  if p.contains key then .ok (p.replace key v) else .error (.notLive key)

/-- Takes the value under `key` out of the pool. -/
def erase (p : Pool) (key : HandleKey) : Except PoolError (Value × Pool) :=
  match p.get? key with
  | some v =>
    .ok (v, { p with
      slots := p.slots.setIfInBounds key.slot.toNat none
      free := key.slot :: p.free
      live := p.live - 1 })
  | none => .error (.notLive key)

end Pool

end ObjectVM
