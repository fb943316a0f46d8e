import ObjectVM.Machine.Process

/-!
# Effects of instructions

An instruction changes the process or fails; what it changed before it failed stays changed. These
are the steps from which the instructions are made.

Specification: 4.2 to 4.4.
-/
namespace ObjectVM

/-- Work on a process that may fail and then leaves the process as it is. -/
abbrev Exec := EStateM Fault Process

namespace Exec

/-- A result of looking at the process. -/
def look (f : Process → Except Fault α) : Exec α := do
  match f (← get) with
  | .ok a => pure a
  | .error fault => throw fault

/-- A result that does not depend on the process. -/
def lift (r : Except Fault α) : Exec α :=
  match r with
  | .ok a => pure a
  | .error fault => throw fault

/-- A result of an operation on values. -/
def liftValue (r : Except ValueError α) : Exec α :=
  match r with
  | .ok a => pure a
  | .error e => throw (.value e)

/-- Notes an event. -/
def note (e : Event) : Exec Unit := modify (·.note e)

/-! ## Frames -/

/-- The running frame. Mirrors `frame`. -/
def topFrame : Exec Frame := do
  match (← get).calls.top? with
  | some f => pure f
  | none => throw .frameNotFound

/-- Puts a frame in place of the running one. -/
def setTopFrame (f : Frame) : Exec Unit :=
  modify fun p => { p with calls := p.calls.modifyTop fun _ => f }

/-- Changes the running frame. Mirrors `frame_mut`. -/
def updateFrame (f : Frame → Except Fault Frame) : Exec Unit := do
  setTopFrame (← lift (f (← topFrame)))

/-! ## Objects -/

/-- Puts an object on top of the object stack. -/
def pushObject (id : ObjectId) : Exec Unit :=
  modify fun p => { p with objects := id :: p.objects }

/-- Takes the top object. -/
def popObject : Exec ObjectId := do
  match (← get).objects with
  | id :: rest =>
    modify fun p => { p with objects := rest }
    pure id
  | [] => throw .objectStackEmpty

/-- The top object. -/
def topObject : Exec ObjectId := do
  match (← get).objects with
  | id :: _ => pure id
  | [] => throw .objectStackEmpty

/-- The object that an id names. -/
def object (id : ObjectId) : Exec Object := look (·.object id)

/-- Puts an object in place of the one that an id names. -/
def putObject (id : ObjectId) (o : Object) : Exec Unit :=
  modify fun p => { p with heap := p.heap.put id o }

/-- The object that an id names, which has to be open to change. -/
def mutableObject (id : ObjectId) : Exec Object := do
  let o ← object id
  if o.hasFlag .immutable then throw (.misstep .immutableObject) else pure o

/-- Makes an object. -/
def newObject : Exec ObjectId := do
  if (← get).heap.isFull then throw (.heap (.exhausted (← get).heap.capacity))
  else
    modifyGet fun p =>
      let (id, heap) := p.heap.allocate
      (id, { p with heap })

/-- Refuses objects that may not be deleted. -/
def checkDeletable (id : ObjectId) : Exec Unit := do
  if (← object id).hasFlag .indelible then throw (.indelible id)

/-! ## Handles -/

/-- Puts a value in the handle of an object, which gets a handle if it has none. Mirrors
`set_handle`. -/
def setValue (id : ObjectId) (v : Value) : Exec Unit := do
  let o ← object id
  match o.handle with
  | some key =>
    if (← get).pool.contains key then modify fun p => { p with pool := p.pool.replace key v }
    else throw (.pool (.notLive key))
  | none =>
    if (← get).pool.isFull then throw (.pool (.full (← get).pool.capacity))
    else
      let key ← modifyGet fun p =>
        let (key, pool) := p.pool.allocate v
        (key, { p with pool })
      putObject id { o with handle := some key }

/-- Makes an object with a value. -/
def newObjectWith (v : Value) : Exec ObjectId := do
  let id ← newObject
  setValue id v
  pure id

/-! ## Values -/

/-- Puts a value on top of the running frame's evaluation stack. Mirrors `push_eval`. -/
def pushValue (v : Value) : Exec Unit := do
  setTopFrame ((← topFrame).pushValue v)

/-- Takes the top value. Mirrors `pop_eval`. -/
def popValue : Exec Value := do
  let (v, f) ← lift (← topFrame).popValue
  setTopFrame f
  pure v

/-- The top value. Mirrors `top_eval`. -/
def topValue : Exec Value := do
  lift (← topFrame).topValue

/-- Puts a value in place of the top one. -/
def setTopValue (v : Value) : Exec Unit := updateFrame (·.setTopValue v)

/-- Takes the `n` top values; of the result, the deepest comes first. -/
def popOperands : (n : Nat) → Exec (Vector Value n)
  | 0 => pure #v[]
  | n + 1 => do
    let last ← popValue
    let rest ← popOperands n
    pure (rest.push last)

/-! ## Invocations -/

/-- The arguments of the running frame, and their place. Mirrors `current_invk_ctx`. -/
def ownInvocation : Exec (Nat × Invocation) := do
  let index := (← topFrame).invocation
  match (← get).invocations[index]? with
  | some i => pure (index, i)
  | none => throw .invocationNotFound

/-- The call staged last by the running frame, and its place. Mirrors `staged_invk_index`. -/
def stagedInvocation : Exec (Nat × Invocation) := do
  let own := (← topFrame).invocation
  let index := (← get).invocations.size - 1
  match (← get).invocations[index]? with
  | some i => if own < index then pure (index, i) else throw .invocationNotFound
  | none => throw .invocationNotFound

/-- Puts an invocation in its place on the stack. Mirrors `staged_invk_ctx`. -/
def putInvocation (index : Nat) (i : Invocation) : Exec Unit :=
  modify fun p => { p with invocations := p.invocations.setIfInBounds index i }

end Exec

end ObjectVM
