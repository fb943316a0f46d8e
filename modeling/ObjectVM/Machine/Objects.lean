import ObjectVM.Code.Op
import ObjectVM.Machine.Exec

/-!
# Instructions on objects

Objects, their attributes and handles, and the variables that hold them.

Specification: B.6.
-/
namespace ObjectVM.Exec

/-! ## Objects -/

/-- Exchanges the two top objects. Mirrors `swap`. -/
def swapObjects : Exec Unit := do
  match (← get).objects with
  | b :: a :: rest => modify fun p => { p with objects := a :: b :: rest }
  | _ => throw (.misstep .swapObjects)

/-- Takes two objects and says whether they are the same, or whether they differ. Mirrors
`identity`. -/
def compareObjects (same : Bool) : Exec Unit := do
  let b ← popObject
  let a ← popObject
  pushValue (.bool ((a == b) == same))

/-- Makes the top object a callable of the running frame's compartment. Mirrors `setctx`. -/
def setClosure (closure : UInt64) : Exec Unit := do
  let frame ← topFrame
  let id ← topObject
  let o ← mutableObject id
  putObject id { o with closure := some ⟨frame.closure.compartment, closure⟩ }

/-- Sets or clears a flag of the top object. -/
def setFlag (flag : ObjectFlags) (on : Bool) : Exec Unit := do
  let id ← topObject
  putObject id ((← object id).setFlag flag on)

/-- An instruction on objects. Mirrors `new`, `pop`, `swap`, `objeq`, `objneq`, `setctx`, `setflgc`,
`setfldel`, `setflcall` and `setflmute`. -/
def runObject (op : ObjectOp) (i : Instruction) : Exec Unit := do
  match op with
  | .new => pushObject (← newObject)
  | .pop => let _ ← popObject
  | .swap => swapObjects
  | .same => compareObjects true
  | .different => compareObjects false
  | .setClosure => setClosure i.first
  | .setPinned => setFlag .pinned (i.first != 0)
  | .setIndelible => setFlag .indelible (i.first != 0)
  | .setUncallable => setFlag .uncallable (i.first != 0)
  | .setImmutable => setFlag .immutable (i.first != 0)

/-! ## Variables -/

/-- Puts the object that a visible variable is bound to on the object stack. -/
def loadVisible (key : UInt64) : Exec Unit := do
  pushObject (← look (·.visible key))

/-- A look at the running frame for a variable, with its name in the fault. Mirrors `named`. -/
def lookVariable (key : UInt64) (f : Frame → Except Fault ObjectId) : Exec ObjectId := do
  let frame ← topFrame
  look fun p => (f frame).mapError (p.named key)

/-- Binds a variable of the frame some links outward. Mirrors `stobjn`. -/
def storeOuter (key : UInt64) (links : Nat) : Exec Unit := do
  let id ← popObject
  let _ ← topFrame
  let index ← look fun p => p.calls.ancestor (p.calls.depth - 1) links
  match (← get).calls.get? index with
  | some _ => modify fun p => { p with calls := p.calls.modify index (·.setVisible key id) }
  | none => throw .frameNotFound

/-- An instruction on variables. Mirrors `ldobj`, `stobj`, `stobjn`, `ldobj2`, `stobj2`, `delobj`,
`delobj2` and `cldobj`. -/
def runVariable (op : VariableOp) (i : Instruction) : Exec Unit := do
  match op with
  | .load => loadVisible i.first
  | .store =>
    let id ← popObject
    setTopFrame ((← topFrame).setVisible i.first id)
  | .storeOuter => storeOuter i.first i.second.toNat
  | .loadHidden => pushObject (← lookVariable i.first (·.getHidden i.first))
  | .storeHidden =>
    let id ← popObject
    setTopFrame ((← topFrame).setHidden i.first id)
  | .delete =>
    checkDeletable (← lookVariable i.first (·.getVisible i.first))
    setTopFrame ((← topFrame).eraseVisible i.first)
  | .deleteHidden =>
    checkDeletable (← lookVariable i.first (·.getHidden i.first))
    setTopFrame ((← topFrame).eraseHidden i.first)
  | .loadEither =>
    let condition ← popValue
    loadVisible (if condition.isTruthy then i.first else i.second)

/-! ## Attributes -/

/-- What the name of an attribute is called in error messages. -/
def attributeName : String := "attribute name"

/-- The name of the attribute that an instruction is about. Mirrors `literal_name` and
`eval_name`. -/
def readName (source : NameSource) (i : Instruction) : Exec String := do
  match source with
  | .literal => look (·.stringLiteral i.first)
  | .computed => liftValue ((← popValue).asText attributeName)

/-- The object that an attribute is bound to. -/
def findAttribute (o : Object) (name : String) : Exec ObjectId := do
  match o.attribute? (Text.hash name) with
  | some id => pure id
  | none => throw (.attributeNotFound name)

/-- An instruction on the attribute `name`. Mirrors `get_attr`, `set_attr`, `del_attr` and
`has_attr`. -/
def runAttribute (op : AttributeOp) (name : String) : Exec Unit := do
  match op with
  | .get =>
    let o ← object (← popObject)
    pushObject (← findAttribute o name)
  | .set =>
    let value ← popObject
    let id ← topObject
    let o ← mutableObject id
    putObject id (o.putAttribute (Text.hash name) value)
  | .delete =>
    let id ← topObject
    let o ← mutableObject id
    checkDeletable (← findAttribute o name)
    putObject id (o.eraseAttribute (Text.hash name))
  | .has =>
    let o ← object (← topObject)
    pushValue (.bool (o.attribute? (Text.hash name)).isSome)

/-- Binds an attribute of the top object for each entry of the map on top of the evaluation stack.
Keys of the map stand for names in the literal table, and all are looked up before any is bound.
Mirrors `setattrs`. -/
def setAttributes : Exec Unit := do
  let entries ← liftValue ((← topValue).asMap "setattrs")
  let bindings ← entries.entries.mapM fun (key, value) => do
    pure (Text.hash (← look (·.stringLiteral key)), value)
  let id ← topObject
  let o ← mutableObject id
  putObject id (bindings.foldl (fun o b => o.putAttribute b.1 b.2) o)

/-! ## Handles -/

/-- Puts a value in the handle of an object that is open to change. -/
def assign (id : ObjectId) (v : Value) : Exec Unit := do
  let _ ← mutableObject id
  setValue id v

/-- Puts what `f` makes of the value of the top object into the handle of the object below. Mirrors
`cpyhndl` and `cpyrepr`. -/
def copyValue (f : Value → Value) : Exec Unit := do
  let source ← popObject
  let target ← topObject
  let v ← look (·.valueOf source)
  assign target (f v)

/-- Takes the handle away from the top object, and its value out of the pool. Mirrors `clrhndl`. -/
def clearHandle : Exec Unit := do
  let id ← topObject
  let o ← mutableObject id
  match o.handle with
  | some key =>
    putObject id { o with handle := none }
    match (← get).pool.erase key with
    | .ok (_, pool) => modify fun p => { p with pool }
    | .error e => throw (.pool e)
  | none => pure ()

/-- Whether the top object counts as true: an object without a handle does. Mirrors `istruthy`. -/
def objectTruthy : Exec Unit := do
  match (← object (← topObject)).handle with
  | some key =>
    let v ← look (·.pooled key)
    pushValue (.bool v.isTruthy)
  | none => pushValue (.bool true)

/-- An instruction on handles. Mirrors `gethndl`, `sethndl`, `gethndl2`, `sethndl2`, `clrhndl`,
`cpyhndl`, `cpyrepr` and `istruthy`. -/
def runHandle (op : HandleOp) (i : Instruction) : Exec Unit := do
  match op with
  | .get =>
    let id ← topObject
    pushValue (← look (·.valueOf id))
  | .set =>
    let v ← popValue
    assign (← topObject) v
  | .getOf =>
    let id ← look (·.visible i.first)
    pushValue (← look (·.valueOf id))
  | .setOf =>
    let v ← popValue
    assign (← look (·.visible i.first)) v
  | .clear => clearHandle
  | .copy => copyValue id
  | .copyText => copyValue fun v => .text v.render
  | .truthy => objectTruthy

end ObjectVM.Exec
