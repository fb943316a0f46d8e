import ObjectVM.Code.Op
import ObjectVM.Machine.Exec

/-!
# Instructions that pass arguments

The caller puts arguments into the call it staged last; the callee takes them from its own
invocation.

Specification: B.4.3a and B.6.
-/
namespace ObjectVM.Exec

/-- Changes the call staged last. Mirrors `staged_invk_ctx`. -/
def updateStaged (f : Invocation → Invocation) : Exec Unit := do
  let (index, staged) ← stagedInvocation
  putInvocation index (f staged)

/-- Takes something from the running frame's invocation. Mirrors `current_invk_ctx`. -/
def takeOwn (f : Invocation → Except Fault (α × Invocation)) : Exec α := do
  let (index, own) ← ownInvocation
  let (a, own) ← lift (f own)
  putInvocation index own
  pure a

/-- Takes a named argument if there is one, and passes over the instructions that would compute it
otherwise. Mirrors `getkwarg`. -/
def takeNamed (key skipped : UInt64) : Exec Unit := do
  let (_, own) ← ownInvocation
  if own.named.contains key then
    pushObject (← takeOwn (·.takeNamed key))
    updateFrame (·.skip skipped)

/-- An instruction that passes arguments. Mirrors `putarg`, `putkwarg`, `putargs`, `putkwargs`,
`getarg`, `getkwarg`, `getargs`, `getkwargs` and `hasargs`. -/
def runArgument (op : ArgumentOp) (i : Instruction) : Exec Unit := do
  match op with
  | .put =>
    let id ← popObject
    updateStaged (·.put id)
  | .putNamed =>
    let id ← popObject
    updateStaged (·.putNamed i.first id)
  | .putAll =>
    let id ← popObject
    let items ← liftValue ((← look (·.valueOf id)).asArray "putargs")
    updateStaged (·.putAll items)
  | .putAllNamed =>
    let id ← popObject
    let entries ← liftValue ((← look (·.valueOf id)).asMap "putkwargs")
    updateStaged (·.putAllNamed entries)
  | .take => pushObject (← takeOwn (·.takeNext))
  | .takeNamed => takeNamed i.first i.second
  | .takeAll =>
    let rest ← takeOwn (.ok ·.takeRemaining)
    pushObject (← newObjectWith (.array rest))
  | .takeAllNamed =>
    let rest ← takeOwn (.ok ·.takeAllNamed)
    pushObject (← newObjectWith (.map rest))
  | .hasMore =>
    let (_, own) ← ownInvocation
    pushValue (.bool own.hasMore)

end ObjectVM.Exec
