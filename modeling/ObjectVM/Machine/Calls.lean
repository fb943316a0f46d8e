import ObjectVM.Machine.Exec

/-!
# Calls, returns and exceptions

How frames come and go. A frame leaves together with its invocation and with every call it staged
and did not make. An exception looks for a catch site frame by frame from the innermost one out; a
frame in which a signal vector runs is passed over, and the frame that raises is asked only if the
instruction says so. Every caller that the exception reaches keeps it and finds it on the object
stack.

Specification: 4.5, B.4.1 and B.4.3a.
-/
namespace ObjectVM.Exec

/-- Makes a frame for a closure; its arguments are at `invocation`. -/
def pushFrame (ref : ClosureRef) (invocation : Nat) (returnAddress : Option Nat) : Exec Unit := do
  let parent ← look (·.lexicalParent ref)
  let closure ← look (·.resolve ref)
  note (.called closure.name ref ((← get).calls.depth + 1))
  let frame := Frame.new ref closure.code invocation returnAddress parent
  if (← get).calls.isFull then throw (.callStackOverflow (← get).calls.maxDepth)
  else modify fun p => { p with calls := p.calls.add frame }

/-- Removes the running frame, and of the invocations its own and those above. -/
def popFrame : Exec Frame := do
  let frame ← topFrame
  modify fun p =>
    { p with
      calls := p.calls.dropTop
      invocations := p.invocations.shrink frame.invocation }
  pure frame

/-- Leaves the running frame. Its caller goes on behind the call, and the collection rules are
asked. -/
def returnFromFrame : Exec Unit := do
  let frame ← popFrame
  match frame.returnAddress with
  | some address =>
    modify fun p => { p with calls := p.calls.modifyTop fun f => { f with pc := address + 1 } }
  | none => pure ()
  note (.returned frame.closure (← get).calls.depth)
  modify (·.applyRules)

/-- The instruction at which a frame goes on after an exception, if it catches it. Mirrors
`find_catch_site`. -/
def catchTarget? (frame : Frame) : Exec (Option Nat) := do
  if frame.isInterrupted then pure none
  else
    let closure ← look (·.resolve frame.closure)
    pure ((closure.catchSiteAt frame.currentIndex).map (·.target))

/-- Looks for a handler of `exception` among the `depth` frames. The running frame is asked only if
`search` is set. `trace` is the call stack before the first frame left. Part of `raise`. -/
def unwind (exception : ObjectId) (search : Bool) (trace : Option Traceback) :
    (depth : Nat) → Exec Unit
  | 0 => throw .frameNotFound
  | depth + 1 => do
    let frame ← topFrame
    let target ← if search then catchTarget? frame else pure none
    match target with
    | some target =>
      setTopFrame (frame.setException (some exception))
      updateFrame (·.goTo target)
      note (.caught exception frame.closure target)
    | none =>
      let trace := trace.or (some (← get).fullTraceback)
      let _ ← popFrame
      match (← get).calls.top? with
      | some caller =>
        setTopFrame (caller.setException (some exception))
        pushObject exception
        unwind exception true trace depth
      | none =>
        note (.uncaught exception)
        modify fun p => { p with uncaught := trace, halt := some (.uncaught exception) }

/-- Raises an exception in the running frame. -/
def raise (exception : ObjectId) (search : Bool) : Exec Unit := do
  unwind exception search none (← get).calls.depth

end ObjectVM.Exec
