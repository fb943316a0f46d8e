import ObjectVM.Machine.Calls

/-!
# Instructions that move control

Calls in two steps, jumps, exceptions and the end of the run. A call is staged first, then given its
arguments, then made; calls staged meanwhile are made first.

Specification: 4.5 and B.6.
-/
namespace ObjectVM.Exec

/-- Stages a call of the top object, which stays where it is. Mirrors `pinvk`. -/
def stageCall : Exec Unit := do
  let id ← topObject
  let o ← object id
  match if o.hasFlag .uncallable then none else o.closure with
  | some ref =>
    let _ ← look (·.resolve ref)
    modify fun p => { p with invocations := p.invocations.push (.new ref) }
  | none => throw (.uncallable id)

/-- Makes the call staged last. Mirrors `invk`. -/
def makeCall : Exec Unit := do
  let (index, staged) ← stagedInvocation
  let frame ← topFrame
  pushFrame staged.callee index (some frame.currentIndex)

/-- Jumps forward in the running frame. Mirrors `jmp`. -/
def jump (i : Instruction) : Exec Unit := updateFrame (·.jump i.offset)

/-- Ends the run. The status is the low half of a word, read with a sign. -/
def exit (status : UInt64) : Exec Unit := do
  let status := status.toUInt32.toInt32.toInt
  note (.exiting status)
  modify fun p => { p with halt := some (.exited status) }

/-- An instruction that moves control. Mirrors `pinvk`, `invk`, `rtrn`, `jmp`, `jmpif`, `jmpr`,
`exc`, `excobj`, `clrexc`, `jmpexc` and `exit`. -/
def runControl (op : ControlOp) (i : Instruction) : Exec Unit := do
  match op with
  | .stage => stageCall
  | .invoke => makeCall
  | .return => returnFromFrame
  | .jump => jump i
  | .jumpIf => if (← topValue).isTruthy then jump i
  | .jumpTo => updateFrame (·.goTo i.first.toNat)
  | .raise => raise (← popObject) (i.first != 0)
  | .loadException =>
    match (← topFrame).exception with
    | some id => pushObject id
    | none => throw (.misstep .noException)
  | .clearException => setTopFrame ((← topFrame).setException none)
  | .jumpException => if (← topFrame).exception.isSome == (i.second != 0) then jump i
  | .exit => exit i.first

end ObjectVM.Exec
