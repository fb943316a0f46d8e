import ObjectVM.Machine.Arguments
import ObjectVM.Machine.Control
import ObjectVM.Machine.Objects
import ObjectVM.Machine.Values

/-!
# Running

A run is a sequence of turns. In each turn the signals that wait are handled, then one instruction
is fetched and executed; where no instruction is left, a signal vector gives way to the code it
interrupted and a frame returns. The run ends when the program halts or no frame is left.

Specification: 4.5, B.4.4 and B.4.6.
-/
namespace ObjectVM

namespace Exec

/-! ## Instructions that reach outside -/

/-- What is printed for an object: its value, or its id if it has none. -/
def printedText (p : Process) (id : ObjectId) : String :=
  match p.valueOf id with
  | .ok v => v.render
  | .error _ => "<object " ++ id.text ++ ">"

/-- Writes to the output; the signals that the reader raises wait for the next turn. -/
def write (s : String) : Exec Unit := do
  match (← get).output.write s with
  | .ok (raised, output) =>
    modify fun p => { p with output, signals := raised.foldl SignalQueue.raise p.signals }
  | .error reason => throw (.output reason)

/-- Prints the top object, followed by a line end unless that is suppressed. -/
def print (suppress : Bool) : Exec Unit := do
  let id ← popObject
  let text := printedText (← get) id
  write (if suppress then text else text ++ "\n")

/-- A value in a report: its kind in six columns, and its text. -/
def valueLine (v : Value) : String :=
  let name := v.kind.name
  "    " ++ name ++ String.ofList (List.replicate (6 - name.length) ' ') ++ " " ++ v.render ++ "\n"

/-- A report on the process: counts, the running frame, and its values from the top down. Mirrors
`debug`. -/
def report (p : Process) : String :=
  p.summary ++ "\n" ++ match p.calls.top? with
    | some f =>
      "  frame " ++ f.closure.text ++ " pc " ++ Decimal.natText f.pc ++ "\n"
        ++ String.join (f.values.map valueLine)
    | none => ""

/-- An instruction that reaches outside. Mirrors `gc`, `debug` and `print`. -/
def runRuntime (op : RuntimeOp) (i : Instruction) : Exec Unit := do
  match op with
  | .collect => modify (·.collect.2)
  | .debug => modify fun p => { p with diagnostics := p.diagnostics ++ report p }
  | .print => print (i.first != 0)

/-! ## Turns -/

/-- Executes an instruction. Mirrors `handler_for`. -/
def execute (i : Instruction) : Exec Unit := do
  match i.op with
  | .object op => runObject op i
  | .variable op => runVariable op i
  | .attribute op source => runAttribute op (← readName source i)
  | .setAttributes => setAttributes
  | .handle op => runHandle op i
  | .control op => runControl op i
  | .argument op => runArgument op i
  | .runtime op => runRuntime op i
  | .stack op => runStack op
  | .constant op => runConstant op i
  | .value op => perform op.action

/-- Handles one signal. -/
def handleSignal (s : Signal) : Exec Unit := do
  match s.category, (← get).vectors s with
  | .timer, _ => note (.signalIgnored s)
  | _, some vector =>
    note (.signalVectored s)
    setTopFrame ((← topFrame).interrupt vector)
  | .termination, none =>
    note (.signalTerminates s)
    modify fun p => { p with halt := some (.terminated s) }
  | _, none =>
    note (.signalFatal s)
    throw (.fatalSignal s)

/-- Takes all signals that wait and handles them in order. A fault ends this, and the signals behind
the one at fault are gone. Part of `run`. -/
def deliverSignals : Exec Unit := do
  let (waiting, signals) := (← get).signals.drain
  modify fun p => { p with signals }
  waiting.forM handleSignal

/-- The next instruction of the running frame, with the counter behind it. -/
def fetch (frame : Frame) : Exec (Option Instruction) := do
  match frame.fetch? with
  | some (i, frame) =>
    setTopFrame frame
    note (.fetched frame.closure frame.currentIndex i)
    pure (some i)
  | none => pure none

/-- Where a frame's code ends: takes up the code set aside, or returns. Part of `run`. -/
def finishCode (frame : Frame) : Exec Unit := do
  match frame.resume? with
  | some frame => setTopFrame frame
  | none => returnFromFrame

/-- One turn. Gives the outcome if the run ends. Part of `run`. -/
def turn : Exec (Option Outcome) := do
  deliverSignals
  match (← get).halt with
  | some outcome =>
    modify fun p => { p with halt := none }
    note (.runHalted outcome)
    pure (some outcome)
  | none =>
    match (← get).calls.top? with
    | none =>
      note .runCompleted
      pure (some .completed)
    | some frame =>
      match ← fetch frame with
      | some i => execute i
      | none => finishCode frame
      pure none

/-- At most `n` turns. Gives the outcome if the run ends within them. Part of `run`. -/
def turns : (n : Nat) → Exec (Option Outcome)
  | 0 => pure none
  | n + 1 => do
    match ← turn with
    | some outcome => pure (some outcome)
    | none => turns n

/-- Runs for at most `limit` turns, from where the last run stopped. -/
def run (limit : Nat) : Exec (Option Outcome) := do
  note (.runStarted (← get).calls.depth)
  turns limit

end Exec

end ObjectVM
