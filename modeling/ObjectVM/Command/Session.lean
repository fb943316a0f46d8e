import ObjectVM.Command.Arguments
import ObjectVM.Command.Listing
import ObjectVM.Machine.Run
import ObjectVM.Program.Stored

/-!
# The command at work

What the command does with a program, and what it leaves behind: an exit status and two texts. A
program that ends by itself decides the status; one that an exception or a fault ends leaves a
traceback.
-/
namespace ObjectVM

/-- What a command leaves behind. -/
structure Report where
  status : UInt8
  output : String
  errors : String
  deriving DecidableEq, Repr

namespace Report

/-- Status 0 and an output. -/
def success (output : String) : Report := ⟨0, output, ""⟩

/-- A status and a message of what went wrong. -/
def failure (status : UInt8) (message : String) : Report :=
  ⟨status, "", "error: " ++ message ++ "\n"⟩

/-- What a process leaves behind that ends with a status and last words. -/
def ofProcess (p : Process) (status : UInt8) (words : String) : Report :=
  ⟨status, p.output.text, p.diagnostics ++ words⟩

end Report

namespace Command

/-- How many frames are listed below the fault that ended a program. -/
def tracebackLimit : Nat := 32

/-- What a program leaves behind that ended with an outcome. -/
def reportOutcome (p : Process) : Outcome → Report
  | .completed => .ofProcess p 0 ""
  | .exited status => .ofProcess p (UInt8.ofNat (status % 256).toNat) ""
  | .uncaught exception =>
    let trace := match p.uncaught with
      | some t => t.text
      | none => ""
    .ofProcess p 1 ("uncaught exception " ++ exception.text ++ "\n" ++ trace)
  | .terminated s => .ofProcess p (UInt8.ofNat (128 + s.number)) ""

/-- What a program leaves behind that a fault ended. -/
def reportFault (p : Process) (fault : Fault) : Report :=
  .ofProcess p 1 ("error: " ++ fault.message ++ "\n" ++ (p.traceback tracebackLimit).text)

/-- Starts and runs the program of a process. -/
def runProgram (turns : Nat) : Exec Outcome := do
  let (started, p) := (← get).start
  set p
  if ← Exec.lift started then
    match ← Exec.run turns with
    | some outcome => pure outcome
    | none => pure .completed
  else pure .completed

/-- Runs a compartment for at most `turns` turns. -/
def execute (options : ProcessOptions) (turns : Nat) (c : Compartment) : Report :=
  match options.newProcess (.new none) with
  | .error fault => .failure 2 fault.message
  | .ok p =>
    match runProgram turns (p.load c).2 with
    | .ok outcome p => reportOutcome p outcome
    | .error fault p => reportFault p fault

variable {m : Type → Type} [Monad m] [Host m]

/-- Writes the program to another file. -/
def emitTo (file path : String) : ExceptT LoadError m Report := do
  (← Container.read file).write path
  return .success ""

/-- Lists or runs the program. -/
def useProgram (c : Command) (turns : Nat) : ExceptT LoadError m Report := do
  let program ← Compartment.read c.file
  return if c.dump then .success program.listing else execute c.options turns program

/-- Does what the command is asked to do. A program runs for at most `turns` turns. -/
def perform (c : Command) (turns : Nat) : m Report := do
  let work := match c.emit with
    | some path => emitTo c.file path
    | none => c.useProgram turns
  match ← work.run with
  | .ok report => return report
  | .error e => return .failure 1 e.message

end Command

end ObjectVM
