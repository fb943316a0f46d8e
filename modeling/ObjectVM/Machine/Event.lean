import ObjectVM.Code.Instruction
import ObjectVM.Machine.Signal

/-!
# Events

What a machine notes about itself while it works, by how serious it is. A journal keeps the events
that are at least as serious as its limit.

Specification: B.2.1 and B.4.4.
-/
namespace ObjectVM

/-- How a run ended. Mirrors `RunOutcome`. -/
inductive Outcome where
  | completed
  | exited (status : Int)
  | uncaught (exception : ObjectId)
  | terminated (s : Signal)
  deriving DecidableEq, Repr

/-- How an outcome is noted. -/
def Outcome.note : Outcome → String
  | .completed => "Completed"
  | .exited status => "Exited(" ++ Decimal.intText status ++ ")"
  | .uncaught id =>
    "UncaughtException(ObjectId \x7b index: " ++ Decimal.natText id.index.toNat ++
      ", generation: " ++ Decimal.natText id.generation.toNat ++ " \x7d)"
  | .terminated s => "Terminated(" ++ s.tag ++ ")"

/-- How serious an event is. -/
inductive Severity where
  | error
  | warn
  | info
  | debug
  | trace
  deriving DecidableEq, Repr

namespace Severity

/-- Place in the order, the most serious first. -/
def rank : Severity → Nat
  | .error => 1 | .warn => 2 | .info => 3 | .debug => 4 | .trace => 5

/-- How the severity is written. -/
def name : Severity → String
  | .error => "ERROR" | .warn => "WARN" | .info => "INFO" | .debug => "DEBUG" | .trace => "TRACE"

end Severity

/-- Something worth noting. -/
inductive Event where
  | containerRead (path : String) (closures : Nat)
  | loaded (path : String)
  | entered (closure : String)
  | runStarted (frames : Nat)
  | runHalted (outcome : Outcome)
  | runCompleted
  | fetched (closure : ClosureRef) (index : Nat) (i : Instruction)
  | called (name : String) (closure : ClosureRef) (depth : Nat)
  | returned (closure : ClosureRef) (depth : Nat)
  | caught (exception : ObjectId) (closure : ClosureRef) (target : Nat)
  | uncaught (exception : ObjectId)
  | collectionStarted (objects handles : Nat)
  | reclaimed (id : ObjectId)
  | collectionEnded (marked collected : Nat)
  | signalIgnored (s : Signal)
  | signalVectored (s : Signal)
  | signalTerminates (s : Signal)
  | signalFatal (s : Signal)
  | exiting (status : Int)
  | wasReset

namespace Event

/-- How serious the event is. -/
def severity : Event → Severity
  | .uncaught _ | .signalFatal _ => .warn
  | .fetched .. | .reclaimed _ => .trace
  | _ => .debug

/-- The event in words. -/
def text : Event → String
  | .containerRead path n =>
    "read container `" ++ path ++ "` with " ++ Decimal.natText n ++ " closure(s)"
  | .loaded path => "loaded compartment `" ++ path ++ "`"
  | .entered name => "pre_start: entering `" ++ name ++ "`"
  | .runStarted n => "run: " ++ Decimal.natText n ++ " frame(s)"
  | .runHalted outcome => "run: halted with " ++ outcome.note
  | .runCompleted => "run: completed"
  | .fetched closure index i => closure.text ++ " " ++ Decimal.columnText index ++ "  " ++ i.text
  | .called name closure depth =>
    "call: `" ++ name ++ "` " ++ closure.text ++ " at depth " ++ Decimal.natText depth
  | .returned closure depth =>
    "return: " ++ closure.text ++ " to depth " ++ Decimal.natText depth
  | .caught id closure target =>
    "exception " ++ id.text ++ " caught at " ++ closure.text ++ " " ++ Decimal.natText target
  | .uncaught id => "uncaught exception " ++ id.text
  | .collectionStarted objects handles =>
    "gc: pause with " ++ Decimal.natText objects ++ " object(s), " ++ Decimal.natText handles
      ++ " handle(s)"
  | .reclaimed id => "gc: collected " ++ id.text
  | .collectionEnded marked collected =>
    "gc: resume, marked " ++ Decimal.natText marked ++ " collected " ++ Decimal.natText collected
  | .signalIgnored s => "signal: " ++ s.name ++ " ignored"
  | .signalVectored s => "signal: " ++ s.name ++ " runs its vector"
  | .signalTerminates s => "signal: " ++ s.name ++ " terminates the run"
  | .signalFatal s => "signal: fatal " ++ s.name
  | .exiting status => "exit with status " ++ Decimal.intText status
  | .wasReset => "process reset"

end Event

/-- Noted events, the latest first. Without a limit nothing is kept. -/
structure Journal where
  limit : Option Severity
  events : List Event

namespace Journal

/-- A journal that keeps events down to `limit`. -/
def new (limit : Option Severity) : Journal := ⟨limit, []⟩

/-- Notes an event if it is serious enough. -/
def record (j : Journal) (e : Event) : Journal :=
  match j.limit with
  | some limit =>
    if e.severity.rank ≤ limit.rank then { j with events := e :: j.events } else j
  | none => j

/-- Notes several events in order. -/
def recordAll (j : Journal) (es : List Event) : Journal := es.foldl record j

/-- The kept events in the order in which they happened. -/
def toList (j : Journal) : List Event := j.events.reverse

end Journal

end ObjectVM
