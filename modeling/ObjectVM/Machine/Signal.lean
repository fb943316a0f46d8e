/-!
# Signals

What a host can raise on a process while it runs. A timer signal is ignored. Any other signal runs
its vector if it has one; without a vector a request to stop ends the run, and the rest are fatal.

Specification: B.4.6.
-/
namespace ObjectVM

/-- What a signal is about. -/
inductive SignalCategory where
  | execution
  | termination
  | operation
  | timer
  deriving DecidableEq, Repr

/-- A signal. -/
inductive Signal where
  | fpe | ill | segv | bus
  | abrt | int | term | quit
  | pipe | io | urg | xcpu | xfsz
  | alrm | vtalrm | prof
  deriving DecidableEq, Repr

namespace Signal

/-- Every signal, category by category. -/
def all : List Signal :=
  [.fpe, .ill, .segv, .bus, .abrt, .int, .term, .quit, .pipe, .io, .urg, .xcpu, .xfsz, .alrm,
    .vtalrm, .prof]

/-- What the signal is about. -/
def category : Signal → SignalCategory
  | .fpe | .ill | .segv | .bus => .execution
  | .abrt | .int | .term | .quit => .termination
  | .pipe | .io | .urg | .xcpu | .xfsz => .operation
  | .alrm | .vtalrm | .prof => .timer

/-- How the signal is called. -/
def name : Signal → String
  | .fpe => "SIGFPE" | .ill => "SIGILL" | .segv => "SIGSEGV" | .bus => "SIGBUS"
  | .abrt => "SIGABRT" | .int => "SIGINT" | .term => "SIGTERM" | .quit => "SIGQUIT"
  | .pipe => "SIGPIPE" | .io => "SIGIO" | .urg => "SIGURG" | .xcpu => "SIGXCPU"
  | .xfsz => "SIGXFSZ" | .alrm => "SIGALRM" | .vtalrm => "SIGVTALRM" | .prof => "SIGPROF"

/-- The signal's number; a run that it ends has the exit status 128 above it. -/
def number : Signal → Nat
  | .fpe => 8 | .ill => 4 | .segv => 11 | .bus => 7
  | .abrt => 6 | .int => 2 | .term => 15 | .quit => 3
  | .pipe => 13 | .io => 29 | .urg => 23 | .xcpu => 24
  | .xfsz => 25 | .alrm => 14 | .vtalrm => 26 | .prof => 27

/-- The signal with the given name. -/
def ofName? (s : String) : Option Signal := all.find? (·.name == s)

/-- The bare name, without the letters that all names start with. -/
def tag : Signal → String
  | .fpe => "Fpe" | .ill => "Ill" | .segv => "Segv" | .bus => "Bus"
  | .abrt => "Abrt" | .int => "Int" | .term => "Term" | .quit => "Quit"
  | .pipe => "Pipe" | .io => "Io" | .urg => "Urg" | .xcpu => "Xcpu"
  | .xfsz => "Xfsz" | .alrm => "Alrm" | .vtalrm => "Vtalrm" | .prof => "Prof"

end Signal

/-- Signals raised and not yet taken, in the order in which they arrived. -/
structure SignalQueue where
  waiting : List Signal
  deriving DecidableEq, Repr

namespace SignalQueue

/-- A queue without signals. -/
def empty : SignalQueue := ⟨[]⟩

/-- Adds a signal behind those that wait. -/
def raise (q : SignalQueue) (s : Signal) : SignalQueue := ⟨q.waiting ++ [s]⟩

/-- Whether a signal waits. -/
def isPending (q : SignalQueue) : Bool := !q.waiting.isEmpty

/-- Takes all signals that wait. -/
def drain (q : SignalQueue) : List Signal × SignalQueue := (q.waiting, empty)

end SignalQueue

end ObjectVM
