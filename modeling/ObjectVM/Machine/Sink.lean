import ObjectVM.Machine.Signal

/-!
# Output

What a program has printed, and how the reader of its output behaves: it may raise signals when
certain lines are complete, or refuse to take anything.
-/
namespace ObjectVM

/-- Printed text and its reader. `alarms` lists, by number of the line that was completed, the
signals that the reader raises then. -/
structure Sink where
  text : String
  lines : Nat
  alarms : List (Nat × List Signal)
  closed : Bool
  deriving DecidableEq, Repr

namespace Sink

/-- A sink that takes everything and raises nothing. -/
def fresh : Sink := ⟨"", 0, [], false⟩

/-- Why a closed sink refuses. -/
def refusal : String := "sink closed"

/-- The signals raised when the lines after `lines` up to `lines + n` are completed. -/
def alarmsFor (s : Sink) (n : Nat) : List Signal :=
  (List.range n).flatMap fun i =>
    (s.alarms.filter fun a => a.1 == s.lines + i + 1).flatMap (·.2)

/-- Writes a text, unless there is nothing to write. Gives the signals that are raised by it. -/
def write (s : Sink) (t : String) : Except String (List Signal × Sink) :=
  if t.isEmpty then .ok ([], s)
  else if s.closed then .error refusal
  else
    let n := t.toList.count '\n'
    .ok (s.alarmsFor n, { s with text := s.text ++ t, lines := s.lines + n })

end Sink

end ObjectVM
