import ObjectVM.Decimal.Digits
import ObjectVM.Program.Closure

/-!
# Tracebacks

The call stack as a list for people, the innermost frame first.

Specification: B.4.7.
-/
namespace ObjectVM

/-- One frame: its closure, the file it comes from, and where in it the frame stands. -/
structure TraceEntry where
  closure : String
  path : String
  index : Nat
  position : Option Position
  deriving DecidableEq, Repr

/-- The innermost frames, and how many were left out. -/
structure Traceback where
  entries : List TraceEntry
  omitted : Nat
  deriving DecidableEq, Repr

/-- A frame's line: with its source position, or else its instruction. -/
def TraceEntry.text (e : TraceEntry) : String :=
  let place := match e.position with
    | some p => ":" ++ Decimal.natText p.line.toNat ++ ":" ++ Decimal.natText p.column.toNat
    | none => ", instruction " ++ Decimal.natText e.index
  "  at " ++ e.closure ++ " (" ++ e.path ++ place ++ ")"

/-- The lines of a traceback. -/
def Traceback.text (t : Traceback) : String :=
  let lines := "Traceback (most recent call first):" :: t.entries.map TraceEntry.text
    ++ if t.omitted = 0 then [] else ["  ... " ++ Decimal.natText t.omitted ++ " more"]
  String.join (lines.map (· ++ "\n"))

end ObjectVM
