import ObjectVM.Decimal.Reading
import ObjectVM.Machine.Options

/-!
# Arguments of the command

The file that holds the program, and options before or behind it. An option that takes a value has
it in the next argument or behind an equals sign.
-/
namespace ObjectVM

/-- What the command is asked to do: to write the program to `emit`, else to list it if `dump` is
set, else to run it. -/
structure Command where
  file : String
  emit : Option String
  dump : Bool
  options : ProcessOptions

namespace Command

/-- How the command is called. -/
def usage : String :=
  "usage: objectvm FILE [--emit PATH] [--dump] [--heap-capacity N] [--pool-capacity N]\n"
    ++ "  [--max-call-depth N] [--gc-flag always|heap-size|pool-size]...\n"

/-- The command without arguments. -/
def initial : Command := ⟨"", none, false, .standard⟩

/-- A count in an argument. -/
def count? (s : String) : Option Nat := (Decimal.readInt 0 (UInt64.size - 1) s.toList).map Int.toNat

/-- The command with an option that takes a value. -/
def withOption? (c : Command) (name value : String) : Option Command :=
  match name with
  | "--emit" => some { c with emit := some value }
  | "--heap-capacity" => (count? value).map fun n =>
    { c with options := { c.options with heapCapacity := n } }
  | "--pool-capacity" => (count? value).map fun n =>
    { c with options := { c.options with poolCapacity := n } }
  | "--max-call-depth" => (count? value).map fun n =>
    { c with options := { c.options with maxCallDepth := n } }
  | "--gc-flag" => (GcRule.ofName? value).map fun rule =>
    { c with options := { c.options with rules := c.options.rules.update rule true } }
  | _ => none

/-- An option up to its first equals sign, and what stands behind that. -/
def splitOption (s : String) : String × Option String :=
  let cs := s.toList
  match cs.dropWhile (· ≠ '=') with
  | _ :: value => (String.ofList (cs.takeWhile (· ≠ '=')), some (String.ofList value))
  | [] => (s, none)

end Command

/-- Arguments read so far: the command they ask for, whether the file has been named, and the option
that waits for its value. -/
structure ArgumentReader where
  command : Command
  named : Bool
  awaiting : Option String

namespace ArgumentReader

/-- Reads one argument. -/
def accept (r : ArgumentReader) (a : String) : Option ArgumentReader :=
  match r.awaiting with
  | some name => (r.command.withOption? name a).map fun command =>
    { r with command, awaiting := none }
  | none =>
    if a = "--dump" then some { r with command := { r.command with dump := true } }
    else if a.toList.head? = some '-' then
      match Command.splitOption a with
      | (name, some value) => (r.command.withOption? name value).map fun command =>
        { r with command }
      | (name, none) => some { r with awaiting := some name }
    else if r.named then none
    else some { r with command := { r.command with file := a }, named := true }

/-- The command, if its file has been named and no option waits. -/
def command? (r : ArgumentReader) : Option Command :=
  if r.named && r.awaiting.isNone then some r.command else none

end ArgumentReader

/-- The command that arguments ask for. -/
def Command.ofArguments? (args : List String) : Option Command := do
  (← args.foldlM ArgumentReader.accept ⟨initial, false, none⟩).command?

end ObjectVM
