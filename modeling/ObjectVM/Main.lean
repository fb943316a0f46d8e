import ObjectVM.Command.Session

/-!
# The command

Reads and writes real files, prints the two texts and ends with the status.
-/
namespace ObjectVM

/-- Why the system refused a file. -/
def faultOf (e : IO.Error) : FileFault :=
  match e with
  | .noFileOrDirectory .. => .notFound
  | .inappropriateType _ code _ =>
    if code = 20 then .notFolder else if code = 21 then .isFolder else .other (toString e)
  | e => .other (toString e)

/-- A result, or why the system refused it. -/
def guarded (work : IO α) : IO (Except FileFault α) := do
  match ← work.toBaseIO with
  | .ok a => return .ok a
  | .error e => return .error (faultOf e)

instance : Host IO where
  readFile path := guarded do
    return (← IO.FS.readBinFile path).toList
  writeFile path content := guarded (IO.FS.writeBinFile path ⟨content.toArray⟩)
  note _ := pure ()

/-- More turns than any program is run for. -/
def turnLimit : Nat := Nat.pow 2 62

end ObjectVM

open ObjectVM in
/-- Runs the command. -/
def main (args : List String) : IO UInt32 := do
  match Command.ofArguments? args with
  | none =>
    (← IO.getStderr).putStr Command.usage
    return 2
  | some command =>
    let report : Report ← command.perform turnLimit
    (← IO.getStdout).putStr report.output
    (← IO.getStderr).putStr report.errors
    return report.status.toUInt32
