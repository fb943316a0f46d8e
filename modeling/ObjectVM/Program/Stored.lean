import ObjectVM.Container.Binary
import ObjectVM.Container.Document
import ObjectVM.Files.Folder
import ObjectVM.Machine.Event
import ObjectVM.Program.Load

/-!
# Stored programs

Containers in files: as JSON where the file's name says so, in binary elsewhere. Reading and writing
are asked of a host, which is the world outside or a folder held as a value.
-/
namespace ObjectVM

/-- What a stored program asks of its surroundings. -/
class Host (m : Type → Type) where
  readFile : String → m (Except FileFault Bytes)
  writeFile : String → Bytes → m (Except FileFault Unit)
  note : Event → m Unit

/-- A folder, and what was noted while working in it. -/
structure Workspace where
  folder : Folder
  journal : Journal

instance : Host (StateM Workspace) where
  readFile path := do
    return (← get).folder.read path
  writeFile path content := do
    match (← get).folder.write path content with
    | .ok folder =>
      modify fun w => { w with folder }
      return .ok ()
    | .error fault => return .error fault
  note e := modify fun w => { w with journal := w.journal.record e }

namespace Container

/-- The container in the content of the file at `path`. -/
def ofFile (path : String) (content : Bytes) : Except LoadError Container :=
  if Path.isJson path then
    match String.fromUTF8? ⟨content.toArray⟩ with
    | none => .error (.inaccessible path .notText)
    | some text =>
      match ofJson? text with
      | some c => .ok c
      | none => .error .invalidJson
  else (ofBytes content).mapError .invalidBinary

/-- The content of the file at `path` that stores the container. -/
def toFile (c : Container) (path : String) : Bytes :=
  if Path.isJson path then c.toJson.toUTF8.toList else c.toBytes

variable {m : Type → Type} [Monad m] [Host m]

/-- Reads the container in a file. -/
def read (path : String) : ExceptT LoadError m Container := do
  match ← Host.readFile (m := m) path with
  | .error fault => throw (.inaccessible path fault)
  | .ok content =>
    let c ← ExceptT.mk (pure (ofFile path content))
    Host.note (m := m) (.containerRead path c.closures.length)
    return c

/-- Writes the container to a file. -/
def write (c : Container) (path : String) : ExceptT LoadError m Unit := do
  match ← Host.writeFile (m := m) path (c.toFile path) with
  | .error fault => throw (.inaccessible path fault)
  | .ok () => return ()

/-- The container under the name of its file, if it has no name of its own. -/
def named (c : Container) (path : String) : Container :=
  if c.path = "" then { c with path } else c

end Container

/-- Loads the program in a file. -/
def Compartment.read {m : Type → Type} [Monad m] [Host m] (path : String) :
    ExceptT LoadError m Compartment := do
  let c ← Container.read path
  ExceptT.mk (pure (Compartment.ofContainer (c.named path)))

end ObjectVM
