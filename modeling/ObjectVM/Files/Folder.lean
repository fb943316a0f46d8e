import ObjectVM.Binary.Codec
import ObjectVM.Files.Path

/-!
# Folders

A folder as a value: the files in it and in the folders below it, each with the way to it. A path is
followed name by name; nothing is known of what lies outside.
-/
namespace ObjectVM

/-- Files by the names that lead to them. -/
structure Folder where
  files : List (List String × Bytes)
  deriving DecidableEq, Repr

namespace Folder

/-- A folder without files. -/
def empty : Folder := ⟨[]⟩

/-- The content of the file that names lead to. -/
def file? (f : Folder) (way : List String) : Option Bytes := f.files.lookup way

/-- Whether names lead to a folder: to this one, or to one that holds something. -/
def isFolder (f : Folder) (way : List String) : Bool :=
  way.isEmpty || f.files.any fun e => way.isPrefixOf e.1 && way != e.1

/-- The folder with a file in place of the one that names led to, if any. -/
def put (f : Folder) (way : List String) (content : Bytes) : Folder :=
  ⟨(way, content) :: f.files.filter fun e => e.1 != way⟩

/-- One name further. `none` stands for any folder outside. -/
def enter (f : Folder) (at? : Option (List String)) (name : String) :
    Except FileFault (Option (List String)) :=
  if Path.isIdle name then .ok at?
  else
    match at? with
    | none => if name = ".." then .ok none else .error .notFound
    | some way =>
      if name = ".." then .ok (if way.isEmpty then none else some way.dropLast)
      else if f.isFolder (way ++ [name]) then .ok (some (way ++ [name]))
      else if (f.file? (way ++ [name])).isSome then .error .notFolder
      else .error .notFound

/-- Where a path starts: here, or outside if it starts with a slash. -/
def origin (names : List String) : Option (List String) :=
  if names.head? = some "" then none else some []

/-- The folder that names lead through to, and the last name. -/
def walk (f : Folder) (names : List String) :
    Except FileFault (Option (List String) × String) := do
  let place ← names.dropLast.foldlM f.enter (origin names)
  .ok (place, names.getLast?.getD "")

/-- Reads the file at a path. -/
def read (f : Folder) (path : String) : Except FileFault Bytes :=
  if path.isEmpty then .error .notFound
  else do
    let (place, name) ← f.walk (Path.parts path)
    if Path.isIdle name || name = ".." then .error .isFolder
    else
      match place with
      | none => .error .notFound
      | some way =>
        match f.file? (way ++ [name]) with
        | some content => .ok content
        | none => if f.isFolder (way ++ [name]) then .error .isFolder else .error .notFound

/-- The names of a path without the empty ones at its end. -/
def trimmed (names : List String) : List String := (names.reverse.dropWhile (· = "")).reverse

/-- Writes the file at a path. A path that ends in a slash leads to a folder. -/
def write (f : Folder) (path : String) (content : Bytes) : Except FileFault Folder :=
  let names := Path.parts path
  if path.isEmpty then .error .notFound
  else if (trimmed names).isEmpty then .error .isFolder
  else do
    let (place, name) ← f.walk (trimmed names)
    if trimmed names ≠ names || Path.isIdle name || name = ".." then .error .isFolder
    else
      match place with
      | none => .error .notFound
      | some way =>
        if f.isFolder (way ++ [name]) then .error .isFolder
        else .ok (f.put (way ++ [name]) content)

end Folder

end ObjectVM
