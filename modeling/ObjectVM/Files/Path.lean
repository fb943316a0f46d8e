/-!
# Paths of files

A path is a list of names between slashes. The last name decides what a file holds: one that ends in
`.json`, in letters of either case and with something before the point, holds JSON.
-/
namespace ObjectVM

/-- Why a file is not read or written. -/
inductive FileFault where
  | notFound
  | notFolder
  | isFolder
  | notText
  | other (reason : String)
  deriving DecidableEq, Repr

/-- The fault in words. -/
def FileFault.message : FileFault → String
  | .notFound => "No such file or directory (os error 2)"
  | .notFolder => "Not a directory (os error 20)"
  | .isFolder => "Is a directory (os error 21)"
  | .notText => "stream did not contain valid UTF-8"
  | .other reason => reason

namespace Path

/-- The names between the slashes of a path, behind those in `done` and the one begun in `name`. Of
both the last comes first. -/
def split (done : List String) (name : List Char) : List Char → List String
  | [] => (String.ofList name.reverse :: done).reverse
  | c :: cs =>
    if c = '/' then split (String.ofList name.reverse :: done) [] cs
    else split done (c :: name) cs

/-- The names between the slashes of a path. Some may be empty. -/
def parts (path : String) : List String := split [] [] path.toList

/-- Whether a name leads nowhere else. -/
def isIdle (name : String) : Bool := name = "" || name = "."

/-- The name of what a path leads to, unless that is given only by the way there. -/
def name? (path : String) : Option String :=
  ((parts path).filter fun name => !isIdle name).getLast?.filter (· ≠ "..")

/-- What stands behind the last point of a name, unless nothing stands before it. -/
def extension? (name : String) : Option String :=
  let cs := name.toList.reverse
  match cs.dropWhile (· ≠ '.') with
  | _ :: _ :: _ => some (String.ofList (cs.takeWhile (· ≠ '.')).reverse)
  | _ => none

/-- Whether a path leads to a file that holds JSON. -/
def isJson (path : String) : Bool :=
  ((name? path).bind extension?).any fun e => e.toList.map Char.toLower == "json".toList

end Path

end ObjectVM
