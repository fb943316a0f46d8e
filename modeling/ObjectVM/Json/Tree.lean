import ObjectVM.Json.Token

/-!
# JSON values

A JSON text as a tree, put together token by token: a reader knows what may come next and which
arrays and objects are still open, so the nesting of a text is not limited. Objects keep every entry
in order. A typed view asks a tree for what it wants and gets nothing if the tree is something else.
-/
namespace ObjectVM.Json

/-- A JSON value. A string is kept also if its escapes spell no text. -/
inductive Tree where
  | null
  | bool (b : Bool)
  | numeral (n : Numeral)
  | string (s : Option String)
  | array (items : List Tree)
  | object (entries : List (Option String × Tree))

/-- An array or object that is still open, with its content so far, the last first. `key` belongs to
the entry that comes next. -/
inductive Opened where
  | array (items : List Tree)
  | object (entries : List (Option String × Tree)) (key : Option String)

/-- What may come next: a value; an item or the end of the array; a key; a key or the end of the
object; the colon behind a key; what stands behind an item or entry; or nothing. -/
inductive Stage where
  | value
  | firstItem
  | key
  | firstKey
  | colon
  | next
  | done (t : Tree)

/-- A JSON text read so far. The innermost open array or object comes first. -/
structure Reader where
  opened : List Opened
  stage : Stage

namespace Reader

/-- Nothing read yet. -/
def start : Reader := ⟨[], .value⟩

/-- A value is complete: it goes to what was open around it. -/
def supply (t : Tree) : List Opened → Reader
  | [] => ⟨[], .done t⟩
  | .array items :: rest => ⟨.array (t :: items) :: rest, .next⟩
  | .object entries key :: rest => ⟨.object ((key, t) :: entries) none :: rest, .next⟩

/-- The innermost array ends. -/
def closeArray : List Opened → Option Reader
  | .array items :: rest => some (supply (.array items.reverse) rest)
  | _ => none

/-- The innermost object ends. -/
def closeObject : List Opened → Option Reader
  | .object entries _ :: rest => some (supply (.object entries.reverse) rest)
  | _ => none

/-- A comma: another item or entry follows. -/
def continue? : List Opened → Option Reader
  | .array items :: rest => some ⟨.array items :: rest, .value⟩
  | .object entries key :: rest => some ⟨.object entries key :: rest, .key⟩
  | [] => none

/-- A key of the innermost object. -/
def setKey (key : Option String) : List Opened → Option Reader
  | .object entries _ :: rest => some ⟨.object entries key :: rest, .colon⟩
  | _ => none

/-- A value begins. -/
def beginValue (opened : List Opened) : Token → Option Reader
  | .null => some (supply .null opened)
  | .bool b => some (supply (.bool b) opened)
  | .numeral n => some (supply (.numeral n) opened)
  | .string s => some (supply (.string s) opened)
  | .openArray => some ⟨.array [] :: opened, .firstItem⟩
  | .openObject => some ⟨.object [] none :: opened, .firstKey⟩
  | _ => none

/-- Reads one token. -/
def accept (r : Reader) (t : Token) : Option Reader :=
  match r.stage, t with
  | .value, t => beginValue r.opened t
  | .firstItem, .closeArray => closeArray r.opened
  | .firstItem, t => beginValue r.opened t
  | .key, .string s => setKey s r.opened
  | .firstKey, .string s => setKey s r.opened
  | .firstKey, .closeObject => closeObject r.opened
  | .colon, .colon => some ⟨r.opened, .value⟩
  | .next, .comma => continue? r.opened
  | .next, .closeArray => closeArray r.opened
  | .next, .closeObject => closeObject r.opened
  | _, _ => none

/-- The value that was read, if it is complete. -/
def result? (r : Reader) : Option Tree :=
  match r.stage with
  | .done t => some t
  | _ => none

end Reader

namespace Tree

/-- The value that tokens make up. -/
def ofTokens? (ts : List Token) : Option Tree := do
  (← ts.foldlM Reader.accept Reader.start).result?

/-- The value that a text writes, with nothing but blanks around it. -/
def ofText? (s : String) : Option Tree := do
  ofTokens? (← Token.ofText? s)

/-! ## Typed views -/

/-- A text. -/
def text? : Tree → Option String
  | .string s => s
  | _ => none

/-- A whole number below `limit`. -/
def nat? (limit : Nat) : Tree → Option Nat
  | .numeral n => n.toNat? limit
  | _ => none

/-- A whole number of 16 bits. -/
def word16? (t : Tree) : Option UInt16 := (t.nat? UInt16.size).map UInt16.ofNat

/-- A whole number of 32 bits. -/
def word32? (t : Tree) : Option UInt32 := (t.nat? UInt32.size).map UInt32.ofNat

/-- A whole number of 64 bits. -/
def word64? (t : Tree) : Option UInt64 := (t.nat? UInt64.size).map UInt64.ofNat

/-- The stored bits of a finite double. -/
def floatBits? : Tree → Option UInt64
  | .numeral n => n.toFloat?.map Float.toBits
  | _ => none

/-- A list of what `view` sees. -/
def list? (view : Tree → Option α) : Tree → Option (List α)
  | .array items => items.mapM view
  | _ => none

/-- What `view` sees, or null in its place. -/
def nullable? (view : Tree → Option α) : Tree → Option (Option α)
  | .null => some none
  | t => (view t).map some

/-- The value of the entry with a key; there may be none, but not two. -/
def entry (entries : List (Option String × Tree)) (key : String) : Option (Option Tree) :=
  match entries.filter fun e => e.1 == some key with
  | [] => some none
  | [e] => some (some e.2)
  | _ => none

/-- A record's fields in the order of `keys`, as far as they are there. A record is an object, which
may have more entries, or an array that ends after any field. -/
def fields? (keys : List String) : Tree → Option (List (Option Tree))
  | .object entries =>
    if entries.all fun e => e.1.isSome then keys.mapM (entry entries) else none
  | .array items =>
    if items.length ≤ keys.length then
      some (items.map some ++ List.replicate (keys.length - items.length) none)
    else none
  | _ => none

/-- A field that has to be there. -/
def required (view : Tree → Option α) (field : Option Tree) : Option α := field.bind view

/-- A field with a value for where it is missing. -/
def optional (view : Tree → Option α) (default : α) : Option Tree → Option α
  | some t => view t
  | none => some default

end Tree

end ObjectVM.Json
