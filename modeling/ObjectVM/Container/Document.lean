import ObjectVM.Container.Basic
import ObjectVM.Json.Printer

/-!
# Containers as JSON

A container as a JSON object, for people to write and to read. Reading forgives what is missing
where a default makes sense: everything of a container, and of its records the operands, the parent,
the positions and the catch sites. Entries with other keys are ignored.
-/
namespace ObjectVM

open Json

namespace InstructionRecord

/-- Keys of a stored instruction. -/
def keys : List String := ["code", "oprd1", "oprd2"]

/-- A stored instruction as JSON. -/
def toTree (r : InstructionRecord) : Tree :=
  .ofFields (keys.zip [.ofNat r.code.toNat, .ofNat r.first.toNat, .ofNat r.second.toNat])

/-- The stored instruction that a JSON value describes. -/
def ofTree? (t : Tree) : Option InstructionRecord := do
  match ← t.fields? keys with
  | [code, first, second] =>
    some
      { code := ← Tree.required Tree.word16? code
        first := ← Tree.optional Tree.word64? 0 first
        second := ← Tree.optional Tree.word64? 0 second }
  | _ => none

end InstructionRecord

namespace PositionRecord

/-- Keys of a stored position. -/
def keys : List String := ["index", "lineno", "col_offset"]

/-- A stored position as JSON. -/
def toTree (r : PositionRecord) : Tree :=
  .ofFields (keys.zip [.ofNat r.index.toNat, .ofNat r.line.toNat, .ofNat r.column.toNat])

/-- The stored position that a JSON value describes. -/
def ofTree? (t : Tree) : Option PositionRecord := do
  match ← t.fields? keys with
  | [index, line, column] =>
    some
      { index := ← Tree.required Tree.word64? index
        line := ← Tree.required Tree.word32? line
        column := ← Tree.required Tree.word32? column }
  | _ => none

end PositionRecord

namespace CatchRecord

/-- Keys of a stored catch site. -/
def keys : List String := ["from", "to", "dst"]

/-- A stored catch site as JSON. -/
def toTree (r : CatchRecord) : Tree :=
  .ofFields (keys.zip [.ofNat r.first.toNat, .ofNat r.last.toNat, .ofNat r.target.toNat])

/-- The stored catch site that a JSON value describes. -/
def ofTree? (t : Tree) : Option CatchRecord := do
  match ← t.fields? keys with
  | [first, last, target] =>
    some
      { first := ← Tree.required Tree.word64? first
        last := ← Tree.required Tree.word64? last
        target := ← Tree.required Tree.word64? target }
  | _ => none

end CatchRecord

namespace ClosureRecord

/-- Keys of a stored closure. -/
def keys : List String := ["name", "id", "parent_id", "instructions", "locs", "catch_sites"]

/-- A stored closure as JSON. -/
def toTree (r : ClosureRecord) : Tree :=
  .ofFields (keys.zip
    [.ofText r.name, .ofNat r.id.toNat, .ofOption (fun p : UInt64 => .ofNat p.toNat) r.parent,
      .ofList InstructionRecord.toTree r.instructions, .ofList PositionRecord.toTree r.positions,
      .ofList CatchRecord.toTree r.catchSites])

/-- The stored closure that a JSON value describes. -/
def ofTree? (t : Tree) : Option ClosureRecord := do
  match ← t.fields? keys with
  | [name, id, parent, instructions, positions, catchSites] =>
    some
      { name := ← Tree.required Tree.text? name
        id := ← Tree.required Tree.word64? id
        parent := ← Tree.optional (Tree.nullable? Tree.word64?) none parent
        instructions := ← Tree.required (Tree.list? InstructionRecord.ofTree?) instructions
        positions := ← Tree.optional (Tree.list? PositionRecord.ofTree?) [] positions
        catchSites := ← Tree.optional (Tree.list? CatchRecord.ofTree?) [] catchSites }
  | _ => none

end ClosureRecord

namespace Container

/-- Keys of a container. -/
def keys : List String :=
  ["format", "format_version", "target_version", "path", "timestamp", "encoding", "author",
    "string_literal_table", "fpt_literal_table", "closures"]

/-- A container as a JSON value. -/
def toTree (c : Container) : Tree :=
  .ofFields (keys.zip
    [.ofText c.format, .ofText c.formatVersion, .ofText c.targetVersion, .ofText c.path,
      .ofNat c.timestamp.toNat, .ofText c.encoding, .ofText c.author, .ofList .ofText c.strings,
      .ofList .ofFloatBits c.floats, .ofList ClosureRecord.toTree c.closures])

/-- The container that a JSON value describes. -/
def ofTree? (t : Tree) : Option Container := do
  match ← t.fields? keys with
  | [format, formatVersion, targetVersion, path, timestamp, encoding, author, strings, floats,
      closures] =>
    some
      { format := ← Tree.optional Tree.text? "" format
        formatVersion := ← Tree.optional Tree.text? "" formatVersion
        targetVersion := ← Tree.optional Tree.text? "" targetVersion
        path := ← Tree.optional Tree.text? "" path
        timestamp := ← Tree.optional Tree.word64? 0 timestamp
        encoding := ← Tree.optional Tree.text? "" encoding
        author := ← Tree.optional Tree.text? "" author
        strings := ← Tree.optional (Tree.list? Tree.text?) [] strings
        floats := ← Tree.optional (Tree.list? Tree.floatBits?) [] floats
        closures := ← Tree.optional (Tree.list? ClosureRecord.ofTree?) [] closures }
  | _ => none

/-- The container as a JSON text. -/
def toJson (c : Container) : String := c.toTree.text

/-- The container that a JSON text describes. -/
def ofJson? (s : String) : Option Container := do
  ofTree? (← Tree.ofText? s)

end Container

end ObjectVM
