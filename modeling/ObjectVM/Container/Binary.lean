import ObjectVM.Binary.Codec
import ObjectVM.Container.Basic

/-!
# Binary containers

A container as bytes: its fields in order. Bytes behind it are ignored.
-/
namespace ObjectVM

open Binary

/-- A stored instruction in bytes. -/
def InstructionRecord.codec : Codec InstructionRecord :=
  (Codec.word16.pair <| Codec.word64.pair Codec.word64).map
    (fun (code, first, second) => ⟨code, first, second⟩) fun r => (r.code, r.first, r.second)

/-- A stored position in bytes. -/
def PositionRecord.codec : Codec PositionRecord :=
  (Codec.word64.pair <| Codec.word32.pair Codec.word32).map
    (fun (index, line, column) => ⟨index, line, column⟩) fun r => (r.index, r.line, r.column)

/-- A stored catch site in bytes. -/
def CatchRecord.codec : Codec CatchRecord :=
  (Codec.word64.pair <| Codec.word64.pair Codec.word64).map
    (fun (first, last, target) => ⟨first, last, target⟩) fun r => (r.first, r.last, r.target)

/-- A stored closure in bytes. -/
def ClosureRecord.codec : Codec ClosureRecord :=
  (Codec.text.pair <| Codec.word64.pair <| Codec.word64.option.pair <|
      InstructionRecord.codec.list.pair <| PositionRecord.codec.list.pair
        CatchRecord.codec.list).map
    (fun (name, id, parent, instructions, positions, catchSites) =>
      ⟨name, id, parent, instructions, positions, catchSites⟩)
    fun r => (r.name, r.id, r.parent, r.instructions, r.positions, r.catchSites)

namespace Container

/-- A container in bytes. -/
def codec : Codec Container :=
  (Codec.text.pair <| Codec.text.pair <| Codec.text.pair <| Codec.text.pair <|
      Codec.word64.pair <| Codec.text.pair <| Codec.text.pair <| Codec.text.list.pair <|
      Codec.floatBits.list.pair ClosureRecord.codec.list).map
    (fun (format, formatVersion, targetVersion, path, timestamp, encoding, author, strings, floats,
        closures) =>
      ⟨format, formatVersion, targetVersion, path, timestamp, encoding, author, strings, floats,
        closures⟩)
    fun c =>
      (c.format, c.formatVersion, c.targetVersion, c.path, c.timestamp, c.encoding, c.author,
        c.strings, c.floats, c.closures)

/-- The container as bytes. -/
def toBytes (c : Container) : Bytes := codec.encode c

/-- The container that bytes start with. -/
def ofBytes (bytes : Bytes) : Except BinaryFault Container := do
  let (c, _) ← codec.decode bytes
  .ok c

end Container

end ObjectVM
