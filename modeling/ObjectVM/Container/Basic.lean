import ObjectVM.Code.Instruction

/-!
# Containers

A compiled source file as it is stored: where it comes from, its tables of literals, and its
closures as plain numbers. Nothing is known yet of whether it can be run. Floats are kept as stored
bits, since the bits are what a file holds.
-/
namespace ObjectVM

/-- A stored instruction: a code, which need not be known, and two operands. -/
structure InstructionRecord where
  code : UInt16
  first : UInt64
  second : UInt64
  deriving DecidableEq, Repr

/-- A stored source position of an instruction. -/
structure PositionRecord where
  index : UInt64
  line : UInt32
  column : UInt32
  deriving DecidableEq, Repr

/-- A stored catch site. -/
structure CatchRecord where
  first : UInt64
  last : UInt64
  target : UInt64
  deriving DecidableEq, Repr

/-- A stored closure. -/
structure ClosureRecord where
  name : String
  id : UInt64
  parent : Option UInt64
  instructions : List InstructionRecord
  positions : List PositionRecord
  catchSites : List CatchRecord
  deriving DecidableEq, Repr

/-- A stored source file. -/
structure Container where
  format : String
  formatVersion : String
  targetVersion : String
  path : String
  timestamp : UInt64
  encoding : String
  author : String
  strings : List String
  floats : List UInt64
  closures : List ClosureRecord
  deriving DecidableEq, Repr

/-- An instruction as it is stored. -/
def InstructionRecord.ofInstruction (i : Instruction) : InstructionRecord :=
  ⟨i.op.code, i.first, i.second⟩

namespace Container

/-- The format that containers are written in. -/
def knownFormat : String := "pbvm"

/-- The version of the format. -/
def knownVersion : String := "1"

/-- A container with nothing in it, not even the name of a format. -/
def blank : Container := ⟨"", "", "", "", 0, "", "", [], [], []⟩

/-- A container for the source file at `path`, without literals and closures. -/
def new (path : String) : Container :=
  { blank with
    format := knownFormat
    formatVersion := knownVersion
    targetVersion := "0.1.0"
    path
    encoding := "utf-8" }

/-- Whether two float literals are the same number. No NaN is. -/
def sameFloat (a b : UInt64) : Bool := Float.ofBits a == Float.ofBits b

/-- Whether two containers hold the same, with float literals compared as numbers. -/
def agrees (c d : Container) : Bool :=
  { c with floats := [] } == { d with floats := [] }
    && c.floats.length == d.floats.length
    && (c.floats.zip d.floats).all fun (a, b) => sameFloat a b

end Container

end ObjectVM
