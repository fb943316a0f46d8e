/-!
# What refers to what

Small keys by which the parts of a machine name each other. An object is named by its slot and by
how often that slot has been reclaimed, so a name outlives its object without naming another; a
pooled handle is named by its slot alone; a closure by the compartment that holds it and its own
number there.
-/
namespace ObjectVM

/-- Names the object that slot `index` holds during its `generation`. -/
structure ObjectId where
  index : UInt32
  generation : UInt32
  deriving DecidableEq, Repr, Inhabited

namespace ObjectId

/-- The id as one word: the generation above the index. -/
def toRaw (id : ObjectId) : UInt64 :=
  (id.generation.toUInt64 <<< 32) ||| id.index.toUInt64

/-- The id packed in a word. -/
def ofRaw (raw : UInt64) : ObjectId :=
  ⟨raw.toUInt32, (raw >>> 32).toUInt32⟩

/-- Ids are ordered by index, then by generation. -/
protected def compare (a b : ObjectId) : Ordering :=
  (compare a.index b.index).then (compare a.generation b.generation)

/-- How an id is written: `@index:generation`. -/
def text (id : ObjectId) : String :=
  "@" ++ toString id.index.toNat ++ ":" ++ toString id.generation.toNat

end ObjectId

/-- Names a slot of the pool of handles. -/
structure HandleKey where
  slot : UInt32
  deriving DecidableEq, Repr, Inhabited

/-- How a handle's key is written: `ntv#slot`. -/
def HandleKey.text (key : HandleKey) : String := "ntv#" ++ toString key.slot.toNat

/-- Names a closure: the compartment it was loaded with and its number in that compartment. -/
structure ClosureRef where
  compartment : UInt64
  closure : UInt64
  deriving DecidableEq, Repr, Inhabited

namespace ClosureRef

/-- How a closure's name is written: `<compartment:closure>`. -/
def text (ref : ClosureRef) : String :=
  "<" ++ toString ref.compartment.toNat ++ ":" ++ toString ref.closure.toNat ++ ">"

/-- Closures are ordered by compartment, then by number. -/
protected def compare (a b : ClosureRef) : Ordering :=
  (compare a.compartment b.compartment).then (compare a.closure b.closure)

end ClosureRef

end ObjectVM
