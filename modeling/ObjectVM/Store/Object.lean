import ObjectVM.KeyMap
import ObjectVM.Identity

/-!
# Objects

An object has no content of its own: attributes bind hashed names to other objects, at most one
pooled handle holds its value, and an optional closure makes it callable. Four flags protect it.

Specification: B.3.2.
-/
namespace ObjectVM

/-- A set of protection bits. -/
structure ObjectFlags where
  bits : UInt8
  deriving DecidableEq, Repr, Inhabited

namespace ObjectFlags

/-- No protection. -/
def none : ObjectFlags := ⟨0⟩

/-- Never reclaimed, and a root of collection. -/
def pinned : ObjectFlags := ⟨1⟩

/-- No variable and no attribute bound to the object may be deleted. -/
def indelible : ObjectFlags := ⟨2⟩

/-- The object cannot be called. -/
def uncallable : ObjectFlags := ⟨4⟩

/-- Attributes, handle and closure cannot be changed. -/
def immutable : ObjectFlags := ⟨8⟩

/-- Whether every bit of `flag` is in the set. -/
def contains (s flag : ObjectFlags) : Bool := s.bits &&& flag.bits == flag.bits

/-- The set with the bits of `flag`. Mirrors `with`. -/
def set (s flag : ObjectFlags) : ObjectFlags := ⟨s.bits ||| flag.bits⟩

/-- The set without the bits of `flag`. Mirrors `without`. -/
def clear (s flag : ObjectFlags) : ObjectFlags := ⟨s.bits &&& ~~~flag.bits⟩

end ObjectFlags

/-- An object. Mirrors `DynamicObject`. -/
structure Object where
  flags : ObjectFlags
  attributes : KeyMap ObjectId
  handle : Option HandleKey
  closure : Option ClosureRef
  deriving DecidableEq

namespace Object

/-- An object without attributes, value, closure or protection. -/
def blank : Object := ⟨.none, ∅, none, none⟩

instance : Inhabited Object := ⟨blank⟩

/-- Whether the object has every bit of `flag`. Mirrors `get_flag`. -/
def hasFlag (o : Object) (flag : ObjectFlags) : Bool := o.flags.contains flag

/-- The object with `flag` set or cleared. Mirrors `set_flag` and `clear_flag`. -/
def setFlag (o : Object) (flag : ObjectFlags) (on : Bool) : Object :=
  { o with flags := if on then o.flags.set flag else o.flags.clear flag }

/-- What the attribute with hash `key` is bound to. Mirrors `getattr`. -/
def attribute? (o : Object) (key : UInt64) : Option ObjectId := o.attributes.get? key

/-- The object with an attribute bound. Mirrors `putattr`. -/
def putAttribute (o : Object) (key : UInt64) (id : ObjectId) : Object :=
  { o with attributes := o.attributes.insert key id }

/-- The object without an attribute. Mirrors `delattr`. -/
def eraseAttribute (o : Object) (key : UInt64) : Object :=
  { o with attributes := o.attributes.erase key }

end Object

end ObjectVM
