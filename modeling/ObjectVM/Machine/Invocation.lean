import ObjectVM.KeyMap
import ObjectVM.Machine.Fault

/-!
# Invocations

The arguments of one call. The caller stages them before the call; the callee takes them, the
positional ones in order and the named ones by key. Positional arguments stay on the list when they
are taken, so what was passed remains alive during the call.

Specification: 4.3 and B.4.8.
-/
namespace ObjectVM

/-- Arguments for a call of `callee`; the first `taken` positional ones have been taken. Mirrors
`InvocationCtx`. -/
structure Invocation where
  callee : ClosureRef
  positional : List ObjectId
  taken : Nat
  named : KeyMap ObjectId
  deriving DecidableEq

namespace Invocation

/-- A call without arguments. -/
def new (callee : ClosureRef) : Invocation := ⟨callee, [], 0, ∅⟩

/-- Adds a positional argument. Mirrors `put_param`. -/
def put (i : Invocation) (id : ObjectId) : Invocation :=
  { i with positional := i.positional ++ [id] }

/-- Adds positional arguments in order. -/
def putAll (i : Invocation) (ids : List ObjectId) : Invocation :=
  { i with positional := i.positional ++ ids }

/-- The positional arguments not yet taken. -/
def remaining (i : Invocation) : List ObjectId := i.positional.drop i.taken

/-- Whether a positional argument is left. Mirrors `has_params`. -/
def hasMore (i : Invocation) : Bool := i.taken < i.positional.length

/-- Takes the next positional argument. Mirrors `pop_param`. -/
def takeNext (i : Invocation) : Except Fault (ObjectId × Invocation) :=
  match i.positional[i.taken]? with
  | some id => .ok (id, { i with taken := i.taken + 1 })
  | none => .error (.missingParameter none)

/-- Takes all positional arguments that are left. Mirrors `take_params`. -/
def takeRemaining (i : Invocation) : List ObjectId × Invocation :=
  (i.remaining, { i with taken := i.positional.length })

/-- Adds a named argument, in place of an earlier one of that name. Mirrors
`put_param_value_pair`. -/
def putNamed (i : Invocation) (key : UInt64) (id : ObjectId) : Invocation :=
  { i with named := i.named.insert key id }

/-- Adds named arguments. -/
def putAllNamed (i : Invocation) (entries : KeyMap ObjectId) : Invocation :=
  { i with named := i.named.insertAll entries.entries }

/-- Takes the named argument `key`. Mirrors `pop_param_value_pair`. -/
def takeNamed (i : Invocation) (key : UInt64) : Except Fault (ObjectId × Invocation) :=
  match i.named.get? key with
  | some id => .ok (id, { i with named := i.named.erase key })
  | none => .error (.missingParameter (some key))

/-- Takes all named arguments that are left. Mirrors `take_param_value_pairs`. -/
def takeAllNamed (i : Invocation) : KeyMap ObjectId × Invocation :=
  (i.named, { i with named := ∅ })

/-- The objects that the invocation keeps alive. -/
def objectIds (i : Invocation) : List ObjectId := i.positional ++ i.named.values

end Invocation

end ObjectVM
