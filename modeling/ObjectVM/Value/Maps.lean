import ObjectVM.Value.Basic

/-!
# Operations on maps

Maps bind 64-bit keys to object ids. Each operation returns its result, or the map that takes the
place of its first operand.

Specification: B.6.
-/
namespace ObjectVM.Maps

/-- How many keys `m` binds. -/
def length (m : Value) : Except ValueError Value := do
  let entries ← m.asMap "maplen"
  .ok (Value.ofInt .uint64 entries.size)

/-- Whether `m` binds no key. -/
def isEmpty (m : Value) : Except ValueError Value := do
  let entries ← m.asMap "mapemp"
  .ok (.bool entries.isEmpty)

/-- Whether `m` binds `key`. -/
def find (m key : Value) : Except ValueError Value := do
  let k ← key.asKey "mapfind"
  let entries ← m.asMap "mapfind"
  .ok (.bool (entries.contains k))

/-- What `m` binds `key` to. -/
def at? (m key : Value) : Except ValueError ObjectId := do
  let k ← key.asKey "mapat"
  let entries ← m.asMap "mapat"
  match entries.get? k with
  | some id => .ok id
  | none => .error (.keyNotFound k)

/-- What the keys are bound to, in ascending key order. -/
def values (m : Value) : Except ValueError Value := do
  let entries ← m.asMap "mapvals"
  .ok (.array entries.values)

/-- `m` with `key` bound to `id`. -/
def put (m key : Value) (id : ObjectId) : Except ValueError Value := do
  let k ← key.asKey "mapput"
  let entries ← m.asMap "mapput"
  .ok (.map (entries.insert k id))

/-- `m` without `key`, which has to be bound. -/
def erase (m key : Value) : Except ValueError Value := do
  let k ← key.asKey "mapers"
  let entries ← m.asMap "mapers"
  if entries.contains k then .ok (.map (entries.erase k)) else .error (.keyNotFound k)

/-- No binding in place of those of `m`. -/
def clear (m : Value) : Except ValueError Value := do
  let _ ← m.asMap "mapclr"
  .ok (.map ∅)

/-- Two maps, each in place of the other. Mirrors `swap`. -/
def exchange (m n : Value) : Except ValueError (Value × Value) := do
  let n' ← n.asMap "mapswp"
  let m' ← m.asMap "mapswp"
  .ok (.map n', .map m')

/-- The bindings of `m`, and over them those of `n`. -/
def merge (m n : Value) : Except ValueError Value := do
  let n ← n.asMap "mapmrg"
  let m ← m.asMap "mapmrg"
  .ok (.map (m.insertAll n.entries))

end ObjectVM.Maps
