import ObjectVM.Value.Basic

/-!
# Operations on arrays

Arrays hold object ids. An element is named by its index from zero; a bound between elements may
also be the length. Each operation returns its result, or the array that takes the place of its
first operand.

Specification: B.6.
-/
namespace ObjectVM.Arrays

/-- The index of an element of an array of `n` elements. -/
def slot (operation : String) (n : Nat) (index : Value) : Except ValueError Nat := do
  let i ← index.asIndex operation
  if 0 ≤ i ∧ i < n then .ok i.toNat else .error (.indexOutOfRange i n)

/-- A bound between the elements of an array of `n` elements. -/
def bound (operation : String) (n : Nat) (index : Value) : Except ValueError Nat := do
  let i ← index.asIndex operation
  if 0 ≤ i ∧ i ≤ n then .ok i.toNat else .error (.indexOutOfRange i n)

/-- The element that an operation on an empty array misses. Mirrors `empty`. -/
def element (operation : String) (id : Option ObjectId) : Except ValueError ObjectId :=
  match id with
  | some id => .ok id
  | none => .error (.argument operation .emptyArray)

/-- Every `step`-th item, counted from the first; `skip` items are passed over before it. Part of
`stride`. -/
def every (step skip : Nat) : List ObjectId → List ObjectId
  | [] => []
  | x :: xs =>
    match skip with
    | 0 => x :: every step (step - 1) xs
    | skip + 1 => every step skip xs

/-- How many elements `a` has. -/
def length (a : Value) : Except ValueError Value := do
  let items ← a.asArray "arylen"
  .ok (Value.ofInt .uint64 items.length)

/-- Whether `a` has no element. -/
def isEmpty (a : Value) : Except ValueError Value := do
  let items ← a.asArray "aryemp"
  .ok (.bool items.isEmpty)

/-- The element at `index`. -/
def at? (a index : Value) : Except ValueError ObjectId := do
  let items ← a.asArray "aryat"
  let i ← slot "aryat" items.length index
  .ok (items.getD i default)

/-- The first element. -/
def front (a : Value) : Except ValueError ObjectId := do
  let items ← a.asArray "aryfrt"
  element "aryfrt" items.head?

/-- The last element. -/
def back (a : Value) : Except ValueError ObjectId := do
  let items ← a.asArray "arybak"
  element "arybak" items.getLast?

/-- The elements from `start` up to but without `stop`. -/
def slice (a start stop : Value) : Except ValueError Value := do
  let items ← a.asArray "aryslice"
  let i ← bound "aryslice" items.length start
  let j ← bound "aryslice" items.length stop
  if i > j then .error (.argument "aryslice" .startPastStop)
  else .ok (.array ((items.take j).drop i))

/-- Every `step`-th element, beginning with the first. -/
def stride (a step : Value) : Except ValueError Value := do
  let items ← a.asArray "arystrd"
  let n ← step.asIndex "arystrd"
  if n ≤ 0 then .error (.argument "arystrd" .strideNotPositive)
  else .ok (.array (every n.toNat 0 items))

/-- `a` with `id` as its element at `index`. -/
def put (a index : Value) (id : ObjectId) : Except ValueError Value := do
  let items ← a.asArray "aryput"
  let i ← slot "aryput" items.length index
  .ok (.array (items.set i id))

/-- `a` with one more element at its end. -/
def append (a : Value) (id : ObjectId) : Except ValueError Value := do
  let items ← a.asArray "aryapnd"
  .ok (.array (items ++ [id]))

/-- `a` without its element at `index`. -/
def erase (a index : Value) : Except ValueError Value := do
  let items ← a.asArray "aryers"
  let i ← slot "aryers" items.length index
  .ok (.array (items.eraseIdx i))

/-- `a` without its last element, and that element. -/
def pop (a : Value) : Except ValueError (Value × ObjectId) := do
  let items ← a.asArray "arypop"
  let id ← element "arypop" items.getLast?
  .ok (.array items.dropLast, id)

/-- Two arrays, each in place of the other. Mirrors `swap`. -/
def exchange (a b : Value) : Except ValueError (Value × Value) := do
  let b' ← b.asArray "aryswp"
  let a' ← a.asArray "aryswp"
  .ok (.array b', .array a')

/-- No element in place of those of `a`. -/
def clear (a : Value) : Except ValueError Value := do
  let _ ← a.asArray "aryclr"
  .ok (.array [])

/-- The elements of `a` followed by those of `b`. -/
def merge (a b : Value) : Except ValueError Value := do
  let b ← b.asArray "arymrg"
  let a ← a.asArray "arymrg"
  .ok (.array (a ++ b))

/-- The elements of `a` back to front. -/
def reverse (a : Value) : Except ValueError Value := do
  let items ← a.asArray "aryrev"
  .ok (.array items.reverse)

end ObjectVM.Arrays
