import ObjectVM.Store.Heap

/-!
# Collection

Objects that can be reached stay, the others are reclaimed. An object is reached from a root, from a
pinned object, through an attribute of a reached object, or through the value in the handle of a
reached object. Ids that name nothing lead nowhere.

Specification: B.3.1.
-/
namespace ObjectVM

/-- What one collection did. `reclaimed` holds the ids that the collected objects had and `orphans`
the handles they leave behind, both in slot order. Mirrors `GcStats`. -/
structure Collection where
  marked : Nat
  reclaimed : List ObjectId
  orphans : List HandleKey
  deriving DecidableEq, Repr

namespace Heap

/-- The ids that an object leads to, given those that the value of a handle holds. Part of `gc`. -/
def successors (edges : HandleKey → List ObjectId) (o : Object) : List ObjectId :=
  o.attributes.values ++ match o.handle with
    | some key => edges key
    | none => []

/-- The ids from which collection sets out. Part of `gc`. -/
def rootIds (h : Heap) (roots : List ObjectId) : List ObjectId :=
  roots ++ (h.objects.filter fun (_, o) => o.hasFlag .pinned).map (·.1)

theorem count_false_set_true {marks : Array Bool} {i : Nat} (hi : i < marks.size)
    (h : marks[i] = false) : (marks.set i true).count false < marks.count false := by
  have hpos : 0 < marks.count false :=
    Array.count_pos_iff.mpr (h ▸ Array.getElem_mem hi)
  have hset := Array.count_set (b := false) (a := true) hi
  rw [if_pos (by rw [h]; rfl), if_neg (by decide)] at hset
  omega

/-- Marks the slots of every object that the ids to do lead to. Each id either leads nowhere new or
marks one more slot. Part of `gc`. -/
def mark (h : Heap) (edges : HandleKey → List ObjectId) (marks : Array Bool) :
    List ObjectId → Array Bool
  | [] => marks
  | id :: todo =>
    match h.get? id with
    | none => mark h edges marks todo
    | some o =>
      if hi : id.index.toNat < marks.size then
        match hm : marks[id.index.toNat] with
        | true => mark h edges marks todo
        | false => mark h edges (marks.set id.index.toNat true) (successors edges o ++ todo)
      else mark h edges marks todo
termination_by todo => (marks.count false, todo.length)
decreasing_by
  · exact Prod.Lex.right _ (by simp)
  · exact Prod.Lex.right _ (by simp)
  · exact Prod.Lex.left _ _ (count_false_set_true hi hm)
  · exact Prod.Lex.right _ (by simp)

/-- The slots that hold an object to reclaim, with the id and the handle it has. Part of `gc`. -/
def garbage (h : Heap) (marks : Array Bool) : List (ObjectId × Option HandleKey) :=
  h.slots.toList.zipIdx.filterMap fun (slot, i) =>
    match slot.object with
    | some o =>
      if marks.getD i false then none
      else some (⟨UInt32.ofNat i, slot.generation⟩, o.handle)
    | none => none

/-- Reclaims the objects in slots without a mark: each such slot is emptied, moves to its next
generation and becomes free. Part of `gc`. -/
def sweep (h : Heap) (marks : Array Bool) : Heap :=
  let freed := (h.garbage marks).map fun (id, _) => id.index
  { h with
    slots := h.slots.mapIdx fun i slot =>
      if slot.object.isSome && !marks.getD i false then ⟨slot.generation + 1, none⟩ else slot
    free := freed.reverse ++ h.free
    live := h.live - freed.length }

/-- Reclaims every object that cannot be reached. `edges` gives the ids that the value in a handle
holds. Mirrors `gc`. -/
def collect (h : Heap) (roots : List ObjectId) (edges : HandleKey → List ObjectId) :
    Collection × Heap :=
  let marks := h.mark edges (Array.replicate h.slots.size false) (h.rootIds roots)
  let garbage := h.garbage marks
  (⟨marks.count true, garbage.map (·.1), garbage.filterMap (·.2)⟩, h.sweep marks)

end Heap

end ObjectVM
