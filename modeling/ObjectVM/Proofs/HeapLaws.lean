import ObjectVM.Proofs.Tally
import ObjectVM.Store.Heap

/-!
# Laws of the heap

What the operations on a heap do to the objects that its ids name, and that they keep its books
(`Heap.WellFormed`).

* `get?_put`, `get?_allocate`: an edit and a creation change one id and no other.
* `mem_objects`, `length_objects`: the listing has every object once.
* `put_wellFormed`, `allocate_wellFormed`: the books are kept.
-/
namespace ObjectVM.Heap

/-- The free list and the count of a heap agree with its slots. -/
def WellFormed (h : Heap) : Prop := Tally (·.object.isSome) h.slots h.free h.live h.capacity

variable {h : Heap} {id j : ObjectId} {o : Object}

theorem get?_eq_some_iff :
    h.get? id = some o ↔ h.slots[id.index.toNat]? = some ⟨id.generation, some o⟩ := by
  unfold get?
  cases hs : h.slots[id.index.toNat]? with
  | none => simp
  | some slot =>
    obtain ⟨g, x⟩ := slot
    by_cases hg : g = id.generation
    · simp [hg]
    · simp [hg]

theorem contains_iff : h.contains id = true ↔ ∃ o, h.get? id = some o := by
  rw [contains, Option.isSome_iff_exists]

theorem contains_of_get? (ho : h.get? id = some o) : h.contains id = true :=
  contains_iff.mpr ⟨o, ho⟩

theorem find_eq (h : Heap) (id : ObjectId) :
    h.find id = (h.get? id).elim (.error (.objectNotFound id)) .ok := by
  unfold find; cases h.get? id <;> rfl

/-- The ids of one slot that name an object are one id. -/
theorem eq_of_index_eq (hi : h.contains id = true) (hj : h.contains j = true)
    (e : id.index = j.index) : id = j := by
  obtain ⟨o, ho⟩ := contains_iff.mp hi
  obtain ⟨o', ho'⟩ := contains_iff.mp hj
  rw [get?_eq_some_iff] at ho ho'
  rw [e, ho'] at ho
  simp only [Option.some.injEq, Slot.mk.injEq] at ho
  cases id; cases j; simp_all

theorem get?_empty (capacity : Nat) (id : ObjectId) : (empty capacity).get? id = none := by
  simp [get?, empty]

theorem empty_wellFormed {capacity : Nat} (hc : capacity ≤ UInt32.size) :
    (empty capacity).WellFormed := Tally.empty hc

/-! ## Edits -/

theorem put_slots (ho : h.get? id = some o) (o' : Object) :
    (h.put id o').slots = h.slots.setIfInBounds id.index.toNat ⟨id.generation, some o'⟩ := by
  rw [put, Tally.modify_eq_set (get?_eq_some_iff.mp ho)]

theorem get?_put (ho : h.get? id = some o) (o' : Object) (j : ObjectId) :
    (h.put id o').get? j = if j = id then some o' else h.get? j := by
  have hs := get?_eq_some_iff.mp ho
  have hj : (h.put id o').slots[j.index.toNat]? =
      if id.index.toNat = j.index.toNat then some ⟨id.generation, some o'⟩
      else h.slots[j.index.toNat]? := by
    rw [put_slots ho, Tally.getElem?_setIfInBounds_eq hs]
  by_cases hi : id.index = j.index
  · rw [hi] at hj hs
    simp only [get?, hj, if_true]
    by_cases hg : id.generation = j.generation
    · have : j = id := by cases j; cases id; simp_all
      simp [hg, this]
    · have : j ≠ id := fun e => hg (by rw [e])
      simp [hg, this, hs]
  · have hn : id.index.toNat ≠ j.index.toNat := fun e => hi (UInt32.toNat_inj.mp e)
    have : j ≠ id := fun e => hi (by rw [e])
    simp only [get?, hj, if_neg hn, if_neg this]

theorem contains_put (ho : h.get? id = some o) (o' : Object) (j : ObjectId) :
    (h.put id o').contains j = h.contains j := by
  rw [contains, contains, get?_put ho]
  split
  · next e => rw [e, ho]; rfl
  · rfl

theorem put_wellFormed (hw : h.WellFormed) (ho : h.get? id = some o) (o' : Object) :
    (h.put id o').WellFormed := by
  unfold WellFormed
  rw [put_slots ho]
  exact hw.edit (get?_eq_some_iff.mp ho) rfl

/-! ## Creation -/

theorem live_lt (hr : h.isFull = false) : h.live < h.capacity := by
  simpa [isFull] using hr

/-- A creation fills an empty slot or adds one, and names it. -/
theorem allocate_slots (hw : h.WellFormed) :
    (∃ free g, h.free = h.allocate.1.index :: free ∧
        h.slots[h.allocate.1.index.toNat]? = some ⟨g, none⟩ ∧ h.allocate.1.generation = g ∧
        h.allocate.2 = { h with
          slots := h.slots.setIfInBounds h.allocate.1.index.toNat ⟨g, some .blank⟩, free,
          live := h.live + 1 }) ∨
      (h.free = [] ∧ h.allocate.1 = ⟨UInt32.ofNat h.slots.size, 0⟩ ∧
        h.allocate.2 = { h with slots := h.slots.push ⟨0, some .blank⟩, live := h.live + 1 }) := by
  cases hf : h.free with
  | nil => exact .inr ⟨rfl, by simp [allocate, hf], by simp [allocate, hf]⟩
  | cons i free =>
    obtain ⟨⟨g, x⟩, hs, hx⟩ := (hw.mem_free i).mp (by rw [hf]; exact List.mem_cons_self)
    simp only [Option.isSome_eq_false_iff, Option.isNone_iff_eq_none] at hx
    subst hx
    refine .inl ⟨free, g, by simp [allocate, hf], ?_⟩
    simp [allocate, hf, hs, Tally.modify_eq_set hs]

theorem allocate_wellFormed (hw : h.WellFormed) (hr : h.isFull = false) :
    h.allocate.2.WellFormed := by
  unfold WellFormed at hw ⊢
  rcases allocate_slots hw with ⟨free, g, hf, -, -, e⟩ | ⟨hf, -, e⟩
  · rw [e]
    rw [hf] at hw
    exact hw.reuse rfl
  · rw [e]
    rw [hf] at hw ⊢
    exact hw.grow (live_lt hr) rfl

theorem toNat_ofNat_size (hw : h.WellFormed) (hr : h.isFull = false) (hf : h.free = []) :
    (UInt32.ofNat h.slots.size).toNat = h.slots.size := by
  unfold WellFormed at hw
  rw [hf] at hw
  exact hw.toNat_size (live_lt hr)

/-- The new id named nothing before. -/
theorem get?_allocate_fresh (hw : h.WellFormed) (hr : h.isFull = false) :
    h.get? h.allocate.1 = none := by
  rcases allocate_slots hw with ⟨free, g, -, hs, -, -⟩ | ⟨hf, hid, -⟩
  · simp [get?, hs]
  · simp [get?, hid, toNat_ofNat_size hw hr hf]

theorem get?_allocate (hw : h.WellFormed) (hr : h.isFull = false) (j : ObjectId) :
    h.allocate.2.get? j = if j = h.allocate.1 then some .blank else h.get? j := by
  rcases allocate_slots hw with ⟨free, g, -, hs, hg, e⟩ | ⟨hf, hid, e⟩
  · rw [e]
    generalize h.allocate.1 = id at *
    subst hg
    simp only [get?, Tally.getElem?_setIfInBounds_eq hs]
    by_cases hi : id.index = j.index
    · rw [hi] at hs
      by_cases hg : id.generation = j.generation
      · have : j = id := by cases j; cases id; simp_all
        simp [hi, hg, this]
      · have : j ≠ id := fun e => hg (by rw [e])
        simp [hi, hg, this, hs]
    · have hn : id.index.toNat ≠ j.index.toNat := fun e => hi (UInt32.toNat_inj.mp e)
      have : j ≠ id := fun e => hi (by rw [e])
      simp [hn, this]
  · have hn := toNat_ofNat_size hw hr hf
    rw [e, hid]
    simp only [get?, Array.getElem?_push]
    by_cases hj : j.index.toNat = h.slots.size
    · have hi : j.index = UInt32.ofNat h.slots.size := by rw [← UInt32.toNat_inj, hn, hj]
      by_cases hg : j.generation = 0
      · have : j = ⟨UInt32.ofNat h.slots.size, 0⟩ := by cases j; simp_all
        simp [this, hn]
      · have : j ≠ ⟨UInt32.ofNat h.slots.size, 0⟩ := fun e => hg (by rw [e])
        simp [hj, this, Ne.symm hg]
    · have : j ≠ ⟨UInt32.ofNat h.slots.size, 0⟩ := fun e => hj (by rw [e, hn])
      simp [hj, this]

theorem contains_allocate_of_contains (hw : h.WellFormed) (hr : h.isFull = false)
    (hj : h.contains j = true) : h.allocate.2.contains j = true := by
  rw [contains, get?_allocate hw hr]
  split
  · rfl
  · exact hj

theorem allocate_capacity (h : Heap) : h.allocate.2.capacity = h.capacity := by
  unfold allocate; split <;> rfl

theorem allocate_live (h : Heap) : h.allocate.2.live = h.live + 1 := by
  unfold allocate; split <;> rfl

theorem allocateEach_wellFormed (n : Nat) : ∀ {h : Heap} (made : List ObjectId), h.WellFormed →
    n ≤ h.capacity - h.live → (h.allocateEach made n).2.WellFormed := by
  induction n with
  | zero => intro h made hw _; exact hw
  | succ n ih =>
    intro h made hw hn
    have hr : h.isFull = false := by simp [isFull]; omega
    have hn' : n ≤ h.allocate.2.capacity - h.allocate.2.live := by
      rw [allocate_capacity, allocate_live]; omega
    exact ih _ (allocate_wellFormed hw hr) hn'

/-! ## The listing -/

theorem mem_objects (hw : h.WellFormed) : (id, o) ∈ h.objects ↔ h.get? id = some o := by
  rw [get?_eq_some_iff, objects, List.mem_filterMap]
  constructor
  · rintro ⟨⟨⟨g, x⟩, i⟩, hm, he⟩
    have hs := List.mk_mem_zipIdx_iff_getElem?.mp hm
    rw [Array.getElem?_toList] at hs
    have hi := hw.toNat_ofNat (Array.getElem?_eq_some_iff.mp hs).1
    simp only [Option.map_eq_some_iff, Prod.mk.injEq] at he
    obtain ⟨y, rfl, rfl, rfl⟩ := he
    rw [hi]; exact hs
  · intro hs
    refine ⟨(⟨id.generation, some o⟩, id.index.toNat), ?_, by simp⟩
    rw [List.mk_mem_zipIdx_iff_getElem?, Array.getElem?_toList]
    exact hs

theorem length_objects (hw : h.WellFormed) : h.objects.length = h.live := by
  rw [hw.live_eq, objects, List.length_filterMap_eq_countP, ← Tally.countP_zipIdx]
  exact List.countP_congr fun x _ => by simp

/-- The listing names each slot at most once, in order. -/
theorem objects_ascending (hw : h.WellFormed) :
    h.objects.Pairwise fun a b => a.1.index < b.1.index := by
  rw [objects, List.pairwise_filterMap]
  refine hw.zipIdx_ascending.imp fun {a b} hab x hx y hy => ?_
  obtain ⟨_, -, rfl⟩ := Option.map_eq_some_iff.mp hx
  obtain ⟨_, -, rfl⟩ := Option.map_eq_some_iff.mp hy
  exact hab

end ObjectVM.Heap
