import ObjectVM.Proofs.Tally
import ObjectVM.Store.Pool

/-!
# Laws of the pool

What the operations on the pool do to the values under its keys, and that they keep its books
(`Pool.WellFormed`).

* `get?_allocate`, `get?_replace`, `get?_without`: each changes one key and no other.
* `allocate_wellFormed`, `replace_wellFormed`, `without_wellFormed`: the books are kept.
* `mem_keys`, `length_keys`: every key with a value is listed once.
-/
namespace ObjectVM.Pool

/-- The free list and the count of a pool agree with its slots. -/
def WellFormed (p : Pool) : Prop := Tally Option.isSome p.slots p.free p.live p.capacity

variable {p : Pool} {key j : HandleKey} {v : Value}

theorem get?_eq_some_iff : p.get? key = some v ↔ p.slots[key.slot.toNat]? = some (some v) := by
  rw [get?, Option.join_eq_some_iff]

theorem contains_iff : p.contains key = true ↔ ∃ v, p.get? key = some v := by
  rw [contains, Option.isSome_iff_exists]

theorem contains_of_get? (hv : p.get? key = some v) : p.contains key = true :=
  contains_iff.mpr ⟨v, hv⟩

theorem toNat_slot_inj : key.slot.toNat = j.slot.toNat ↔ key = j := by
  rw [UInt32.toNat_inj]
  cases key; cases j; simp

theorem get?_empty (capacity : Nat) (key : HandleKey) : (empty capacity).get? key = none := by
  simp [get?, empty]

theorem empty_wellFormed {capacity : Nat} (hc : capacity ≤ UInt32.size) :
    (empty capacity).WellFormed := Tally.empty hc

theorem live_lt (hr : p.isFull = false) : p.live < p.capacity := by
  simpa [isFull] using hr

/-! ## Creation -/

/-- A creation fills an empty slot or adds one, and names it. -/
theorem allocate_slots (hw : p.WellFormed) (v : Value) :
    (∃ free, p.free = (p.allocate v).1.slot :: free ∧
        p.slots[(p.allocate v).1.slot.toNat]? = some none ∧
        (p.allocate v).2 = { p with
          slots := p.slots.setIfInBounds (p.allocate v).1.slot.toNat (some v), free,
          live := p.live + 1 }) ∨
      (p.free = [] ∧ (p.allocate v).1 = ⟨UInt32.ofNat p.slots.size⟩ ∧
        (p.allocate v).2 = { p with slots := p.slots.push (some v), live := p.live + 1 }) := by
  cases hf : p.free with
  | nil => exact .inr ⟨rfl, by simp [allocate, hf], by simp [allocate, hf]⟩
  | cons i free =>
    obtain ⟨x, hs, hx⟩ := (hw.mem_free i).mp (by rw [hf]; exact List.mem_cons_self)
    simp only [Option.isSome_eq_false_iff, Option.isNone_iff_eq_none] at hx
    subst hx
    exact .inl ⟨free, by simp [allocate, hf], by simpa [allocate, hf] using hs,
      by simp [allocate, hf]⟩

theorem allocate_wellFormed (hw : p.WellFormed) (hr : p.isFull = false) (v : Value) :
    (p.allocate v).2.WellFormed := by
  unfold WellFormed at hw ⊢
  rcases allocate_slots hw v with ⟨free, hf, -, e⟩ | ⟨hf, -, e⟩
  · rw [e]
    rw [hf] at hw
    exact hw.reuse rfl
  · rw [e]
    rw [hf] at hw ⊢
    exact hw.grow (live_lt hr) rfl

theorem toNat_ofNat_size (hw : p.WellFormed) (hr : p.isFull = false) (hf : p.free = []) :
    (UInt32.ofNat p.slots.size).toNat = p.slots.size := by
  unfold WellFormed at hw
  rw [hf] at hw
  exact hw.toNat_size (live_lt hr)

/-- There was no value under the new key before. -/
theorem get?_allocate_fresh (hw : p.WellFormed) (hr : p.isFull = false) (v : Value) :
    p.get? (p.allocate v).1 = none := by
  rcases allocate_slots hw v with ⟨free, -, hs, -⟩ | ⟨hf, hkey, -⟩
  · simp [get?, hs]
  · simp [get?, hkey, toNat_ofNat_size hw hr hf]

theorem get?_allocate (hw : p.WellFormed) (hr : p.isFull = false) (v : Value) (j : HandleKey) :
    (p.allocate v).2.get? j = if j = (p.allocate v).1 then some v else p.get? j := by
  rcases allocate_slots hw v with ⟨free, -, hs, e⟩ | ⟨hf, hkey, e⟩
  · rw [e]
    simp only [get?, Tally.getElem?_setIfInBounds_eq hs, toNat_slot_inj, eq_comm (a := j)]
    split <;> rfl
  · have hn := toNat_ofNat_size hw hr hf
    have hj : j = ⟨UInt32.ofNat p.slots.size⟩ ↔ j.slot.toNat = p.slots.size := by
      rw [← toNat_slot_inj, hn]
    rw [e, hkey]
    simp only [get?, Array.getElem?_push, hj]
    split <;> rfl

/-! ## Edits -/

theorem get?_replace (hv : p.get? key = some v) (w : Value) (j : HandleKey) :
    (p.replace key w).get? j = if j = key then some w else p.get? j := by
  simp only [replace, get?, Tally.getElem?_setIfInBounds_eq (get?_eq_some_iff.mp hv),
    toNat_slot_inj, eq_comm (a := j)]
  split <;> rfl

theorem contains_replace (hv : p.get? key = some v) (w : Value) (j : HandleKey) :
    (p.replace key w).contains j = p.contains j := by
  rw [contains, contains, get?_replace hv]
  split
  · next e => rw [e, hv]; rfl
  · rfl

theorem replace_wellFormed (hw : p.WellFormed) (hv : p.get? key = some v) (w : Value) :
    (p.replace key w).WellFormed :=
  hw.edit (get?_eq_some_iff.mp hv) rfl

/-! ## Removal -/

/-- The pool that is left when the value under a key is taken out. -/
def without (p : Pool) (key : HandleKey) : Pool :=
  { p with
    slots := p.slots.setIfInBounds key.slot.toNat none
    free := key.slot :: p.free
    live := p.live - 1 }

theorem erase_eq (hv : p.get? key = some v) : p.erase key = .ok (v, p.without key) := by
  unfold erase; rw [hv]; rfl

theorem get?_without (hv : p.get? key = some v) (j : HandleKey) :
    (p.without key).get? j = if j = key then none else p.get? j := by
  simp only [without, get?, Tally.getElem?_setIfInBounds_eq (get?_eq_some_iff.mp hv),
    toNat_slot_inj, eq_comm (a := j)]
  split <;> rfl

theorem without_wellFormed (hw : p.WellFormed) (hv : p.get? key = some v) :
    (p.without key).WellFormed :=
  hw.release (get?_eq_some_iff.mp hv) rfl rfl

/-! ## The keys -/

/-- The keys under which there are values, in slot order. -/
def keys (p : Pool) : List HandleKey :=
  p.slots.toList.zipIdx.filterMap fun (v, i) => v.map fun _ => ⟨UInt32.ofNat i⟩

theorem mem_keys (hw : p.WellFormed) {key : HandleKey} : key ∈ p.keys ↔ p.contains key = true := by
  rw [contains_iff, keys, List.mem_filterMap]
  constructor
  · rintro ⟨⟨x, i⟩, hm, he⟩
    obtain ⟨v, hv, rfl⟩ := Option.map_eq_some_iff.mp he
    have hs := List.mk_mem_zipIdx_iff_getElem?.mp hm
    rw [Array.getElem?_toList] at hs
    have hi := hw.toNat_ofNat (Array.getElem?_eq_some_iff.mp hs).1
    refine ⟨v, get?_eq_some_iff.mpr ?_⟩
    rw [hi, hs]
    exact congrArg some hv
  · rintro ⟨v, hv⟩
    refine ⟨(some v, key.slot.toNat), ?_, by simp⟩
    rw [List.mk_mem_zipIdx_iff_getElem?, Array.getElem?_toList]
    exact get?_eq_some_iff.mp hv

theorem length_keys (hw : p.WellFormed) : p.keys.length = p.live := by
  rw [hw.live_eq, keys, List.length_filterMap_eq_countP, ← Tally.countP_zipIdx]
  exact List.countP_congr fun x _ => by simp

theorem nodup_keys (hw : p.WellFormed) : p.keys.Nodup := by
  rw [keys, List.Nodup, List.pairwise_filterMap]
  refine hw.zipIdx_ascending.imp fun {a b} hab x hx y hy e => ?_
  obtain ⟨_, -, rfl⟩ := Option.map_eq_some_iff.mp hx
  obtain ⟨_, -, rfl⟩ := Option.map_eq_some_iff.mp hy
  exact UInt32.ne_of_lt hab (congrArg HandleKey.slot e)

end ObjectVM.Pool
