/-!
# The books of a store

The heap and the pool are kept alike: slots in an array, a list of the slots to use again, and a
count of those in use. `Tally` says that the three agree. Each way in which a store changes one slot
keeps it:

* `Tally.reuse`, `Tally.grow`: a free slot, or a new one, comes into use.
* `Tally.edit`: a slot in use is changed and stays in use.
* `Tally.release`: a slot falls out of use.
-/
namespace ObjectVM

/-- `busy` says whether a slot is in use. The free list holds each other slot once, every slot has
an index of 32 bits, and `live` counts the slots in use. -/
structure Tally {α : Type} (busy : α → Bool) (slots : Array α) (free : List UInt32)
    (live capacity : Nat) : Prop where
  capacity_le : capacity ≤ UInt32.size
  size_le : slots.size ≤ capacity
  live_eq : live = slots.countP busy
  free_nodup : free.Nodup
  mem_free : ∀ i : UInt32, i ∈ free ↔ ∃ a, slots[i.toNat]? = some a ∧ busy a = false

namespace Tally

variable {α : Type} {busy : α → Bool} {slots : Array α} {free : List UInt32} {live capacity : Nat}

theorem empty (h : capacity ≤ UInt32.size) : Tally busy #[] [] 0 capacity :=
  ⟨h, Nat.zero_le _, rfl, List.nodup_nil, by simp⟩

theorem live_le_size (h : Tally busy slots free live capacity) : live ≤ slots.size := by
  rw [h.live_eq]; exact Array.countP_le_size

/-- The index of a slot fits its 32 bits. -/
theorem toNat_ofNat (h : Tally busy slots free live capacity) {i : Nat} (hi : i < slots.size) :
    (UInt32.ofNat i).toNat = i := by
  have := h.size_le
  have := h.capacity_le
  exact UInt32.toNat_ofNat_of_lt' (by omega)

/-- Without a slot to use again every slot is in use. -/
theorem live_eq_size (h : Tally busy slots [] live capacity) : live = slots.size := by
  rw [h.live_eq, Array.countP_eq_size]
  intro a ha
  obtain ⟨i, hi, rfl⟩ := Array.mem_iff_getElem.mp ha
  cases hb : busy slots[i] with
  | true => rfl
  | false =>
    have hn := h.toNat_ofNat hi
    have there : slots[(UInt32.ofNat i).toNat]? = some slots[i] := by
      rw [hn]
      exact Array.getElem?_eq_getElem hi
    have := (h.mem_free (UInt32.ofNat i)).mpr ⟨slots[i], there, hb⟩
    cases this

/-- So is that of the slot to add. -/
theorem toNat_size (h : Tally busy slots [] live capacity) (room : live < capacity) :
    (UInt32.ofNat slots.size).toNat = slots.size := by
  have := h.capacity_le
  have := h.live_eq_size
  exact UInt32.toNat_ofNat_of_lt' (by omega)

/-- The indices of the slots rise as numbers of 32 bits too. -/
theorem zipIdx_ascending (h : Tally busy slots free live capacity) :
    slots.toList.zipIdx.Pairwise fun a b => UInt32.ofNat a.2 < UInt32.ofNat b.2 := by
  have small : ∀ a ∈ slots.toList.zipIdx, (UInt32.ofNat a.2).toNat = a.2 := by
    intro a ha
    have hs := List.mk_mem_zipIdx_iff_getElem?.mp (show (a.1, a.2) ∈ _ from ha)
    rw [Array.getElem?_toList] at hs
    exact h.toNat_ofNat (Array.getElem?_eq_some_iff.mp hs).1
  have rising : slots.toList.zipIdx.Pairwise fun a b => a.2 < b.2 := by
    rw [List.pairwise_iff_getElem]
    intro i j hi hj hij
    simpa using hij
  refine rising.imp_of_mem fun {a b} ha hb hab => ?_
  rw [UInt32.lt_iff_toNat_lt, small a ha, small b hb]
  exact hab

theorem countP_zipIdx (busy : α → Bool) (slots : Array α) :
    slots.toList.zipIdx.countP (fun x => busy x.1) = slots.countP busy := by
  rw [← Array.countP_toList]
  conv => rhs; rw [← List.zipIdx_map_fst 0 slots.toList, List.countP_map]
  rfl

theorem countP_setIfInBounds {i : Nat} {a : α} (ha : slots[i]? = some a) (b : α) :
    (slots.setIfInBounds i b).countP busy =
      slots.countP busy - (if busy a then 1 else 0) + (if busy b then 1 else 0) := by
  obtain ⟨hi, rfl⟩ := Array.getElem?_eq_some_iff.mp ha
  rw [Array.setIfInBounds, dif_pos hi, Array.countP_set hi]

theorem getElem?_setIfInBounds_eq {i : Nat} {a : α} (ha : slots[i]? = some a) (b : α) (j : Nat) :
    (slots.setIfInBounds i b)[j]? = if i = j then some b else slots[j]? := by
  obtain ⟨hi, -⟩ := Array.getElem?_eq_some_iff.mp ha
  rw [Array.getElem?_setIfInBounds, if_pos hi]

/-- Changing a slot in place is setting it. -/
theorem modify_eq_set {i : Nat} {a : α} (ha : slots[i]? = some a) (f : α → α) :
    slots.modify i f = slots.setIfInBounds i (f a) := by
  apply Array.ext_getElem?
  intro j
  rw [getElem?_setIfInBounds_eq ha, Array.getElem?_modify]
  split
  · next e => rw [← e, ha]; rfl
  · rfl

theorem one_le_countP {i : Nat} {a : α} (ha : slots[i]? = some a) (hb : busy a = true) :
    1 ≤ slots.countP busy :=
  Array.one_le_countP_iff.mpr ⟨a, Array.mem_of_getElem? ha, hb⟩

theorem reuse {i : UInt32} (h : Tally busy slots (i :: free) live capacity) {b : α}
    (hb : busy b = true) : Tally busy (slots.setIfInBounds i.toNat b) free (live + 1) capacity := by
  obtain ⟨a, ha, hfree⟩ := (h.mem_free i).mp List.mem_cons_self
  obtain ⟨hi, hnd⟩ := List.nodup_cons.mp h.free_nodup
  refine ⟨h.capacity_le, by simpa using h.size_le, ?_, hnd, fun j => ?_⟩
  · rw [countP_setIfInBounds ha, h.live_eq, hfree, hb]; rfl
  · rw [getElem?_setIfInBounds_eq ha]
    by_cases hj : i = j
    · subst hj; simp [hi, hb]
    · have hn : i.toNat ≠ j.toNat := fun e => hj (UInt32.toNat_inj.mp e)
      have := h.mem_free j
      rw [if_neg hn, ← this]
      simp [Ne.symm hj]

theorem grow (h : Tally busy slots [] live capacity) (room : live < capacity) {b : α}
    (hb : busy b = true) : Tally busy (slots.push b) [] (live + 1) capacity := by
  have hs := h.live_eq_size
  refine ⟨h.capacity_le, by rw [Array.size_push]; omega, ?_, List.nodup_nil, fun j => ?_⟩
  · rw [Array.countP_push_of_pos hb, h.live_eq]
  · have := h.mem_free j
    rw [Array.getElem?_push]
    split
    · simp [hb]
    · exact this

theorem edit (h : Tally busy slots free live capacity) {i : Nat} {a b : α} (ha : slots[i]? = some a)
    (hab : busy b = busy a) : Tally busy (slots.setIfInBounds i b) free live capacity := by
  refine ⟨h.capacity_le, by simpa using h.size_le, ?_, h.free_nodup, fun j => ?_⟩
  · rw [countP_setIfInBounds ha, h.live_eq, hab]
    cases hb : busy a
    · simp
    · have := one_le_countP ha hb
      simp only [if_true]; omega
  · rw [h.mem_free j, getElem?_setIfInBounds_eq ha]
    split
    · next e => rw [← e, ha]; simp [hab]
    · rfl

theorem release (h : Tally busy slots free live capacity) {i : UInt32} {a b : α}
    (ha : slots[i.toNat]? = some a) (hbusy : busy a = true) (hb : busy b = false) :
    Tally busy (slots.setIfInBounds i.toNat b) (i :: free) (live - 1) capacity := by
  have hi : i ∉ free := fun hm => by
    obtain ⟨a', ha', hf⟩ := (h.mem_free i).mp hm
    rw [ha] at ha'; cases ha'; rw [hbusy] at hf; cases hf
  refine ⟨h.capacity_le, by simpa using h.size_le, ?_, List.nodup_cons.mpr ⟨hi, h.free_nodup⟩,
    fun j => ?_⟩
  · rw [countP_setIfInBounds ha, h.live_eq, hbusy, hb]; rfl
  · rw [getElem?_setIfInBounds_eq ha]
    by_cases hj : i = j
    · subst hj; simp [hb]
    · have hn : i.toNat ≠ j.toNat := fun e => hj (UInt32.toNat_inj.mp e)
      rw [if_neg hn, ← h.mem_free j]
      simp [Ne.symm hj]

end Tally

end ObjectVM
