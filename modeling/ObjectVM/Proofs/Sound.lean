import ObjectVM.Proofs.KeyMapLaws
import ObjectVM.Proofs.Stores

/-!
# Sound processes

A process is sound if its stores match (`Stores`) and every id that it holds outside the stores
names an object: on the object stack, in a frame, in an invocation. `Process.Sound.roots` says so of
the ids from which collection sets out, and `Process.Sound.collect` that collection keeps it.
-/
namespace ObjectVM

/-- Every id of a list names an object. -/
def Heap.Holds (h : Heap) (ids : List ObjectId) : Prop := ∀ id ∈ ids, h.contains id = true

namespace Heap

variable {h : Heap} {ids ids' : List ObjectId} {id : ObjectId}

theorem holds_nil (h : Heap) : h.Holds [] := fun _ hm => absurd hm List.not_mem_nil

theorem holds_cons : h.Holds (id :: ids) ↔ h.contains id = true ∧ h.Holds ids :=
  List.forall_mem_cons

theorem holds_append : h.Holds (ids ++ ids') ↔ h.Holds ids ∧ h.Holds ids' :=
  List.forall_mem_append

theorem Holds.mono (hh : h.Holds ids) (sub : ∀ id ∈ ids', id ∈ ids) : h.Holds ids' :=
  fun id hm => hh id (sub id hm)

/-- A heap holds what another one holds if every id that names an object there does so here. -/
theorem Holds.transfer {h' : Heap} (hh : h.Holds ids)
    (live : ∀ id, h.contains id = true → h'.contains id = true) : h'.Holds ids :=
  fun id hm => live id (hh id hm)

end Heap

/-- The stores match, and every id that the process holds names an object. -/
structure Process.Sound (p : Process) : Prop where
  fits : p.options.heapCapacity < UInt32.size ∧ p.options.poolCapacity < UInt32.size
  stores : Stores p.heap p.pool
  objects : p.heap.Holds p.objects
  frames : ∀ (n : Nat) (f : Frame), p.calls.frames[n]? = some f → p.heap.Holds f.objectIds
  invocations : ∀ (n : Nat) (i : Invocation), p.invocations[n]? = some i → p.heap.Holds i.objectIds

/-! ## Ids in frames and invocations -/

namespace Frame

variable {h : Heap} {f : Frame} {id : ObjectId}

/-- What a frame holds, part by part. -/
theorem holds_iff : h.Holds f.objectIds ↔
    h.Holds f.visible.values ∧ h.Holds f.hidden.values ∧ h.Holds f.exception.toList ∧
      ∀ v ∈ f.values, h.Holds v.objectIds := by
  have : h.Holds (f.values.flatMap Value.objectIds) ↔ ∀ v ∈ f.values, h.Holds v.objectIds := by
    constructor
    · intro hh v hv
      exact hh.mono fun id hid => List.mem_flatMap.mpr ⟨v, hv, hid⟩
    · intro hh id hid
      obtain ⟨v, hv, hid⟩ := List.mem_flatMap.mp hid
      exact hh v hv id hid
  rw [objectIds, Heap.holds_append, Heap.holds_append, Heap.holds_append, this, and_assoc,
    and_assoc]

theorem holds_new (h : Heap) (closure : ClosureRef) (code : Code) (invocation : Nat)
    (returnAddress parent : Option Nat) :
    h.Holds (new closure code invocation returnAddress parent).objectIds :=
  Heap.holds_nil h

theorem holds_setException (hf : h.Holds f.objectIds) {e : Option ObjectId}
    (he : h.Holds e.toList) : h.Holds (f.setException e).objectIds := by
  rw [holds_iff] at hf ⊢
  exact ⟨hf.1, hf.2.1, he, hf.2.2.2⟩

theorem holds_values (hf : h.Holds f.objectIds) {vs : List Value}
    (hvs : ∀ v ∈ vs, h.Holds v.objectIds) : h.Holds { f with values := vs }.objectIds := by
  rw [holds_iff] at hf ⊢
  exact ⟨hf.1, hf.2.1, hf.2.2.1, hvs⟩

theorem holds_setVisible (hf : h.Holds f.objectIds) (live : h.contains id = true) (key : UInt64) :
    h.Holds (f.setVisible key id).objectIds := by
  rw [holds_iff] at hf ⊢
  refine ⟨fun j hj => ?_, hf.2⟩
  rcases KeyMap.mem_values_insert hj with rfl | hj
  · exact live
  · exact hf.1 j hj

theorem holds_setHidden (hf : h.Holds f.objectIds) (live : h.contains id = true) (key : UInt64) :
    h.Holds (f.setHidden key id).objectIds := by
  rw [holds_iff] at hf ⊢
  refine ⟨hf.1, fun j hj => ?_, hf.2.2⟩
  rcases KeyMap.mem_values_insert hj with rfl | hj
  · exact live
  · exact hf.2.1 j hj

theorem holds_eraseVisible (hf : h.Holds f.objectIds) (key : UInt64) :
    h.Holds (f.eraseVisible key).objectIds := by
  rw [holds_iff] at hf ⊢
  exact ⟨hf.1.mono fun j hj => KeyMap.mem_values_erase hj, hf.2⟩

theorem holds_eraseHidden (hf : h.Holds f.objectIds) (key : UInt64) :
    h.Holds (f.eraseHidden key).objectIds := by
  rw [holds_iff] at hf ⊢
  exact ⟨hf.1, hf.2.1.mono fun j hj => KeyMap.mem_values_erase hj, hf.2.2⟩

end Frame

namespace Process.Sound

variable {p : Process}

theorem topFrame (s : p.Sound) {f : Frame} (top : p.calls.top? = some f) :
    p.heap.Holds f.objectIds := by
  rw [CallStack.top?, Array.back?_eq_getElem?] at top
  exact s.frames _ f top

theorem attributes (s : p.Sound) {id : ObjectId} {o : Object} (get : p.heap.get? id = some o) :
    p.heap.Holds o.attributes.values := fun next hn => by
  obtain ⟨key, hk⟩ := KeyMap.mem_values.mp hn
  exact s.stores.attributes id o key next get hk

/-- Every id from which collection sets out names an object. -/
theorem roots (s : p.Sound) : p.heap.Holds p.roots := by
  rw [Process.roots, Heap.holds_append, Heap.holds_append]
  refine ⟨⟨s.objects, fun id hid => ?_⟩, fun id hid => ?_⟩
  · obtain ⟨f, hf, hid⟩ := List.mem_flatMap.mp hid
    obtain ⟨n, hn⟩ := List.getElem?_of_mem hf
    rw [Array.getElem?_toList] at hn
    exact s.frames n f hn id hid
  · obtain ⟨i, hi, hid⟩ := List.mem_flatMap.mp hid
    obtain ⟨n, hn⟩ := List.getElem?_of_mem hi
    rw [Array.getElem?_toList] at hn
    exact s.invocations n i hn id hid

/-- A process without a program is sound. -/
theorem new {options : ProcessOptions} {journal : Journal}
    (made : options.newProcess journal = .ok p) : p.Sound := by
  unfold ProcessOptions.newProcess ProcessOptions.check at made
  split at made
  · cases made
  · next hc =>
    split at hc
    · cases hc
    · split at hc
      · cases hc
      · next hcap =>
        cases made
        have fits : options.heapCapacity < UInt32.size ∧ options.poolCapacity < UInt32.size := by
          omega
        refine ⟨fits, Stores.empty fits.1 fits.2, Heap.holds_nil _, ?_, ?_⟩ <;>
          simp [CallStack.empty]

theorem collect (s : p.Sound) : p.collect.2.Sound := by
  have hheap : p.collect.2.heap = (p.heap.collect p.roots p.handleEdges).2 := rfl
  have live : ∀ ids, p.heap.Holds ids → (∀ id ∈ ids, id ∈ p.roots) →
      p.collect.2.heap.Holds ids := by
    intro ids hh hr id hid
    rw [hheap, Heap.contains_collect s.stores.heapBooks]
    exact .root (hr id hid) (hh id hid)
  refine ⟨s.fits, s.stores.collect p.roots fun key v hv next hn => ?_,
    live _ s.objects fun id hid => ?_, fun n f hf => live _ (s.frames n f hf) fun id hid => ?_,
    fun n i hi => live _ (s.invocations n i hi) fun id hid => ?_⟩
  · show next ∈ p.handleEdges key
    rw [handleEdges, hv]; exact hn
  · exact List.mem_append_left _ (List.mem_append_left _ hid)
  · refine List.mem_append_left _ (List.mem_append_right _ (List.mem_flatMap.mpr ⟨f, ?_, hid⟩))
    exact List.mem_of_getElem? (by rw [Array.getElem?_toList]; exact hf)
  · refine List.mem_append_right _ (List.mem_flatMap.mpr ⟨i, ?_, hid⟩)
    exact List.mem_of_getElem? (by rw [Array.getElem?_toList]; exact hi)

end Process.Sound

end ObjectVM
