import Mathlib.Data.List.Nodup
import ObjectVM.Proofs.Marking

/-!
# Collection

A collection keeps the reached objects as they are and empties every other slot in use.

* `get?_sweep`, `getElem?_sweep`: what reclaiming does to each id and to each slot.
* `sweep_wellFormed`: the books are kept, with the slots that fall free in front.
* `collect_exact`: survivors, reclaimed objects, counts and handles left behind, for every heap
  that the operations can make, and whatever order marking takes.
-/
namespace ObjectVM.Heap

/-- The heaps that the operations make. -/
inductive Built : Heap → Prop where
  | new {capacity : Nat} {h : Heap} (made : new? capacity = .ok h) : Built h
  | create {h h' : Heap} {id : ObjectId} (before : Built h) (made : h.create = .ok (id, h')) :
    Built h'
  | createMany {h h' : Heap} {n : Nat} {ids : List ObjectId} (before : Built h)
    (made : h.createMany n = .ok (ids, h')) : Built h'
  | put {h : Heap} {id : ObjectId} (before : Built h) (live : h.contains id = true) (o : Object) :
    Built (h.put id o)
  | collect {h : Heap} (before : Built h) (roots : List ObjectId)
    (edges : HandleKey → List ObjectId) : Built (h.collect roots edges).2

variable {h : Heap} {id : ObjectId} {o : Object} {roots : List ObjectId}
  {edges : HandleKey → List ObjectId} {marks : Array Bool}

/-! ## Reclaiming -/

theorem getElem?_sweep (h : Heap) (marks : Array Bool) (i : Nat) :
    (h.sweep marks).slots[i]? = h.slots[i]?.map fun slot =>
      if slot.object.isSome && !marks.getD i false then ⟨slot.generation + 1, none⟩ else slot := by
  simp only [sweep, Array.getElem?_mapIdx]

theorem get?_sweep (h : Heap) (marks : Array Bool) (id : ObjectId) :
    (h.sweep marks).get? id =
      if marks.getD id.index.toNat false = true then h.get? id else none := by
  simp only [get?, getElem?_sweep]
  cases h.slots[id.index.toNat]? with
  | none => simp
  | some slot =>
    obtain ⟨g, x⟩ := slot
    by_cases hm : marks.getD id.index.toNat false = true
    · simp [hm]
    · cases x <;> simp [hm]

/-- What is reclaimed are the listed objects without a mark. -/
theorem garbage_eq (hw : h.WellFormed) (marks : Array Bool) :
    h.garbage marks = (h.objects.filter fun e => !marks.getD e.1.index.toNat false).map
      fun e => (e.1, e.2.handle) := by
  rw [garbage, objects, List.filter_filterMap, List.map_filterMap]
  refine List.filterMap_congr fun e hm => ?_
  obtain ⟨⟨g, x⟩, i⟩ := e
  have hs := List.mk_mem_zipIdx_iff_getElem?.mp hm
  rw [Array.getElem?_toList] at hs
  have hi := hw.toNat_ofNat (Array.getElem?_eq_some_iff.mp hs).1
  cases x with
  | none => rfl
  | some o => simp only [Option.map_some, Option.filter, hi]; cases marks.getD i false <;> rfl

theorem mem_garbage (hw : h.WellFormed) {key : Option HandleKey} :
    (id, key) ∈ h.garbage marks ↔ ∃ o, h.get? id = some o ∧ o.handle = key ∧
      marks.getD id.index.toNat false = false := by
  simp only [garbage_eq hw, List.mem_map, List.mem_filter, Prod.exists, mem_objects hw,
    Prod.mk.injEq, Bool.not_eq_true']
  constructor
  · rintro ⟨_, o, ⟨get, hm⟩, rfl, rfl⟩
    exact ⟨o, get, rfl, hm⟩
  · rintro ⟨o, get, rfl, hm⟩
    exact ⟨id, o, ⟨get, hm⟩, rfl, rfl⟩

theorem length_garbage (h : Heap) (marks : Array Bool) :
    (h.garbage marks).length =
      h.slots.toList.zipIdx.countP fun x => x.1.object.isSome && !marks.getD x.2 false := by
  rw [garbage, List.length_filterMap_eq_countP]
  refine List.countP_congr fun ⟨⟨g, x⟩, i⟩ _ => ?_
  cases x with
  | none => simp
  | some o => simp only; cases marks.getD i false <;> simp

theorem live_sweep (h : Heap) (marks : Array Bool) :
    (h.sweep marks).live = h.live - (h.garbage marks).length := by
  simp only [sweep, List.length_map]

theorem countP_sweep (h : Heap) (marks : Array Bool) :
    (h.sweep marks).slots.countP (·.object.isSome) =
      h.slots.toList.zipIdx.countP fun x => x.1.object.isSome && marks.getD x.2 false := by
  rw [← Array.countP_toList, sweep, Array.toList_mapIdx, List.mapIdx_eq_zipIdx_map,
    List.countP_map]
  refine List.countP_congr fun ⟨⟨g, x⟩, i⟩ _ => ?_
  cases x with
  | none => simp
  | some o => simp only [Function.comp]; cases marks.getD i false <;> simp

/-- The objects of a heap are those that stay and those that are reclaimed. -/
theorem live_eq_countP_add_length (hw : h.WellFormed) (marks : Array Bool) :
    h.live = (h.sweep marks).slots.countP (·.object.isSome) + (h.garbage marks).length := by
  rw [hw.live_eq, countP_sweep, length_garbage, ← Tally.countP_zipIdx]
  rw [List.countP_eq_countP_filter_add _ _ fun x => marks.getD x.2 false, List.countP_filter,
    List.countP_filter]

theorem garbage_ascending (hw : h.WellFormed) (marks : Array Bool) :
    (h.garbage marks).Pairwise fun a b => a.1.index < b.1.index := by
  rw [garbage_eq hw, List.pairwise_map]
  exact (objects_ascending hw).sublist List.filter_sublist

theorem sweep_wellFormed (hw : h.WellFormed) (marks : Array Bool) : (h.sweep marks).WellFormed := by
  have hfreed : ∀ i : UInt32, i ∈ (h.garbage marks).map (fun x => x.1.index) ↔
      ∃ g o, h.slots[i.toNat]? = some ⟨g, some o⟩ ∧ marks.getD i.toNat false = false := by
    intro i
    rw [List.mem_map]
    constructor
    · rintro ⟨⟨id, key⟩, hm, rfl⟩
      obtain ⟨o, get, -, hb⟩ := (mem_garbage hw).mp hm
      exact ⟨_, o, get?_eq_some_iff.mp get, hb⟩
    · rintro ⟨g, o, hs, hb⟩
      exact ⟨(⟨i, g⟩, o.handle), (mem_garbage hw).mpr ⟨o, get?_eq_some_iff.mpr hs, rfl, hb⟩, rfl⟩
  refine ⟨hw.capacity_le, ?_, ?_, ?_, fun i => ?_⟩
  · simpa [sweep] using hw.size_le
  · have := live_eq_countP_add_length hw marks
    rw [live_sweep]; omega
  · -- a slot that falls free was in use, so it was not free before
    refine List.nodup_append.mpr ⟨?_, hw.free_nodup, ?_⟩
    · rw [List.nodup_reverse, List.Nodup, List.pairwise_map]
      exact (garbage_ascending hw marks).imp fun hlt => UInt32.ne_of_lt hlt
    · intro i hi j hj e
      subst e
      obtain ⟨g, o, hs, -⟩ := (hfreed i).mp (List.mem_reverse.mp hi)
      obtain ⟨slot, hs', hn⟩ := (hw.mem_free i).mp hj
      rw [hs] at hs'; cases hs'; cases hn
  · rw [getElem?_sweep]
    show i ∈ List.reverse _ ++ h.free ↔ _
    rw [List.mem_append, List.mem_reverse, hfreed, hw.mem_free]
    cases hs : h.slots[i.toNat]? with
    | none => simp
    | some slot =>
      obtain ⟨g, x⟩ := slot
      cases x with
      | none => simp
      | some o => cases marks.getD i.toNat false <;> simp

/-! ## Collecting -/

theorem collect_snd (h : Heap) (roots : List ObjectId) (edges : HandleKey → List ObjectId) :
    (h.collect roots edges).2 =
      h.sweep (h.mark edges (Array.replicate h.slots.size false) (h.rootIds roots)) := rfl

theorem collect_wellFormed (hw : h.WellFormed) (roots : List ObjectId)
    (edges : HandleKey → List ObjectId) : (h.collect roots edges).2.WellFormed :=
  sweep_wellFormed hw _

theorem Built.wellFormed (b : h.Built) : h.WellFormed := by
  induction b with
  | @new capacity h made =>
    unfold new? checkCapacity at made
    split at made
    · cases made
    · split at made
      · cases made
      · cases made
        exact empty_wellFormed (by omega)
  | @create h h' id before made ih =>
    unfold Heap.create at made
    split at made
    · cases made
    · next hr =>
      obtain rfl : h.allocate.2 = h' := congrArg Prod.snd (Except.ok.inj made)
      exact allocate_wellFormed ih (Bool.eq_false_iff.mpr hr)
  | @createMany h h' n ids before made ih =>
    unfold Heap.createMany at made
    split at made
    · cases made
    · obtain rfl : (h.allocateEach [] n).2 = h' := congrArg Prod.snd (Except.ok.inj made)
      exact allocateEach_wellFormed n [] ih (by omega)
  | put before live o ih =>
    obtain ⟨o', ho⟩ := contains_iff.mp live
    exact put_wellFormed ih ho o
  | collect before roots edges ih => exact collect_wellFormed ih roots edges

/-- The marks of a collection have come to their end. -/
theorem markInv_collect (hw : h.WellFormed) (roots : List ObjectId)
    (edges : HandleKey → List ObjectId) :
    MarkInv h roots edges
      (h.mark edges (Array.replicate h.slots.size false) (h.rootIds roots), []) :=
  markInv_run (markInv_init hw (.refl _)) (mark_steps h edges _ _)

theorem getD_eq_true_iff {i : Nat} : marks.getD i false = true ↔ marks[i]? = some true := by
  rw [Array.getD_eq_getD_getElem?]
  cases marks[i]? with
  | none => simp
  | some b => simp

theorem get?_collect (hw : h.WellFormed) (roots : List ObjectId)
    (edges : HandleKey → List ObjectId) (id : ObjectId) (o : Object) :
    (h.collect roots edges).2.get? id = some o ↔
      h.get? id = some o ∧ Reached h roots edges id := by
  have hI := markInv_collect hw roots edges
  rw [collect_snd, get?_sweep]
  constructor
  · intro hg
    split at hg
    · next hm =>
      have live := contains_of_get? hg
      exact ⟨hg, (marked_iff_reached hw hI live).mp (getD_eq_true_iff.mp hm)⟩
    · cases hg
  · rintro ⟨get, hr⟩
    rw [if_pos (getD_eq_true_iff.mpr ((marked_iff_reached hw hI hr.live).mpr hr)), get]

theorem contains_collect (hw : h.WellFormed) (roots : List ObjectId)
    (edges : HandleKey → List ObjectId) (id : ObjectId) :
    (h.collect roots edges).2.contains id = true ↔ Reached h roots edges id := by
  rw [contains_iff]
  constructor
  · rintro ⟨o, ho⟩
    exact ((get?_collect hw roots edges id o).mp ho).2
  · intro hr
    obtain ⟨o, ho⟩ := contains_iff.mp hr.live
    exact ⟨o, (get?_collect hw roots edges id o).mpr ⟨ho, hr⟩⟩

/-- The marks of a finished marking are one for each object that stays. -/
theorem count_marks (I : MarkInv h roots edges (marks, [])) :
    marks.count true = (h.sweep marks).slots.countP (·.object.isSome) := by
  have hl : marks.toList = h.slots.toList.zipIdx.map fun x => marks.getD x.2 false := by
    apply List.ext_getElem?
    intro i
    simp only [Array.getElem?_toList, List.getElem?_map, List.getElem?_zipIdx]
    have hsize := I.size
    by_cases hi : i < marks.size
    · have hi' : i < h.slots.size := by simp only at hsize; omega
      simp [Array.getElem?_eq_getElem hi', Array.getD, hi]
    · have hi' : ¬ i < h.slots.size := by simp only at hsize; omega
      simp [hi, hi']
  rw [countP_sweep, ← Array.count_toList, hl, List.count, List.countP_map]
  refine List.countP_congr fun ⟨⟨g, x⟩, i⟩ hx => ?_
  have hs := List.mk_mem_zipIdx_iff_getElem?.mp hx
  rw [Array.getElem?_toList] at hs
  simp only [Function.comp]
  cases hb : marks.getD i false with
  | false => simp
  | true =>
    obtain ⟨j, rfl, hr⟩ := I.marked i (getD_eq_true_iff.mp hb)
    obtain ⟨o, ho⟩ := contains_iff.mp hr.live
    rw [get?_eq_some_iff.mp ho] at hs
    cases hs
    simp

/-! ## What a collection comes to -/

/-- An exact collection of `h`: `c` is what it reports and `h'` the heap it leaves. -/
structure Exact (h : Heap) (roots : List ObjectId) (edges : HandleKey → List ObjectId)
    (c : Collection) (h' : Heap) : Prop where
  kept : ∀ id o, h'.get? id = some o ↔ h.get? id = some o ∧ Reached h roots edges id
  size : h'.slots.size = h.slots.size
  emptied : ∀ id, h.contains id = true → ¬ Reached h roots edges id →
    h'.slots[id.index.toNat]? = some ⟨id.generation + 1, none⟩
  idle : ∀ (i : Nat) (g : UInt32), h.slots[i]? = some ⟨g, none⟩ → h'.slots[i]? = some ⟨g, none⟩
  listed : ∀ h'' ∈ [h, h'], h''.objects.length = h''.live
  marked : c.marked = h'.live
  balance : c.marked + c.reclaimed.length = h.live
  reclaimed : ∀ id, id ∈ c.reclaimed ↔ h.contains id = true ∧ ¬ Reached h roots edges id
  ascending : c.reclaimed.Pairwise fun a b => a.index < b.index
  orphans : c.orphans = c.reclaimed.filterMap fun id => (h.get? id).bind (·.handle)

theorem exact_collect (hw : h.WellFormed) (roots : List ObjectId)
    (edges : HandleKey → List ObjectId) :
    Exact h roots edges (h.collect roots edges).1 (h.collect roots edges).2 := by
  have hw' := collect_wellFormed hw roots edges
  have hI := markInv_collect hw roots edges
  have hcount := count_marks hI
  have hlive := live_eq_countP_add_length hw
    (h.mark edges (Array.replicate h.slots.size false) (h.rootIds roots))
  have hkept := get?_collect hw roots edges
  have hmarks := fun id (live : h.contains id = true) => marked_iff_reached hw hI live
  have hsplit : (h.collect roots edges).1.marked = (h.collect roots edges).2.live := by
    rw [hw'.live_eq]; exact hcount
  refine ⟨hkept, by simp [collect, sweep], fun id live hr => ?_, fun i g hs => ?_, ?_, hsplit, ?_,
    fun id => ?_, ?_, ?_⟩
  · obtain ⟨o, ho⟩ := contains_iff.mp live
    have hm := Bool.eq_false_iff.mpr
      (mt (fun hm => (hmarks id live).mp (getD_eq_true_iff.mp hm)) hr)
    rw [collect_snd, getElem?_sweep, get?_eq_some_iff.mp ho, Option.map_some, hm]
    rfl
  · rw [collect_snd, getElem?_sweep, hs]; rfl
  · simp only [List.mem_cons, List.not_mem_nil, or_false, forall_eq_or_imp, forall_eq]
    exact ⟨length_objects hw, length_objects hw'⟩
  · simp only [collect, List.length_map]; omega
  · simp only [collect, List.mem_map, Prod.exists, exists_and_right, exists_eq_right,
      mem_garbage hw]
    constructor
    · rintro ⟨_, o, ho, -, hm⟩
      have live := contains_of_get? ho
      refine ⟨live, fun hr => ?_⟩
      rw [getD_eq_true_iff.mpr ((hmarks id live).mpr hr)] at hm
      cases hm
    · rintro ⟨live, hr⟩
      obtain ⟨o, ho⟩ := contains_iff.mp live
      refine ⟨o.handle, o, ho, rfl, Bool.eq_false_iff.mpr fun hm => hr ?_⟩
      exact (hmarks id live).mp (getD_eq_true_iff.mp hm)
  · simp only [collect, List.pairwise_map]
    exact garbage_ascending hw _
  · simp only [collect, List.filterMap_map]
    refine List.filterMap_congr fun ⟨id, key⟩ hm => ?_
    obtain ⟨o, ho, hk, -⟩ := (mem_garbage hw).mp hm
    simp [ho, hk]

/-- For every heap that the operations can make, collection is exact; marking in any order, with the
roots and the ids that an object leads to taken in any order, comes to an end and to the same
result; and the result depends only on which ids the roots and the handles list. -/
theorem collect_exact (b : h.Built) (roots : List ObjectId) (edges : HandleKey → List ObjectId) :
    Exact h roots edges (h.collect roots edges).1 (h.collect roots edges).2 ∧
    (WellFounded fun c c' => MarkStep h edges c' c) ∧
    (∀ marks todo, todo ≠ [] → ∃ c, MarkStep h edges (marks, todo) c) ∧
    (∀ marks todo, todo.Perm (h.rootIds roots) →
      Relation.ReflTransGen (MarkStep h edges) (Array.replicate h.slots.size false, todo)
        (marks, []) →
      (⟨marks.count true, (h.garbage marks).map (·.1), (h.garbage marks).filterMap (·.2)⟩,
        h.sweep marks) = h.collect roots edges) ∧
    ∀ roots' edges', (∀ id, id ∈ roots' ↔ id ∈ roots) →
      (∀ key id, id ∈ edges' key ↔ id ∈ edges key) →
      h.collect roots' edges' = h.collect roots edges := by
  have hw := b.wellFormed
  refine ⟨exact_collect hw roots edges, markStep_wellFounded h edges,
    fun marks todo => markStep_exists h edges marks, fun marks todo ht run => ?_,
    fun roots' edges' hroots hedges => ?_⟩
  · have start : MarkInv h roots edges (Array.replicate h.slots.size false, todo) :=
      markInv_init hw ht
    have hI := markInv_run start run
    rw [marks_eq hw hI (markInv_collect hw roots edges) fun _ => Iff.rfl]
    rfl
  · have hsame : ∀ id, Reached h roots' edges' id ↔ Reached h roots edges id := fun id =>
      ⟨.mono (fun i => (hroots i).mp) (fun k i => (hedges k i).mp),
        .mono (fun i => (hroots i).mpr) (fun k i => (hedges k i).mpr)⟩
    unfold collect
    rw [marks_eq hw (markInv_collect hw roots' edges') (markInv_collect hw roots edges) hsame]

/-- Three objects of which the last two are bound to each other. -/
def cyclic : Heap :=
  let h := ((empty 4).allocateEach [] 3).2
  (h.put ⟨1, 0⟩ (Object.blank.putAttribute 7 ⟨2, 0⟩)).put ⟨2, 0⟩
    (Object.blank.putAttribute 7 ⟨1, 0⟩)

theorem collect_exact_cyclic :
    cyclic.Built ∧ Exact cyclic [⟨0, 0⟩] (fun _ => []) (cyclic.collect [⟨0, 0⟩] fun _ => []).1
      (cyclic.collect [⟨0, 0⟩] fun _ => []).2 :=
  have start : (empty 4).Built := .new (show new? 4 = .ok (empty 4) from rfl)
  have made : Built ((empty 4).allocateEach [] 3).2 := .createMany (n := 3) start rfl
  have b : cyclic.Built := .put (.put made rfl _) rfl _
  ⟨b, (collect_exact b [⟨0, 0⟩] fun _ => []).1⟩

end ObjectVM.Heap
