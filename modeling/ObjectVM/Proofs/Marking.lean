import Mathlib.Logic.Relation
import ObjectVM.Proofs.HeapLaws
import ObjectVM.Proofs.KeyMapLaws
import ObjectVM.Store.Collect

/-!
# Marking

`Reached` says which objects a collection has to keep. `MarkStep` is marking without an order: any
id that is still to do may come next, and what it leads to may join the rest in any order. Every
sequence of such steps ends (`markStep_wellFounded`), and it ends with the slots of the reached
objects marked and no others (`marked_iff_reached`), so the order cannot be told from the marks
(`marks_eq`). The collector's own loop is one such sequence (`mark_steps`).
-/
namespace ObjectVM.Heap

/-- The objects that can be reached from the roots and from the pinned objects, through attributes
and through the values in handles. An id that names nothing leads nowhere. -/
inductive Reached (h : Heap) (roots : List ObjectId) (edges : HandleKey → List ObjectId) :
    ObjectId → Prop where
  | root {id : ObjectId} (listed : id ∈ roots) (live : h.contains id = true) :
    Reached h roots edges id
  | pinned {id : ObjectId} {o : Object} (get : h.get? id = some o)
    (flag : o.hasFlag .pinned = true) : Reached h roots edges id
  | bound {id next : ObjectId} {o : Object} {key : UInt64} (source : Reached h roots edges id)
    (get : h.get? id = some o) (named : o.attribute? key = some next)
    (live : h.contains next = true) : Reached h roots edges next
  | held {id next : ObjectId} {o : Object} {key : HandleKey} (source : Reached h roots edges id)
    (get : h.get? id = some o) (has : o.handle = some key) (led : next ∈ edges key)
    (live : h.contains next = true) : Reached h roots edges next

/-- One step of marking in any order: of the slots marked and the ids to do. -/
inductive MarkStep (h : Heap) (edges : HandleKey → List ObjectId) :
    Array Bool × List ObjectId → Array Bool × List ObjectId → Prop where
  | pass {marks : Array Bool} {todo rest : List ObjectId} {id : ObjectId}
    (taken : todo.Perm (id :: rest))
    (idle : h.get? id = none ∨ marks[id.index.toNat]? ≠ some false) :
    MarkStep h edges (marks, todo) (marks, rest)
  | visit {marks : Array Bool} {todo rest todo' : List ObjectId} {id : ObjectId} {o : Object}
    (taken : todo.Perm (id :: rest)) (get : h.get? id = some o)
    (new : marks[id.index.toNat]? = some false) (added : todo'.Perm (successors edges o ++ rest)) :
    MarkStep h edges (marks, todo) (marks.setIfInBounds id.index.toNat true, todo')

variable {h : Heap} {roots : List ObjectId} {edges : HandleKey → List ObjectId}

theorem Reached.live {id : ObjectId} (r : Reached h roots edges id) : h.contains id = true := by
  cases r with
  | root _ live => exact live
  | pinned get _ => exact contains_of_get? get
  | bound _ _ _ live => exact live
  | held _ _ _ _ live => exact live

theorem mem_successors {o : Object} {next : ObjectId} :
    next ∈ successors edges o ↔
      (∃ key, o.attribute? key = some next) ∨ ∃ key, o.handle = some key ∧ next ∈ edges key := by
  rw [successors, List.mem_append, KeyMap.mem_values]
  refine or_congr Iff.rfl ?_
  cases o.handle <;> simp

theorem Reached.successor {id next : ObjectId} {o : Object} (r : Reached h roots edges id)
    (get : h.get? id = some o) (led : next ∈ successors edges o) (live : h.contains next = true) :
    Reached h roots edges next := by
  rcases mem_successors.mp led with ⟨key, named⟩ | ⟨key, has, led⟩
  · exact r.bound get named live
  · exact r.held get has led live

theorem mem_rootIds (hw : h.WellFormed) {id : ObjectId} :
    id ∈ h.rootIds roots ↔
      id ∈ roots ∨ ∃ o, h.get? id = some o ∧ o.hasFlag .pinned = true := by
  simp only [rootIds, List.mem_append, List.mem_map, List.mem_filter, Prod.exists, mem_objects hw,
    exists_and_right]
  refine or_congr Iff.rfl ⟨?_, ?_⟩
  · rintro ⟨id', ⟨o, ⟨get, flag⟩⟩, rfl⟩
    exact ⟨o, get, flag⟩
  · rintro ⟨o, get, flag⟩
    exact ⟨id, ⟨o, get, flag⟩, rfl⟩

/-! ## Every sequence of steps ends -/

/-- A step marks one more slot, or leaves one id less to do. -/
theorem markStep_decreases {a b : Array Bool × List ObjectId} (s : MarkStep h edges a b) :
    Prod.Lex (· < ·) (· < ·) (b.1.count false, b.2.length) (a.1.count false, a.2.length) := by
  cases s with
  | pass taken idle =>
    refine Prod.Lex.right _ ?_
    rw [taken.length_eq, List.length_cons]
    exact Nat.lt_succ_self _
  | visit taken get new added =>
    obtain ⟨hi, hm⟩ := Array.getElem?_eq_some_iff.mp new
    refine Prod.Lex.left _ _ ?_
    rw [Array.setIfInBounds, dif_pos hi]
    exact count_false_set_true hi hm

theorem markStep_wellFounded (h : Heap) (edges : HandleKey → List ObjectId) :
    WellFounded fun b a => MarkStep h edges a b :=
  Subrelation.wf markStep_decreases
    (InvImage.wf (fun c : Array Bool × List ObjectId => (c.1.count false, c.2.length))
      (Prod.lex ⟨_, Nat.lt_wfRel.wf⟩ ⟨_, Nat.lt_wfRel.wf⟩).wf)

/-- As long as an id is to do there is a step. -/
theorem markStep_exists (h : Heap) (edges : HandleKey → List ObjectId) (marks : Array Bool)
    {todo : List ObjectId} (ht : todo ≠ []) : ∃ c, MarkStep h edges (marks, todo) c := by
  obtain ⟨id, rest, rfl⟩ := List.exists_cons_of_ne_nil ht
  cases hg : h.get? id with
  | none => exact ⟨_, .pass (.refl _) (.inl hg)⟩
  | some o =>
    by_cases hm : marks[id.index.toNat]? = some false
    · exact ⟨_, .visit (.refl _) hg hm (.refl _)⟩
    · exact ⟨_, .pass (.refl _) (.inr hm)⟩

/-- The collector's loop is a sequence of steps to the end. -/
theorem mark_steps (h : Heap) (edges : HandleKey → List ObjectId) (marks : Array Bool)
    (todo : List ObjectId) :
    Relation.ReflTransGen (MarkStep h edges) (marks, todo) (h.mark edges marks todo, []) := by
  fun_induction mark h edges marks todo with
  | case1 marks => exact .refl
  | case2 marks id todo hg ih => exact .head (.pass (.refl _) (.inl hg)) ih
  | case3 marks id todo o hg hi hm ih =>
    refine .head (.pass (.refl _) (.inr ?_)) ih
    rw [Array.getElem?_eq_getElem hi, hm]; simp
  | case4 marks id todo o hg hi hm ih =>
    refine .head (.visit (.refl _) hg ?_ (.refl _)) ?_
    · rw [Array.getElem?_eq_getElem hi, hm]
    · rw [Array.setIfInBounds, dif_pos hi]; exact ih
  | case5 marks id todo o hg hi ih =>
    refine .head (.pass (.refl _) (.inr ?_)) ih
    rw [Array.getElem?_eq_none (by omega)]; simp

/-! ## What the marks say -/

/-- Marks and ids to do that marking can come to: what is marked is reached, and what a marked
object or a root leads to is marked or to do. -/
structure MarkInv (h : Heap) (roots : List ObjectId) (edges : HandleKey → List ObjectId)
    (c : Array Bool × List ObjectId) : Prop where
  size : c.1.size = h.slots.size
  marked : ∀ i : Nat, c.1[i]? = some true → ∃ id, id.index.toNat = i ∧ Reached h roots edges id
  todo : ∀ id ∈ c.2, h.contains id = true → Reached h roots edges id
  rooted : ∀ id ∈ h.rootIds roots, h.contains id = true →
    c.1[id.index.toNat]? = some true ∨ id ∈ c.2
  closed : ∀ id o, h.get? id = some o → c.1[id.index.toNat]? = some true →
    ∀ next ∈ successors edges o, h.contains next = true →
      c.1[next.index.toNat]? = some true ∨ next ∈ c.2

theorem markInv_init (hw : h.WellFormed) {todo : List ObjectId}
    (ht : todo.Perm (h.rootIds roots)) :
    MarkInv h roots edges (Array.replicate h.slots.size false, todo) := by
  have hno : ∀ i : Nat, (Array.replicate h.slots.size false)[i]? ≠ some true := by
    intro i hi
    rw [Array.getElem?_replicate] at hi
    split at hi <;> cases hi
  refine ⟨Array.size_replicate, fun i hi => absurd hi (hno i), ?_, ?_,
    fun id o _ hm => absurd hm (hno _)⟩
  · intro id hid live
    rcases (mem_rootIds hw).mp (ht.mem_iff.mp hid) with listed | ⟨o, get, flag⟩
    · exact .root listed live
    · exact .pinned get flag
  · intro id hid _
    exact .inr (ht.mem_iff.mpr hid)

theorem markInv_pass {marks : Array Bool} {todo rest : List ObjectId} {id : ObjectId}
    (I : MarkInv h roots edges (marks, todo)) (taken : todo.Perm (id :: rest))
    (idle : h.get? id = none ∨ marks[id.index.toNat]? ≠ some false) :
    MarkInv h roots edges (marks, rest) := by
  -- the id taken was marked before, if it names an object at all
  have gone : ∀ j ∈ todo, h.contains j = true → marks[j.index.toNat]? = some true ∨ j ∈ rest := by
    intro j hj live
    rcases List.mem_cons.mp (taken.mem_iff.mp hj) with rfl | hj
    · obtain ⟨o, get⟩ := contains_iff.mp live
      rcases idle with he | hm
      · rw [get] at he; cases he
      · have hs : j.index.toNat < marks.size := by
          rw [I.size]; exact (Array.getElem?_eq_some_iff.mp (get?_eq_some_iff.mp get)).1
        left
        rw [Array.getElem?_eq_getElem hs] at hm ⊢
        cases hb : marks[j.index.toNat] with
        | true => rfl
        | false => rw [hb] at hm; exact absurd rfl hm
    · exact .inr hj
  refine ⟨I.size, I.marked, fun j hj => I.todo j (taken.mem_iff.mpr (List.mem_cons_of_mem _ hj)),
    fun j hj live => ?_, fun j o get hm next led live => ?_⟩
  · rcases I.rooted j hj live with hm | ht
    · exact .inl hm
    · exact gone j ht live
  · rcases I.closed j o get hm next led live with hm | ht
    · exact .inl hm
    · exact gone next ht live

theorem markInv_visit {marks : Array Bool} {todo rest todo' : List ObjectId} {id : ObjectId}
    {o : Object} (I : MarkInv h roots edges (marks, todo)) (taken : todo.Perm (id :: rest))
    (get : h.get? id = some o) (new : marks[id.index.toNat]? = some false)
    (added : todo'.Perm (successors edges o ++ rest)) :
    MarkInv h roots edges (marks.setIfInBounds id.index.toNat true, todo') := by
  have hset := Tally.getElem?_setIfInBounds_eq new true
  have live := contains_of_get? get
  have hid : Reached h roots edges id :=
    I.todo id (taken.mem_iff.mpr List.mem_cons_self) live
  have stays : ∀ j, marks[j.index.toNat]? = some true ∨ j ∈ todo →
      (marks.setIfInBounds id.index.toNat true)[j.index.toNat]? = some true ∨ j ∈ todo' := by
    intro j hj
    rw [hset]
    by_cases he : id.index.toNat = j.index.toNat
    · exact .inl (if_pos he)
    · rw [if_neg he]
      refine hj.imp_right fun ht => ?_
      rcases List.mem_cons.mp (taken.mem_iff.mp ht) with rfl | hr
      · exact absurd rfl he
      · exact added.mem_iff.mpr (List.mem_append_right _ hr)
  refine ⟨by simpa using I.size, fun i hi => ?_, fun j hj hl => ?_,
    fun j hj hl => stays j (I.rooted j hj hl), fun j o' get' hm next led hl => ?_⟩
  · simp only [hset] at hi
    split at hi
    · next e => exact ⟨id, e, hid⟩
    · exact I.marked i hi
  · rcases List.mem_append.mp (added.mem_iff.mp hj) with led | hr
    · exact hid.successor get led hl
    · exact I.todo j (taken.mem_iff.mpr (List.mem_cons_of_mem _ hr)) hl
  · simp only [hset] at hm
    split at hm
    · next e =>
      have : j = id := eq_of_index_eq (contains_of_get? get') live (UInt32.toNat_inj.mp e.symm)
      subst this
      rw [get] at get'; cases get'
      exact .inr (added.mem_iff.mpr (List.mem_append_left _ led))
    · exact stays next (I.closed j o' get' hm next led hl)

theorem markInv_step {a b : Array Bool × List ObjectId} (I : MarkInv h roots edges a)
    (s : MarkStep h edges a b) : MarkInv h roots edges b := by
  cases s with
  | pass taken idle => exact markInv_pass I taken idle
  | visit taken get new added => exact markInv_visit I taken get new added

theorem markInv_run {a b : Array Bool × List ObjectId} (I : MarkInv h roots edges a)
    (r : Relation.ReflTransGen (MarkStep h edges) a b) : MarkInv h roots edges b := by
  induction r with
  | refl => exact I
  | tail _ s ih => exact markInv_step ih s

/-- With nothing left to do the marked objects are the reached ones. -/
theorem marked_iff_reached (hw : h.WellFormed) {marks : Array Bool}
    (I : MarkInv h roots edges (marks, [])) {id : ObjectId} (live : h.contains id = true) :
    marks[id.index.toNat]? = some true ↔ Reached h roots edges id := by
  constructor
  · intro hm
    obtain ⟨j, hj, hr⟩ := I.marked _ hm
    rwa [← eq_of_index_eq hr.live live (UInt32.toNat_inj.mp hj)]
  · intro hr
    induction hr with
    | root listed live =>
      exact (I.rooted _ ((mem_rootIds hw).mpr (.inl listed)) live).resolve_right List.not_mem_nil
    | pinned get flag =>
      exact (I.rooted _ ((mem_rootIds hw).mpr (.inr ⟨_, get, flag⟩)) live).resolve_right
        List.not_mem_nil
    | bound source get named live ih =>
      exact (I.closed _ _ get (ih source.live) _ (mem_successors.mpr (.inl ⟨_, named⟩))
        live).resolve_right List.not_mem_nil
    | held source get has led live ih =>
      exact (I.closed _ _ get (ih source.live) _ (mem_successors.mpr (.inr ⟨_, has, led⟩))
        live).resolve_right List.not_mem_nil

/-- Two markings that have come to their end agree when the same objects are reached in both. -/
theorem marks_eq (hw : h.WellFormed) {roots' : List ObjectId} {edges' : HandleKey → List ObjectId}
    {marks marks' : Array Bool} (I : MarkInv h roots edges (marks, []))
    (I' : MarkInv h roots' edges' (marks', []))
    (same : ∀ id, Reached h roots edges id ↔ Reached h roots' edges' id) : marks = marks' := by
  have hs : marks.size = marks'.size := I.size.trans I'.size.symm
  refine Array.ext hs fun i hi hi' => ?_
  have there : marks[i]? = some true → marks'[i]? = some true := by
    intro hm
    obtain ⟨id, rfl, hr⟩ := I.marked i hm
    exact (marked_iff_reached hw I' hr.live).mpr ((same id).mp hr)
  have back : marks'[i]? = some true → marks[i]? = some true := by
    intro hm
    obtain ⟨id, rfl, hr⟩ := I'.marked i hm
    exact (marked_iff_reached hw I hr.live).mpr ((same id).mpr hr)
  rw [Array.getElem?_eq_getElem hi, Array.getElem?_eq_getElem hi'] at there back
  simp only [Option.some.injEq] at there back
  exact Bool.eq_iff_iff.mpr ⟨there, back⟩

/-- What is reached depends on which ids are listed, not on where or how often. -/
theorem Reached.mono {roots' : List ObjectId} {edges' : HandleKey → List ObjectId} {id : ObjectId}
    (hroots : ∀ id ∈ roots, id ∈ roots') (hedges : ∀ key, ∀ id ∈ edges key, id ∈ edges' key)
    (r : Reached h roots edges id) : Reached h roots' edges' id := by
  induction r with
  | root listed live => exact .root (hroots _ listed) live
  | pinned get flag => exact .pinned get flag
  | bound _ get named live ih => exact .bound ih get named live
  | held _ get has led live ih => exact .held ih get has (hedges _ _ led) live

end ObjectVM.Heap
