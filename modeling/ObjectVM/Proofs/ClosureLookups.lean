import Mathlib.Data.List.Nodup
import ObjectVM.Program.Compartment
import ObjectVM.Proofs.KeyMapLaws

/-!
# Closures by number

A closure is looked for in the place that its number says, and behind that in the table of strays.
The two answer together as the table of closures does: the closure in its place counts, and where
none with the number stands there, the last that has it (`closure?_withClosures_eq`). So every number
in the table leads to a closure that has it, no other does, and where the numbers are distinct it is
the closure that a search from the front finds (`closures_by_number`).
-/
namespace ObjectVM.Compartment

variable {c : Compartment} {closures : Array Closure} {cl : Closure} {id : UInt64}

theorem mem_of_closure? (h : c.closure? id = some cl) : cl ∈ c.closures := by
  unfold closure? at h
  rcases Option.or_eq_some_iff.mp h with h | ⟨-, h⟩
  · exact Array.mem_of_getElem? (Option.filter_eq_some_iff.mp h).1
  · obtain ⟨i, -, hi⟩ := Option.bind_eq_some_iff.mp h
    exact Array.mem_of_getElem? hi

/-! ## The two tables -/

/-- Where no closure with a number stands in its place, all that have it are strays. -/
theorem lookup_strays (l : List (Closure × Nat)) (away : ∀ x ∈ l, x.1.id = id → id.toNat ≠ x.2) :
    (l.filterMap fun (c, i) => if c.id.toNat = i then none else some (c.id, i)).lookup id =
      (l.find? (·.1.id == id)).map (·.2) := by
  induction l with
  | nil => rfl
  | cons x l ih =>
    obtain ⟨first, rest⟩ := List.forall_mem_cons.mp away
    obtain ⟨cl, i⟩ := x
    by_cases same : cl.id = id
    · subst same
      simp [first rfl]
    · have other : (id == cl.id) = false := beq_eq_false_iff_ne.mpr (Ne.symm same)
      by_cases home : cl.id.toNat = i
      · simpa [home, same] using ih rest
      · simpa [home, same, List.lookup_cons, other] using ih rest

/-- What the table of strays leads to, where no closure with the number stands in its place. -/
theorem bind_strays (away : (closures[id.toNat]?.filter (·.id == id)) = none) :
    ((KeyMap.ofList (straysOf closures)).get? id).bind (closures[·]?) =
      closures.toList.reverse.find? (·.id == id) := by
  have indexed : ∀ x ∈ closures.toList.zipIdx.reverse, closures[x.2]? = some x.1 := fun x mem => by
    rw [List.mem_reverse, List.mk_mem_zipIdx_iff_getElem?, Array.getElem?_toList] at mem
    exact mem
  have strays : (KeyMap.ofList (straysOf closures)).get? id =
      (closures.toList.zipIdx.reverse.find? (·.1.id == id)).map (·.2) := by
    rw [KeyMap.ofList, KeyMap.get?_insertAll_eq, KeyMap.get?_empty, Option.or_none, straysOf,
      ← List.filterMap_reverse]
    refine lookup_strays _ fun x mem same home => ?_
    have there := indexed x mem
    rw [← home] at there
    simp [there, same] at away
  have places : closures.toList.reverse = closures.toList.zipIdx.reverse.map (·.1) := by
    rw [List.map_reverse, List.zipIdx_map_fst]
  rw [strays, places, List.find?_map]
  cases found : closures.toList.zipIdx.reverse.find? ((·.id == id) ∘ (·.1)) with
  | none =>
    rw [show closures.toList.zipIdx.reverse.find? (·.1.id == id) = none from found]
    rfl
  | some x =>
    rw [show closures.toList.zipIdx.reverse.find? (·.1.id == id) = some x from found]
    exact indexed x (List.mem_of_find?_eq_some found)

/-- Of the closures with a number the one in its place is found, else the last. -/
theorem closure?_withClosures_eq (c : Compartment) (closures : Array Closure) (id : UInt64) :
    (c.withClosures closures).closure? id =
      (closures[id.toNat]?.filter (·.id == id)).or
        (closures.toList.reverse.find? (·.id == id)) := by
  show (closures[id.toNat]?.filter (·.id == id)).or
    (((KeyMap.ofList (straysOf closures)).get? id).bind (closures[·]?)) = _
  cases home : closures[id.toNat]?.filter (·.id == id) with
  | some cl => rfl
  | none => rw [Option.none_or, Option.none_or, bind_strays home]

/-! ## What is found -/

/-- Only closures of the table are found, under their own numbers. -/
theorem of_closure?_withClosures (found : (c.withClosures closures).closure? id = some cl) :
    cl ∈ closures ∧ cl.id = id := by
  refine ⟨mem_of_closure? found, ?_⟩
  rw [closure?_withClosures_eq] at found
  rcases Option.or_eq_some_iff.mp found with home | ⟨-, last⟩
  · exact eq_of_beq (Option.filter_eq_some_iff.mp home).2
  · exact eq_of_beq (List.find?_some last :)

/-- Every number in the table is found. -/
theorem exists_closure?_withClosures (mem : cl ∈ closures) :
    ∃ cl', (c.withClosures closures).closure? cl.id = some cl' := by
  rw [closure?_withClosures_eq]
  cases closures[cl.id.toNat]?.filter (·.id == cl.id) with
  | some cl' => exact ⟨cl', rfl⟩
  | none =>
    refine Option.isSome_iff_exists.mp (List.find?_isSome.mpr ⟨cl, ?_, beq_self_eq_true _⟩)
    exact List.mem_reverse.mpr (Array.mem_toList_iff.mpr mem)

/-- Where the numbers are distinct, each closure is found under its own. -/
theorem closure?_withClosures (distinct : (closures.toList.map (·.id)).Nodup)
    (mem : cl ∈ closures) : (c.withClosures closures).closure? cl.id = some cl := by
  obtain ⟨cl', found⟩ := exists_closure?_withClosures (c := c) mem
  obtain ⟨mem', same⟩ := of_closure?_withClosures found
  rw [found, List.inj_on_of_nodup_map distinct (Array.mem_toList_iff.mpr mem')
    (Array.mem_toList_iff.mpr mem) same]

/-- The closure with a number that a search through the table from the front comes to. -/
def search (closures : Array Closure) (id : UInt64) : Except Fault Closure :=
  match closures.find? (·.id == id) with
  | some cl => .ok cl
  | none => .error (.closureNotFound id)

/-- A number leads to a closure where one in the table has it, and then to one that has it. Where the
numbers are distinct, a search finds the same. -/
structure Finds (c : Compartment) (closures : Array Closure) : Prop where
  found : ∀ id, (∃ cl, c.closure id = .ok cl) ↔ ∃ cl ∈ closures, cl.id = id
  named : ∀ id cl, c.closure id = .ok cl → cl ∈ closures ∧ cl.id = id
  missing : ∀ id fault, c.closure id = .error fault → fault = .closureNotFound id
  searched : (closures.toList.map (·.id)).Nodup → ∀ id, c.closure id = search closures id

theorem closure_eq_ok_iff : c.closure id = .ok cl ↔ c.closure? id = some cl := by
  unfold closure
  cases c.closure? id <;> simp

theorem closure_eq_error {fault : Fault} (missing : c.closure id = .error fault) :
    c.closure? id = none ∧ fault = .closureNotFound id := by
  unfold closure at missing
  cases h : c.closure? id with
  | some cl => rw [h] at missing; cases missing
  | none => rw [h] at missing; cases missing; exact ⟨rfl, rfl⟩

/-- With the table in place of any other, its closures are found by their numbers, and of the other
table nothing is left. -/
theorem closures_by_number (c : Compartment) (closures : Array Closure) :
    (c.withClosures closures).Finds closures ∧
      ∀ earlier, (c.withClosures earlier).withClosures closures = c.withClosures closures := by
  have named : ∀ id cl, (c.withClosures closures).closure id = .ok cl →
      cl ∈ closures ∧ cl.id = id := fun id cl found =>
    of_closure?_withClosures (closure_eq_ok_iff.mp found)
  refine ⟨⟨fun id => ⟨?_, ?_⟩, named, fun id fault h => (closure_eq_error h).2, ?_⟩, fun _ => rfl⟩
  · rintro ⟨cl, found⟩
    exact ⟨cl, named id cl found⟩
  · rintro ⟨cl, mem, rfl⟩
    obtain ⟨cl', found⟩ := exists_closure?_withClosures (c := c) mem
    exact ⟨cl', closure_eq_ok_iff.mpr found⟩
  · intro distinct id
    unfold search
    cases first : closures.find? (·.id == id) with
    | some cl =>
      obtain rfl : cl.id = id := eq_of_beq (Array.find?_some first :)
      exact closure_eq_ok_iff.mpr
        (closure?_withClosures distinct (Array.mem_of_find?_eq_some first))
    | none =>
      cases found : (c.withClosures closures).closure id with
      | ok cl =>
        obtain ⟨mem, same⟩ := named id cl found
        exact absurd (beq_iff_eq.mpr same) (Array.find?_eq_none.mp first cl mem)
      | error fault => rw [(closure_eq_error found).2]

/-- A closure in its place, two that stand in each other's, and one with a number beyond the table. -/
example :
    let closures := #[0, 2, 1, 40].map fun id : UInt64 => Closure.new "f" id none #[]
    closures.map (fun cl => ((new "mixed").withClosures closures).closure? cl.id) =
      closures.map some := by
  decide +kernel

end ObjectVM.Compartment
