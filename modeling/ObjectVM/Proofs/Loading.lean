import ObjectVM.Program.Load
import ObjectVM.Proofs.ClosureLookups

/-!
# Loaded compartments

What the loader checks of a container holds of the compartment that it makes (`ofContainer_sound`):
every closure is found under its number, and every catch site resumes inside its closure's code.
-/
namespace ObjectVM

/-- Every closure is found under its number, and its catch sites resume inside its code. -/
structure Compartment.Sound (c : Compartment) : Prop where
  found : ∀ cl ∈ c.closures, c.closure? cl.id = some cl
  inside : ∀ cl ∈ c.closures, ∀ s ∈ cl.catchSites, s.target < cl.code.size

/-- The compartments that the loader makes. -/
def Compartment.Loaded (c : Compartment) : Prop :=
  ∃ container, Compartment.ofContainer container = .ok c

/-! ## What the loader checks -/

namespace ClosureRecord

/-- Whether every catch site of a closure resumes inside its code. -/
def Inside (cl : Closure) : Prop := ∀ s ∈ cl.catchSites, s.target < cl.code.size

theorem closure_ok {r : ClosureRecord} {cl : Closure} (made : r.closure = .ok cl) :
    cl.id = r.id ∧ Inside cl := by
  unfold closure at made
  cases hd : decode r.name [] r.instructions with
  | error e => rw [hd] at made; cases made
  | ok code =>
    rw [hd] at made
    simp only [bind, Except.bind] at made
    split at made
    · cases made
    · next none =>
      cases made
      refine ⟨rfl, fun s hs => ?_⟩
      obtain ⟨record, hr, rfl⟩ := List.mem_map.mp hs
      have := List.find?_eq_none.mp none record hr
      simpa using this

/-- The closures made of records have distinct numbers and catch inside themselves. -/
theorem closures_ok (records : List ClosureRecord) :
    ∀ {seen : KeyMap Unit} {done cls : List Closure},
    (∀ id, seen.contains id = true ↔ id ∈ done.map (·.id)) → (done.map (·.id)).Nodup →
      (∀ cl ∈ done, Inside cl) → closures seen done records = .ok cls →
        (cls.map (·.id)).Nodup ∧ ∀ cl ∈ cls, Inside cl := by
  induction records with
  | nil =>
    intro seen done cls _ distinct inside made
    cases made
    refine ⟨?_, fun cl hcl => inside cl (List.mem_reverse.mp hcl)⟩
    rw [List.map_reverse]
    exact List.nodup_reverse.mpr distinct
  | cons r records ih =>
    intro seen done cls hseen distinct inside made
    unfold closures at made
    split at made
    · cases made
    · next new =>
      split at made
      · next cl hcl =>
        obtain ⟨hid, hinside⟩ := closure_ok hcl
        refine ih (fun id => ?_) ?_ ?_ made
        · rw [KeyMap.contains_insert, hseen, List.map_cons, List.mem_cons, hid]
        · rw [List.map_cons, List.nodup_cons, ← hseen, hid]
          exact ⟨new, distinct⟩
        · exact List.forall_mem_cons.mpr ⟨hinside, inside⟩
      · cases made

end ClosureRecord

namespace Compartment

variable {container : Container} {c : Compartment}

/-- What is loaded is put together from the literals and the closures that are stored. -/
theorem exists_of_ofContainer (made : ofContainer container = .ok c) : ∃ cls,
    ClosureRecord.closures ∅ [] container.closures = .ok cls ∧
      c = ((new container.path).withLiterals container.strings.toArray
        container.floats.toArray).withClosures cls.toArray := by
  unfold ofContainer at made
  split at made
  · cases made
  · cases hcls : ClosureRecord.closures ∅ [] container.closures with
    | error e => rw [hcls] at made; cases made
    | ok cls =>
      rw [hcls] at made
      exact ⟨cls, rfl, (Except.ok.inj made).symm⟩

theorem ofContainer_sound (made : ofContainer container = .ok c) : c.Sound := by
  obtain ⟨cls, hcls, rfl⟩ := exists_of_ofContainer made
  have unseen : ∀ id, (∅ : KeyMap Unit).contains id = true ↔
      id ∈ ([] : List Closure).map (·.id) := by simp [KeyMap.contains]
  obtain ⟨distinct, inside⟩ := ClosureRecord.closures_ok container.closures unseen
    List.nodup_nil (fun cl hcl => absurd hcl List.not_mem_nil) hcls
  exact ⟨fun cl hcl => closure?_withClosures distinct hcl,
    fun cl hcl => inside cl (by simpa [withClosures] using hcl)⟩

theorem Loaded.sound (loaded : c.Loaded) : c.Sound := by
  obtain ⟨container, made⟩ := loaded
  exact ofContainer_sound made

/-- A container that the loader accepts is loaded. -/
theorem loaded_of_accepted (accepted : (ofContainer container).toOption.isSome = true) :
    ((ofContainer container).toOption.getD c).Loaded := by
  refine ⟨container, ?_⟩
  cases made : ofContainer container with
  | error e => rw [made] at accepted; cases accepted
  | ok c => rfl

end Compartment

end ObjectVM
