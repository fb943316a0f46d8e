import ObjectVM.Proofs.Paths

/-!
# Looking things up

Looking a literal, a closure or a variable up fails only with a fault that says that it is missing,
and what a variable is bound to lives.
-/
namespace ObjectVM

variable {p : Process}

/-! ## Literals and closures -/

theorem Compartment.plain_closure (c : Compartment) (id : UInt64) : Plain (c.closure id) := by
  unfold closure
  split
  · exact .ok _
  · exact .error fun _ => trivial

theorem Compartment.plain_string (c : Compartment) (key : UInt64) : Plain (c.string key) := by
  unfold string
  split
  · exact .ok _
  · exact .error fun _ => trivial

theorem Compartment.plain_floatBits (c : Compartment) (key : UInt64) : Plain (c.floatBits key) := by
  unfold floatBits
  split
  · exact .ok _
  · exact .error fun _ => trivial

namespace Process

theorem plain_compartment (p : Process) (id : UInt64) : Plain (p.compartment id) := by
  unfold compartment
  split
  · exact .ok _
  · exact .error fun _ => trivial

theorem plain_resolve (p : Process) (ref : ClosureRef) : Plain (p.resolve ref) :=
  .bind (p.plain_compartment _) fun c _ => c.plain_closure _

theorem plain_currentCompartment (p : Process) : Plain p.currentCompartment := by
  unfold currentCompartment
  split
  · exact p.plain_compartment _
  · exact .error fun _ => trivial

theorem plain_stringLiteral (p : Process) (key : UInt64) : Plain (p.stringLiteral key) :=
  .bind p.plain_currentCompartment fun c _ => c.plain_string key

theorem plain_lexicalParent (p : Process) (ref : ClosureRef) : Plain (p.lexicalParent ref) :=
  .bind (p.plain_compartment _) fun c _ => .bind (c.plain_closure _) fun _ _ => .ok _

/-! ## Variables -/

/-- A missing variable is reported by its name, everything else as it is. -/
theorem plain_named (p : Process) (key : UInt64) {r : Except Fault ObjectId} (plain : Plain r) :
    Plain (r.mapError (p.named key)) := by
  cases r with
  | ok id => exact .ok _
  | error fault =>
    refine .error fun q => ?_
    have := plain fault rfl q
    unfold named
    split
    · trivial
    · exact this

theorem plain_visible (p : Process) (key : UInt64) : Plain (p.visible key) := by
  unfold visible
  split
  · exact .error fun _ => trivial
  · refine plain_named p key ?_
    unfold CallStack.getVisible
    split
    · exact .error fun _ => trivial
    · split
      · exact .ok _
      · exact .error fun _ => trivial

/-- What is found along the links of a sound process lives. -/
theorem Sound.visibleAlong (s : p.Sound) {key : UInt64} {id : ObjectId} (links : Nat) :
    ∀ {index : Nat}, p.calls.visibleAlong key index links = some id →
      p.heap.contains id = true := by
  induction links with
  | zero => intro index e; cases e
  | succ links ih =>
    intro index e
    unfold CallStack.visibleAlong at e
    split at e
    · cases e
    · next f there =>
      split at e
      · next hid =>
        cases e
        exact (Frame.holds_iff.mp (s.frames index f there)).1 id (KeyMap.mem_values_of_get? hid)
      · split at e
        · exact ih e
        · cases e

theorem Sound.visible (s : p.Sound) {key : UInt64} {id : ObjectId} (e : p.visible key = .ok id) :
    p.heap.contains id = true := by
  unfold Process.visible at e
  split at e
  · cases e
  · unfold CallStack.getVisible at e
    split at e
    · cases e
    · split at e
      · next hid => cases e; exact s.visibleAlong _ hid
      · cases e

end Process

theorem CallStack.plain_follow (s : CallStack) (links : Nat) :
    ∀ index, Plain (s.follow index links) := by
  induction links with
  | zero => intro index; exact .ok index
  | succ links ih =>
    intro index
    unfold follow
    split
    · exact ih _
    · exact .error fun _ => trivial

theorem CallStack.plain_ancestor (s : CallStack) (index links : Nat) :
    Plain (s.ancestor index links) := by
  unfold ancestor
  split
  · exact s.plain_follow links index
  · exact .error fun _ => trivial

/-- What a look at a frame for a variable may find. -/
structure Frame.Finds (find : Frame → Except Fault ObjectId) : Prop where
  plain : ∀ f, Plain (find f)
  live : ∀ (h : Heap) f id, h.Holds f.objectIds → find f = .ok id → h.contains id = true

/-- What is bound in a map that belongs to the frame is found there. -/
theorem Frame.finds_bound {find : Frame → Except Fault ObjectId} {key : UInt64}
    (bindings : Frame → KeyMap ObjectId)
    (looks : ∀ f, find f = match (bindings f).get? key with
      | some id => .ok id
      | none => .error (.nameNotFound (Fault.anonymous key)))
    (owns : ∀ (h : Heap) f, h.Holds f.objectIds → h.Holds (bindings f).values) : Finds find := by
  refine ⟨fun f => ?_, fun h f id hf e => ?_⟩
  · rw [looks]
    split
    · exact .ok _
    · exact .error fun _ => trivial
  · rw [looks] at e
    split at e
    · next hid => cases e; exact owns h f hf id (KeyMap.mem_values_of_get? hid)
    · cases e

theorem Frame.finds_visible (key : UInt64) : Finds (·.getVisible key) :=
  finds_bound (·.visible) (fun _ => rfl) fun _ _ hf => (holds_iff.mp hf).1

theorem Frame.finds_hidden (key : UInt64) : Finds (·.getHidden key) :=
  finds_bound (·.hidden) (fun _ => rfl) fun _ _ hf => (holds_iff.mp hf).2.1

end ObjectVM
