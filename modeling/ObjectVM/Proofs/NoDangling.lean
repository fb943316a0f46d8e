import ObjectVM.Proofs.History

/-!
# No id dangles

Every id that a process holds names an object, whatever requests, collections and faults have come
before (`nothing_dangles`). So no instruction fails because an object is gone, and the object of an
exception that ends a run is still there when the run has ended.
-/
namespace ObjectVM

/-- Whether a value is a container that holds an id. -/
def Value.Contains : Value → ObjectId → Prop
  | .array items, id => id ∈ items
  | .map entries, id => ∃ key, entries.get? key = some id
  | _, _ => False

theorem Value.contains_iff {v : Value} {id : ObjectId} : v.Contains id ↔ id ∈ v.objectIds := by
  cases v with
  | array items => exact Iff.rfl
  | map entries => exact KeyMap.mem_values.symm
  | _ => exact ⟨False.elim, fun h => absurd h List.not_mem_nil⟩

/-- The ids that a process holds, by the places where they are held. -/
inductive Process.Mentions (p : Process) (id : ObjectId) : Prop where
  | stacked (listed : id ∈ p.objects)
  | visible {n : Nat} {f : Frame} {key : UInt64} (frame : p.calls.frames[n]? = some f)
    (bound : f.visible.get? key = some id)
  | hidden {n : Nat} {f : Frame} {key : UInt64} (frame : p.calls.frames[n]? = some f)
    (bound : f.hidden.get? key = some id)
  | exception {n : Nat} {f : Frame} (frame : p.calls.frames[n]? = some f)
    (slot : f.exception = some id)
  | evaluated {n : Nat} {f : Frame} {v : Value} (frame : p.calls.frames[n]? = some f)
    (value : v ∈ f.values) (inside : v.Contains id)
  | positional {n : Nat} {i : Invocation} (invocation : p.invocations[n]? = some i)
    (passed : id ∈ i.positional)
  | named {n : Nat} {i : Invocation} {key : UInt64} (invocation : p.invocations[n]? = some i)
    (passed : i.named.get? key = some id)
  | bound {j : ObjectId} {o : Object} {key : UInt64} (object : p.heap.get? j = some o)
    (named : o.attribute? key = some id)
  | pooled {j : ObjectId} {o : Object} {key : HandleKey} {v : Value}
    (object : p.heap.get? j = some o) (has : o.handle = some key) (value : p.pool.get? key = some v)
    (inside : v.Contains id)

/-- What it means that no id of a process dangles: what it holds lives, now and when the next
instruction is executed; neither a run nor a single instruction misses an object; and a run that an
exception ends leaves the object of the exception alive. -/
structure Process.NothingDangles (p : Process) : Prop where
  mentions : ∀ id, p.Mentions id → p.heap.contains id = true
  executing : ∀ q i, p.Executing q i → ∀ id, q.Mentions id → q.heap.contains id = true
  execute : ∀ q i, p.Executing q i → ∀ fault r, Exec.execute i q = .error fault r →
    ∀ id, fault ≠ .heap (.objectNotFound id)
  run : ∀ n fault q, Exec.run n p = .error fault q → ∀ id, fault ≠ .heap (.objectNotFound id)
  answer : ∀ n e q, Exec.run n p = .ok (some (.uncaught e)) q → p.halt ≠ some (.uncaught e) →
    q.heap.contains e = true

namespace Process

variable {p : Process}

theorem Sound.mentions (s : p.Sound) {id : ObjectId} (m : p.Mentions id) :
    p.heap.contains id = true := by
  cases m with
  | stacked listed => exact s.objects id listed
  | visible frame bound =>
    exact (Frame.holds_iff.mp (s.frames _ _ frame)).1 id (KeyMap.mem_values_of_get? bound)
  | hidden frame bound =>
    exact (Frame.holds_iff.mp (s.frames _ _ frame)).2.1 id (KeyMap.mem_values_of_get? bound)
  | exception frame slot =>
    refine (Frame.holds_iff.mp (s.frames _ _ frame)).2.2.1 id ?_
    rw [slot]
    exact List.mem_cons_self
  | evaluated frame value inside =>
    exact (Frame.holds_iff.mp (s.frames _ _ frame)).2.2.2 _ value id (Value.contains_iff.mp inside)
  | positional invocation passed =>
    exact s.invocations _ _ invocation id (List.mem_append_left _ passed)
  | named invocation passed =>
    exact s.invocations _ _ invocation id
      (List.mem_append_right _ (KeyMap.mem_values_of_get? passed))
  | bound object named => exact s.stores.attributes _ _ _ id object named
  | pooled _ _ value inside =>
    exact s.stores.pooled _ _ value id (Value.contains_iff.mp inside)

theorem Admits.ne_objectNotFound {fault : Fault} (admits : p.Admits fault) (id : ObjectId) :
    fault ≠ .heap (.objectNotFound id) := by
  rintro rfl
  exact admits

end Process

/-- No id dangles in a process that requests lead to, and none in the instructions that follow. -/
theorem nothing_dangles {may : Compartment → Prop} {p : Process} (r : p.Reachable may) :
    p.NothingDangles := by
  have s := r.sound
  refine ⟨fun id m => s.mentions m, fun q i x id m => (x.sound s).mentions m,
    fun q i x fault t ht => ?_, fun n fault q hq => ?_, fun n e q hq fresh => ?_⟩
  · have ends := Exec.ends_execute (.refl (x.sound s)) i
    rw [ht] at ends
    exact Process.Admits.ne_objectNotFound ends.2
  · have ends := Exec.ends_run s n
    rw [hq] at ends
    exact Process.Admits.ne_objectNotFound ends.2
  · have ends := Exec.ends_run s n
    rw [hq] at ends
    exact ends.answered e (fun h => absurd h fresh) rfl

/-- A program that puts an object into an array, and the array into the handle of another object. -/
def holding : Compartment :=
  (Compartment.new "holding").withClosures #[.new Compartment.mainName 0 none
    #[.ofOp (.object .new), .ofOp (.constant .array), .ofOp (.object .new),
      .ofOp (.value (.array .append)), .ofOp (.handle .set)]]

theorem nothing_dangles_holding :
    (Process.ranFor holding 5).objects = [⟨0, 0⟩] ∧
    (Process.ranFor holding 5).pool.get? ⟨0⟩ = some (.array [⟨1, 0⟩]) ∧
    (Process.ranFor holding 5).Reachable (fun _ => True) ∧
    (Process.ranFor holding 5).NothingDangles := by
  have reached : (Process.ranFor holding 5).Reachable (fun _ => True) :=
    Process.reachable_ranFor trivial 5
  exact ⟨by decide +kernel, by decide +kernel, reached, nothing_dangles reached⟩

end ObjectVM
