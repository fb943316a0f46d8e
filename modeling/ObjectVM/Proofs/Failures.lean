import ObjectVM.Proofs.Retrieval
import ObjectVM.Proofs.Spending
import ObjectVM.Proofs.Windows

/-!
# What a failed instruction has changed

An instruction that fails has taken its operands and done no more (`failures_consume`). Three
opcodes are different, those that take arguments by name or all at once: they change the running
frame's invocation before they check what they need then, so the arguments are gone when they fail
(`Process.FailsTo`). One of them may also leave an object behind for which there was no value, which
nothing refers to.
-/
namespace ObjectVM

/-! ## Arguments that are gone -/

/-- What an instruction that fails in `p` leads to: it has taken operands and done no more. Or else
it has taken arguments out of the running frame's invocation, and either cannot pass over as many
instructions as it should, or cannot make an object for them, or only a blank one. -/
inductive Process.FailsTo (p : Process) (i : Instruction) : Process → Prop where
  | spent {q : Process} (spent : p.Spent q) : FailsTo p i q
  | stranded {f : Frame} {j : Invocation} {id : ObjectId} (op : i.op = .argument .takeNamed)
    (top : p.calls.top? = some f) (there : p.invocations[f.invocation]? = some j)
    (named : j.named.get? i.first = some id) :
    FailsTo p i
      { p.setInvocation f.invocation { j with named := j.named.erase i.first } with
        objects := id :: p.objects }
  | drained {f : Frame} {j j' : Invocation}
    (op : i.op = .argument .takeAll ∨ i.op = .argument .takeAllNamed)
    (top : p.calls.top? = some f) (there : p.invocations[f.invocation]? = some j)
    (fewer : j'.objectIds ⊆ j.objectIds) : FailsTo p i (p.setInvocation f.invocation j')
  | blank {f : Frame} {j j' : Invocation}
    (op : i.op = .argument .takeAll ∨ i.op = .argument .takeAllNamed)
    (top : p.calls.top? = some f) (there : p.invocations[f.invocation]? = some j)
    (fewer : j'.objectIds ⊆ j.objectIds) (room : p.heap.isFull = false) :
    FailsTo p i { p.setInvocation f.invocation j' with heap := p.heap.allocate.2 }

/-- Of an invocation that is drained, nothing is left that it has not held. -/
theorem Invocation.drained_subset (j : Invocation) (a : ArgumentOp) :
    (j.drained a).objectIds ⊆ j.objectIds := by
  intro id mem
  cases a with
  | takeAllNamed =>
    rcases List.mem_append.mp mem with mem | mem
    · exact List.mem_append_left _ mem
    · exact absurd mem List.not_mem_nil
  | takeAll | put | putNamed | putAll | putAllNamed | take | takeNamed | hasMore => exact mem

theorem ArgumentOp.TakesAll.op_cases {a : ArgumentOp} {i : Instruction} (all : a.TakesAll)
    (op : i.op = .argument a) : i.op = .argument .takeAll ∨ i.op = .argument .takeAllNamed := by
  cases a with
  | takeAll => exact .inl op
  | takeAllNamed => exact .inr op
  | put | putNamed | putAll | putAllNamed | take | takeNamed | hasMore => exact all.elim

/-- An instruction that takes arguments fails in one of these ways. -/
theorem Process.RetrievalFails.failsTo {p q : Process} {i : Instruction} {fault : Fault}
    (fails : p.RetrievalFails i fault q) : p.FailsTo i q := by
  cases fails with
  | unframed | uncalled | missing => exact .spent (.refl p)
  | stranded op top there named => exact .stranded op top there named
  | drained op all top there =>
    exact .drained (all.op_cases op) top there (Invocation.drained_subset ..)
  | blank op all top there room =>
    exact .blank (all.op_cases op) top there (Invocation.drained_subset ..) room

namespace Exec

variable {p q : Process} {i : Instruction} {fault : Fault}

theorem failsTo_argument {a : ArgumentOp} (books : p.heap.WellFormed) (op : i.op = .argument a)
    (failed : execute i p = .error fault q) : p.FailsTo i q := by
  have spent : p.Checks (runArgument a i p) → p.FailsTo i q := by
    intro checks
    rw [← Process.execute_argument op, failed] at checks
    exact .spent checks
  cases a with
  | put | putNamed | putAll | putAllNamed => exact spent (sparing_put _ rfl i p).checks
  | hasMore => exact spent (sparing_hasMore i p).checks
  | take | takeNamed | takeAll | takeAllNamed =>
    exact (retrievalFails_of_execute books op trivial failed).failsTo

theorem checks_runHandle (sound : p.Sound) (op : HandleOp) (i : Instruction) :
    p.Checks (runHandle op i p) := by
  cases op with
  | get => exact (sparing_readHandle (.inl rfl) i).checksFirst p
  | getOf => exact (sparing_readHandle (.inr (.inl rfl)) i).checksFirst p
  | truthy => exact (sparing_readHandle (.inr (.inr rfl)) i).checksFirst p
  | set =>
    exact spends_popValue.checks (fun v => spends_topObject.checks fun id =>
      checksFirst_assign id v) p
  | setOf =>
    exact spends_popValue.checks (fun v => (spends_look _).checks fun id =>
      checksFirst_assign id v) p
  | clear => exact checks_clearHandle sound
  | copy | copyText => exact checksFirst_copyValue _ p

theorem checksFirst_runControl {op : ControlOp} (calm : op ≠ .raise) (i : Instruction) :
    ChecksFirst (runControl op i) := by
  by_cases back : op = .return
  · rw [back]
    exact checksFirst_returnFromFrame
  · exact (sparing_runControl back calm i).checksFirst

theorem checksFirst_runRuntime (op : RuntimeOp) (i : Instruction) :
    ChecksFirst (runRuntime op i) := by
  cases op with
  | collect | debug => exact fun _ => trivial
  | print => exact (sparing_print _).checksFirst

/-- What an instruction leads to that fails and does not raise an exception. -/
theorem failsTo_execute (sound : p.Sound) (calm : i.op ≠ .control .raise)
    (failed : execute i p = .error fault q) : p.FailsTo i q := by
  by_cases argument : ∃ a, i.op = .argument a
  · obtain ⟨a, op⟩ := argument
    exact failsTo_argument sound.stores.heapBooks op failed
  · have checks : p.Checks (execute i p) := by
      unfold execute
      cases hop : i.op with
      | object op => exact checksFirst_runObject op i p
      | «variable» op => exact (sparing_runVariable op i p).checks
      | «attribute» op source =>
        exact (spends_readName source i).checks (checksFirst_runAttribute op) p
      | setAttributes => exact checksFirst_setAttributes p
      | handle op => exact checks_runHandle sound op i
      | control op =>
        exact checksFirst_runControl (fun same => calm (by rw [hop, same])) i p
      | argument a => exact absurd ⟨a, hop⟩ argument
      | runtime op => exact checksFirst_runRuntime op i p
      | stack op => exact (sparing_runStack op p).checks
      | constant op => exact (sparing_runConstant op i p).checks
      | value op => exact (sparing_perform op.action p).checks
    rw [failed] at checks
    exact .spent checks

/-- Raising an exception fails only where there is no exception or no frame. -/
theorem failsTo_raise (linked : p.Linked) (op : i.op = .control .raise)
    (failed : execute i p = .error fault q) : p.FailsTo i q := by
  have ran : execute i p = (popObject >>= fun e => raise e (i.first != 0)) p := by
    unfold execute
    rw [op]
    rfl
  rw [ran] at failed
  cases ho : p.objects with
  | nil =>
    rw [bind_error (popObject_nil ho)] at failed
    cases failed
    exact .spent (.refl p)
  | cons e rest =>
    have l : { p with objects := rest }.Linked := linked.keep rfl rfl (Nat.le_refl _)
    have popped : p.Spent { p with objects := rest } := by
      refine Process.spent_objects ?_
      rw [ho]
      exact List.suffix_cons e rest
    rw [bind_ok (popObject_eq ho)] at failed
    replace failed : unwind e (i.first != 0) none p.calls.depth { p with objects := rest } =
        .error fault q := failed
    by_cases running : 0 < p.calls.depth
    · obtain ⟨r, raised, -⟩ : ∃ r, unwind e (i.first != 0) none p.calls.depth
          { p with objects := rest } = .ok () r ∧ _ := unwind_exact l running
      rw [raised] at failed
      cases failed
    · rw [Nat.eq_zero_of_not_pos running] at failed
      cases failed
      exact .spent popped

end Exec

/-! ## What remains -/

namespace Process

/-- What remains of `p` when `i` has failed in it, in the process `q` that is left. -/
structure Remains (p : Process) (i : Instruction) (q : Process) : Prop where
  /-- The frames are there, where they were, with all that they had; only the running one may have
  lost values from the top of its evaluation stack. -/
  frames : p.calls.Spent q.calls
  /-- Objects may be gone from the top of the object stack, unless the instruction has put a named
  argument there. -/
  objects : q.objects <:+ p.objects ∨
    i.op = .argument .takeNamed ∧ ∃ id, q.objects = id :: p.objects
  /-- Of all invocations only the running frame's may have lost arguments, and only if the
  instruction takes arguments by name or all of them. -/
  invocations : q.invocations = p.invocations ∨
    (i.op = .argument .takeNamed ∨ i.op = .argument .takeAll ∨ i.op = .argument .takeAllNamed) ∧
      ∃ f j, p.calls.top? = some f ∧ q.invocations = p.invocations.setIfInBounds f.invocation j
  /-- Every object is as it was. -/
  alive : ∀ id o, p.heap.get? id = some o → q.heap.get? id = some o
  /-- An object that is new is blank and held nowhere, and the instruction takes all arguments. -/
  new : ∀ id, p.heap.contains id = false → q.heap.contains id = true →
    (i.op = .argument .takeAll ∨ i.op = .argument .takeAllNamed) ∧
      q.heap.get? id = some .blank ∧ ¬ q.Mentions id
  /-- There is one new object at most. -/
  one : ∀ id id', p.heap.contains id = false → q.heap.contains id = true →
    p.heap.contains id' = false → q.heap.contains id' = true → id = id'
  /-- Pooled values, programs, outcome, rules and all else are as they were. -/
  rest : q = { p with
    calls := q.calls
    objects := q.objects
    invocations := q.invocations
    heap := q.heap
    journal := q.journal }

variable {p q : Process} {i : Instruction}

/-- Where the heap is the same, there are no new objects. -/
theorem remains_of_heap (heap : q.heap = p.heap) (frames : p.calls.Spent q.calls)
    (objects : q.objects <:+ p.objects ∨
      i.op = .argument .takeNamed ∧ ∃ id, q.objects = id :: p.objects)
    (invocations : q.invocations = p.invocations ∨
      (i.op = .argument .takeNamed ∨ i.op = .argument .takeAll ∨ i.op = .argument .takeAllNamed) ∧
        ∃ f j, p.calls.top? = some f ∧ q.invocations = p.invocations.setIfInBounds f.invocation j)
    (rest : q = { p with
      calls := q.calls
      objects := q.objects
      invocations := q.invocations
      heap := q.heap
      journal := q.journal }) : p.Remains i q := by
  have nothing : ∀ id, p.heap.contains id = false → q.heap.contains id ≠ true := by
    intro id gone there
    rw [heap, gone] at there
    cases there
  refine ⟨frames, objects, invocations, fun id o get => heap ▸ get, fun id gone there => ?_,
    fun id id' gone there _ _ => ?_, rest⟩
  · exact absurd there (nothing id gone)
  · exact absurd there (nothing id gone)

theorem mentions_of_invocation {n : Nat} {j : Invocation} {id : ObjectId}
    (there : p.invocations[n]? = some j) (held : id ∈ j.objectIds) : p.Mentions id := by
  rcases List.mem_append.mp held with passed | passed
  · exact .positional there passed
  · obtain ⟨key, named⟩ := KeyMap.mem_values.mp passed
    exact .named there named

/-- What a process holds when a blank object has been made, it has held before. -/
theorem mentions_of_blank (books : p.heap.WellFormed) {n : Nat} {j j' : Invocation} {id : ObjectId}
    (there : p.invocations[n]? = some j) (fewer : j'.objectIds ⊆ j.objectIds)
    (room : p.heap.isFull = false)
    (mentions : { p.setInvocation n j' with heap := p.heap.allocate.2 }.Mentions id) :
    p.Mentions id := by
  have invocation : ∀ (m : Nat) (k : Invocation), (p.invocations.setIfInBounds n j')[m]? = some k →
      id ∈ k.objectIds → p.Mentions id := by
    intro m k found held
    rw [Array.getElem?_setIfInBounds] at found
    split at found
    · split at found
      · cases found
        exact mentions_of_invocation there (fewer held)
      · cases found
    · exact mentions_of_invocation found held
  -- the new object is blank, so what is found in an object is found in one that was there
  have object : ∀ k o, p.heap.allocate.2.get? k = some o → o = .blank ∨ p.heap.get? k = some o := by
    intro k o found
    rw [Heap.get?_allocate books room] at found
    split at found
    · cases found
      exact .inl rfl
    · exact .inr found
  cases mentions with
  | stacked listed => exact .stacked listed
  | visible frame bound => exact .visible frame bound
  | hidden frame bound => exact .hidden frame bound
  | exception frame slot => exact .exception frame slot
  | evaluated frame value inside => exact .evaluated frame value inside
  | positional found passed => exact invocation _ _ found (List.mem_append_left _ passed)
  | named found passed =>
    exact invocation _ _ found (List.mem_append_right _ (KeyMap.mem_values_of_get? passed))
  | bound found named =>
    rcases object _ _ found with rfl | before
    · cases named
    · exact .bound before named
  | pooled found has value inside =>
    rcases object _ _ found with rfl | before
    · cases has
    · exact .pooled before has value inside

theorem FailsTo.remains (sound : p.Sound) (fails : p.FailsTo i q) : p.Remains i q := by
  cases fails with
  | spent spent =>
    have rest := spent.rest
    refine remains_of_heap spent.heap spent.calls (.inl spent.objects) (.inl ?_) ?_
    · rw [rest]
    · rw [rest]
  | @stranded f j id op top there named =>
    exact remains_of_heap rfl .same (.inr ⟨op, id, rfl⟩) (.inr ⟨.inl op, f, _, top, rfl⟩) rfl
  | @drained f j j' op top there fewer =>
    exact remains_of_heap rfl .same (.inl (List.suffix_refl _))
      (.inr ⟨.inr op, f, _, top, rfl⟩) rfl
  | @blank f j j' op top there fewer room =>
    have books := sound.stores.heapBooks
    have get : ∀ id, p.heap.allocate.2.get? id =
        if id = p.heap.allocate.1 then some .blank else p.heap.get? id :=
      Heap.get?_allocate books room
    have new : ∀ id, p.heap.contains id = false → p.heap.allocate.2.contains id = true →
        id = p.heap.allocate.1 := by
      intro id gone there
      by_contra other
      rw [Heap.contains, get, if_neg other] at there
      rw [Heap.contains, there] at gone
      cases gone
    refine ⟨.same, .inl (List.suffix_refl _), .inr ⟨.inr op, f, _, top, rfl⟩, fun id o found => ?_,
      fun id gone made => ⟨op, ?_, fun mentions => ?_⟩, fun id id' gone made gone' made' => ?_, rfl⟩
    · show p.heap.allocate.2.get? id = some o
      rw [get, if_neg ?_, found]
      rintro rfl
      rw [Heap.get?_allocate_fresh books room] at found
      cases found
    · exact (get id).trans (if_pos (new id gone made))
    · have live := sound.mentions (mentions_of_blank books there fewer room mentions)
      rw [gone] at live
      cases live
    · exact (new id gone made).trans (new id' gone' made').symm

end Process

/-- Whatever instruction fails, in a process of loaded programs: it has consumed its operands, and
changed nothing else but for the arguments that it has taken. -/
theorem failures_consume {p q t : Process} {i : Instruction} {fault : Fault}
    (r : p.Reachable Compartment.Loaded) (x : p.Executing q i)
    (failed : Exec.execute i q = .error fault t) : q.Remains i t := by
  have sound := x.sound r.sound
  by_cases raises : i.op = .control .raise
  · exact (Exec.failsTo_raise (x.linked r.sound r.linked) raises failed).remains sound
  · exact (Exec.failsTo_execute sound raises failed).remains sound

theorem failures_consume_taking :
    taking.Reachable Compartment.Loaded ∧
    taking.calls.depth = 2 ∧ taking.invocations[1]?.map (·.positional) = some [⟨1, 0⟩] ∧
    Exec.fault? (Exec.execute (.ofOp (.argument .takeAll)) taking) = some (.pool (.full 1)) ∧
    (taking.after (.execute (.ofOp (.argument .takeAll)))).heap.get? ⟨2, 0⟩ = some .blank ∧
    taking.Remains (.ofOp (.argument .takeAll))
      (taking.after (.execute (.ofOp (.argument .takeAll)))) := by
  have fails : Exec.fault? (Exec.execute (.ofOp (.argument .takeAll)) taking) =
      some (.pool (.full 1)) := by decide +kernel
  exact ⟨taking_reachable, by decide +kernel, by decide +kernel, fails, by decide +kernel,
    failures_consume taking_reachable (.asked _) (Exec.eq_error_left fails)⟩

end ObjectVM
