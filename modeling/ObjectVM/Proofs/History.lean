import ObjectVM.Proofs.Turns

/-!
# What a process can come to

A host makes a process and sends it requests; a request that fails leaves what it has changed.
`Process.Reachable` are the processes after any number of requests, when the compartments loaded are
ones that `may` be, and `Process.Executing` those in which an instruction is executed next, at a
host's request or in a turn. All of them are sound.
-/
namespace ObjectVM

/-- What a host can ask of a process. -/
inductive Request where
  | load (c : Compartment)
  | start
  | run (turns : Nat)
  | execute (i : Instruction)
  | deliver
  | handle (s : Signal)
  | raise (s : Signal)
  | collect
  | setRule (rule : GcRule) (on : Bool)
  | setVector (s : Signal) (vector : Option Code)
  | redirect (output : Sink)
  | reset
  | abandon (limit : Nat)

/-- The process that is left, whether the work on it has succeeded or not. -/
def Exec.left {α : Type} : EStateM.Result Fault Process α → Process
  | .ok _ p => p
  | .error _ p => p

/-- The process after a request. -/
def Process.after (p : Process) : Request → Process
  | .load c => (p.load c).2
  | .start => p.start.2
  | .run turns => Exec.left (Exec.run turns p)
  | .execute i => Exec.left (Exec.execute i p)
  | .deliver => Exec.left (Exec.deliverSignals p)
  | .handle s => Exec.left (Exec.handleSignal s p)
  | .raise s => p.raiseSignal s
  | .collect => p.collect.2
  | .setRule rule on => p.setRule rule on
  | .setVector s vector => p.setVector s vector
  | .redirect output => { p with output }
  | .reset => p.reset
  | .abandon limit => p.abandon limit

/-- Whether a request loads only what `may` be loaded. -/
def Request.Allowed (may : Compartment → Prop) : Request → Prop
  | .load c => may c
  | _ => True

/-- The processes that requests of a host lead to. -/
inductive Process.Reachable (may : Compartment → Prop) : Process → Prop where
  | new {options : ProcessOptions} {journal : Journal} {p : Process}
    (made : options.newProcess journal = .ok p) : Reachable may p
  | after {p : Process} (before : Reachable may p) (r : Request) (allowed : r.Allowed may) :
    Reachable may (p.after r)

/-- Where requests have led to `p`, `p.Executing q i` says that `q` is a process in which `i` may be
executed next: `p` itself, if a host asks for it, or what `p` is when `i` has been fetched in a
turn, after the signals that waited. -/
inductive Process.Executing (p : Process) : Process → Instruction → Prop where
  | asked (i : Instruction) : Executing p p i
  | fetched {q r : Process} {f : Frame} {i : Instruction}
    (delivered : Exec.deliverSignals p = .ok () q) (on : q.halt = none)
    (top : q.calls.top? = some f) (fetch : Exec.fetch f q = .ok (some i) r) : Executing p r i

namespace Process

/-- A process with the standard options that notes nothing. -/
def standard : Process :=
  { options := .standard
    heap := .empty ProcessOptions.standard.heapCapacity
    pool := .empty ProcessOptions.standard.poolCapacity
    compartments := #[]
    calls := .empty ProcessOptions.standard.maxCallDepth
    invocations := #[]
    objects := []
    halt := none
    uncaught := none
    rules := .none
    vectors := fun _ => none
    signals := .empty
    output := .fresh
    diagnostics := ""
    journal := .new none }

theorem standard_made : ProcessOptions.standard.newProcess (.new none) = .ok standard := rfl

/-- The standard process after a program has been loaded and has run for some turns. -/
def ranFor (c : Compartment) (turns : Nat) : Process :=
  ((standard.after (.load c)).after .start).after (.run turns)

variable {may : Compartment → Prop} {p : Process} {i : Instruction}

/-- A process without a program has no frames. -/
theorem frames_of_new {options : ProcessOptions} {journal : Journal}
    (made : options.newProcess journal = .ok p) : p.calls.frames = #[] := by
  unfold ProcessOptions.newProcess at made
  split at made
  · cases made
  · cases made
    rfl

theorem reachable_ranFor {c : Compartment} (allowed : may c) (turns : Nat) :
    (ranFor c turns).Reachable may :=
  (((Reachable.new standard_made).after (.load c) allowed).after .start trivial).after
    (.run turns) trivial

/-- Steps lead to what is left, whether the work has succeeded or not. -/
theorem steps_left {α : Type} {Q : α → Process → Prop} {r : EStateM.Result Fault Process α}
    (h : Ends p Q r) (hQ : ∀ a q, Q a q → Steps p q) : Steps p (Exec.left r) := by
  cases r with
  | ok a q => exact hQ a q h
  | error fault q => exact h.1

theorem Sound.steps_run (s : p.Sound) (turns : Nat) : Steps p (p.after (.run turns)) :=
  steps_left (Exec.ends_run s turns) fun _ _ h => h.toSteps

theorem Sound.steps_execute (s : p.Sound) (i : Instruction) : Steps p (p.after (.execute i)) :=
  steps_left (Exec.ends_execute (.refl s) i) fun _ _ h => h.toSteps

theorem Sound.steps_deliver (s : p.Sound) : Steps p (p.after .deliver) :=
  steps_left (Exec.ends_deliverSignals s) fun _ _ h => h.toSteps

theorem Sound.steps_handle (s : p.Sound) (sig : Signal) : Steps p (p.after (.handle sig)) :=
  steps_left (Exec.ends_handleSignal s sig) fun _ _ h => h.toSteps

theorem Sound.clearStacks (s : p.Sound) : p.clearStacks.Sound := by
  refine ⟨s.fits, s.stores, Heap.holds_nil _, fun n f hf => ?_, fun n i hi => ?_⟩
  · simp [Process.clearStacks, CallStack.clear] at hf
  · simp [Process.clearStacks] at hi

theorem Sound.start (s : p.Sound) : p.start.2.Sound := by
  unfold Process.start
  split
  · exact s
  · next entry _ =>
    have cleared : ((p.note (.entered entry.name)).clearStacks).Sound :=
      Sound.clearStacks ⟨s.fits, s.stores, s.objects, s.frames, s.invocations⟩
    have one : ∀ (n : Nat) (i : Invocation),
        #[Invocation.new ⟨0, entry.id⟩][n]? = some i → p.heap.Holds i.objectIds := by
      intro n i hi
      rw [List.getElem?_toArray, List.getElem?_singleton] at hi
      split at hi
      · cases hi; exact Heap.holds_nil _
      · cases hi
    simp only [CallStack.push]
    split
    · next calls hc =>
      split at hc
      · cases hc
      · cases hc
        refine ⟨s.fits, s.stores, Heap.holds_nil _, fun n f hf => ?_, one⟩
        simp only [CallStack.add, Process.clearStacks, CallStack.clear] at hf
        rw [Array.getElem?_push] at hf
        split at hf
        · cases hf; exact Frame.holds_new _ _ _ _ _ _
        · simp at hf
    · exact ⟨s.fits, s.stores, Heap.holds_nil _, cleared.frames, one⟩

theorem Sound.reset (s : p.Sound) : p.reset.Sound := by
  have cleared := s.clearStacks
  refine ⟨s.fits, Stores.empty s.fits.1 s.fits.2, Heap.holds_nil _, fun n f hf => ?_,
    fun n i hi => ?_⟩
  · simp [Process.reset, Process.note, Process.clearStacks, CallStack.clear] at hf
  · simp [Process.reset, Process.note, Process.clearStacks] at hi

theorem Sound.after (s : p.Sound) (r : Request) : (p.after r).Sound := by
  cases r with
  | load | raise | setRule | setVector | redirect =>
    exact ⟨s.fits, s.stores, s.objects, s.frames, s.invocations⟩
  | start => exact s.start
  | run turns => exact (s.steps_run turns).sound
  | execute i => exact (s.steps_execute i).sound
  | deliver => exact s.steps_deliver.sound
  | handle sig => exact (s.steps_handle sig).sound
  | collect => exact s.collect
  | reset => exact s.reset
  | abandon limit =>
    have reported : { p with diagnostics := p.diagnostics ++ (p.traceback limit).text }.Sound :=
      ⟨s.fits, s.stores, s.objects, s.frames, s.invocations⟩
    exact reported.reset

theorem Reachable.sound (r : p.Reachable may) : p.Sound := by
  induction r with
  | new made => exact .new made
  | after _ r _ ih => exact ih.after r

theorem Executing.steps {q : Process} (s : p.Sound) (x : p.Executing q i) : Steps p q := by
  cases x with
  | asked => exact .refl s
  | fetched delivered on top fetch =>
    have handled := Exec.ends_deliverSignals s
    rw [delivered] at handled
    have path := Exec.ends_fetch (Q := fun i r => i.isSome → Steps p r) (.refl handled.sound) top
      (fun _ h => by cases h) fun _ r _ path _ => handled.toSteps.trans path.toSteps
    rw [fetch] at path
    exact path rfl

theorem Executing.sound {q : Process} (s : p.Sound) (x : p.Executing q i) : q.Sound :=
  (x.steps s).sound

end Process

end ObjectVM
