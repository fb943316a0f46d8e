import ObjectVM.Proofs.Shifts

/-!
# Programs that run

One step of a process that runs (`Process.Step`): its next instruction is fetched and executed, the
code of its running frame ends, or the machine or its host does something in between, such as
handling signals or collecting. `Process.Runs` are several steps, with a log of what has been
executed, and `Process.Driven` the processes that loading, starting and running lead to. What else
happens to a process is an instruction that its host executes or another request of its host
(`Process.Happens`, `Process.Course`).

* `Process.Step.cases`: what one step does to frames and invocations.
* `Exec.turn_cases`: how a turn goes.
* `Exec.advances_run`: a run takes such steps and no others.
* `Process.Driven.sound`: what running leads to is sound.
-/
namespace ObjectVM

/-! ## Steps -/

/-- Whether a request leaves the programs and the stacks to the machine. -/
def Request.Between : Request → Prop
  | .deliver | .handle _ | .raise _ | .collect | .setRule .. | .setVector .. | .redirect _ => True
  | _ => False

/-- Whether a request executes no instruction. -/
def Request.Silent : Request → Prop
  | .run _ | .execute _ => False
  | _ => True

namespace Process

/-- The next instruction of the running frame. -/
def next? (p : Process) : Option Instruction := p.calls.top?.bind fun f => f.code[f.pc]?

/-- The process when its next instruction has been fetched. -/
def fetched (p : Process) : Process :=
  match p.calls.top? with
  | some f => Exec.left (Exec.fetch f p)
  | none => p

/-- The instructions that have been executed, each with the process in which it was. -/
abbrev Log := List (Process × Instruction)

/-- One step of a process, and the instruction that it executes, if it does. -/
inductive Step (p : Process) : Option (Process × Instruction) → Process → Prop where
  | instruction {i : Instruction} (next : p.next? = some i) :
    Step p (some (p.fetched, i)) (p.fetched.after (.execute i))
  | ended {f : Frame} (top : p.calls.top? = some f) (ended : f.canExecute = false) :
    Step p none (Exec.left (Exec.finishCode f p))
  | between (r : Request) (between : r.Between) : Step p none (p.after r)
  | noted (e : Event) : Step p none (p.note e)
  | answered : Step p none { p with halt := none }

/-- Steps after each of which the process is `alive`. -/
inductive Runs (alive : Process → Prop) (p : Process) : Log → Process → Prop where
  | refl : Runs alive p [] p
  | step {log : Log} {q r : Process} {label : Option (Process × Instruction)}
    (before : Runs alive p log q) (step : q.Step label r) (kept : alive r) :
    Runs alive p (log ++ label.toList) r

/-- Something that happens to a process, and the instruction that it executes, if it does. -/
inductive Happens (p : Process) : Option (Process × Instruction) → Process → Prop where
  | step {label : Option (Process × Instruction)} {q : Process} (step : p.Step label q) :
    Happens p label q
  | asked (i : Instruction) : Happens p (some (p, i)) (p.after (.execute i))
  | request (r : Request) (silent : r.Silent) : Happens p none (p.after r)

/-- What happens to a process, after each of which it is `alive`, with a log of what has been
executed. -/
inductive Course (alive : Process → Prop) (p : Process) : Log → Process → Prop where
  | refl : Course alive p [] p
  | next {log : Log} {q r : Process} {label : Option (Process × Instruction)}
    (before : Course alive p log q) (happens : q.Happens label r) (kept : alive r) :
    Course alive p (log ++ label.toList) r

end Process

/-- The compartments that can be put together from literals and closures. -/
def Compartment.Assembled (c : Compartment) : Prop :=
  ∃ path strings floats closures,
    c = ((Compartment.new path).withLiterals strings floats).withClosures closures

/-- The processes that loading, starting, running and resetting lead to. -/
inductive Process.Driven : Process → Prop where
  | new {options : ProcessOptions} {journal : Journal} {p : Process}
    (made : options.newProcess journal = .ok p) : Driven p
  | load {p : Process} (before : Driven p) {c : Compartment} (assembled : c.Assembled) :
    Driven (p.after (.load c))
  | start {p : Process} (before : Driven p) : Driven (p.after .start)
  | step {p q : Process} {label : Option (Process × Instruction)} (before : Driven p)
    (step : p.Step label q) : Driven q
  | reset {p : Process} (before : Driven p) : Driven (p.after .reset)
  | abandon {p : Process} (before : Driven p) (limit : Nat) : Driven (p.after (.abandon limit))

/-! ## What is fetched -/

namespace Process

variable {p q r : Process} {i : Instruction} {f : Frame}

/-- The next instruction is that at the counter of the running frame. -/
theorem next?_eq_some_iff : p.next? = some i ↔
    ∃ f, p.calls.top? = some f ∧ f.code[f.pc]? = some i := Option.bind_eq_some_iff

theorem fetch_none (ended : f.code[f.pc]? = none) : Exec.fetch f p = .ok none p := by
  unfold Exec.fetch Frame.fetch?
  rw [ended]
  rfl

theorem fetched_of_top (top : p.calls.top? = some f) :
    p.fetched = Exec.left (Exec.fetch f p) := by
  unfold fetched
  rw [top]

theorem fetch_eq (top : p.calls.top? = some f) (next : f.code[f.pc]? = some i) :
    Exec.fetch f p = .ok (some i) p.fetched := by
  rw [fetched_of_top top]
  unfold Exec.fetch Frame.fetch?
  rw [next]
  rfl

theorem fetched_eq (top : p.calls.top? = some f) (next : f.code[f.pc]? = some i) :
    ∃ journal, p.fetched =
      { p with calls := p.calls.modifyTop fun _ => { f with pc := f.pc + 1 }, journal } := by
  have ran : Exec.fetch f p = .ok (some i)
      ({ p with calls := p.calls.modifyTop fun _ => { f with pc := f.pc + 1 } }.note
        (.fetched f.closure f.pc i)) := by
    unfold Exec.fetch Frame.fetch?
    rw [next]
    rfl
  have same := (EStateM.Result.ok.inj ((fetch_eq top next).symm.trans ran)).2
  exact ⟨_, same⟩

/-- The counter of the running frame is behind the instruction that has been fetched. -/
theorem top?_fetched (top : p.calls.top? = some f) (next : f.code[f.pc]? = some i) :
    p.fetched.calls.top? = some { f with pc := f.pc + 1 } := by
  obtain ⟨journal, same⟩ := fetched_eq top next
  rw [same]
  exact CallStack.top?_modifyTop top _

theorem goesOn_fetched (next : f.code[f.pc]? = some i) :
    f.GoesOn { f with pc := f.pc + 1 } :=
  ⟨⟨rfl, rfl, rfl⟩, rfl, rfl,
    fun b => ⟨(Array.getElem?_eq_some_iff.mp next).1, b.windows⟩⟩

/-- To fetch moves the counter behind an instruction, if there is one. -/
theorem fetched_cases (p : Process) : p.fetched = p ∨
    ∃ f i journal, p.calls.top? = some f ∧ f.code[f.pc]? = some i ∧ p.fetched =
      { p with calls := p.calls.modifyTop fun _ => { f with pc := f.pc + 1 }, journal } := by
  cases top : p.calls.top? with
  | none =>
    unfold fetched
    rw [top]
    exact .inl rfl
  | some f =>
    cases next : f.code[f.pc]? with
    | none =>
      rw [fetched_of_top top, fetch_none next]
      exact .inl rfl
    | some i =>
      obtain ⟨journal, same⟩ := fetched_eq top next
      exact .inr ⟨f, i, journal, rfl, next, same⟩

theorem quiet_fetched (p : Process) : p.Quiet p.fetched := by
  rcases p.fetched_cases with same | ⟨f, i, journal, top, next, same⟩
  · rw [same]
    exact .refl p
  · rw [same]
    exact (quiet_setTop top (goesOn_fetched next)).trans (quiet_elsewhere rfl rfl rfl rfl rfl)

end Process

/-! ## What a step does -/

theorem Process.execute_invoke {i : Instruction} (op : i.op = .control .invoke) :
    Exec.execute i = Exec.makeCall := by
  unfold Exec.execute
  rw [op]
  rfl

theorem Process.execute_return {i : Instruction} (op : i.op = .control .return) :
    Exec.execute i = Exec.returnFromFrame := by
  unfold Exec.execute
  rw [op]
  rfl

namespace Exec

theorem quiet_handleSignal (s : Signal) : IsQuiet (handleSignal s) := by
  refine .get_bind fun p => ?_
  have vectored : ∀ vector, IsQuiet (do
      note (.signalVectored s)
      setTopFrame ((← topFrame).interrupt vector)) := fun vector =>
    (quiet_note _).bind fun _ => quiet_changeFrame fun f => Frame.goesOn_interrupt f vector
  cases p.vectors s with
  | some vector =>
    cases s.category with
    | timer => exact quiet_note _ p
    | execution | termination | operation => exact vectored vector p
  | none =>
    cases s.category with
    | timer => exact quiet_note _ p
    | termination =>
      exact (quiet_note _).bind (fun _ q =>
        Process.quiet_of_same rfl rfl rfl rfl fun o final ho => by cases ho; cases final) p
    | execution | operation => exact (quiet_note _).bind (fun _ => .throw _) p

theorem quiet_deliverSignals : IsQuiet deliverSignals := by
  have handled : ∀ waiting : List Signal, IsQuiet (waiting.forM handleSignal) := by
    intro waiting
    induction waiting with
    | nil => exact .pure _
    | cons s waiting ih => exact (quiet_handleSignal s).bind fun _ => ih
  refine .get_bind fun p => ?_
  have drained : p.Quiet { p with signals := .empty } :=
    Process.quiet_elsewhere rfl rfl rfl rfl rfl
  exact drained.trans (handled p.signals.waiting _)

end Exec

namespace Process

variable {p q r : Process} {i : Instruction} {label : Option (Process × Instruction)}

theorem quiet_after {r : Request} (between : r.Between) : p.Quiet (p.after r) := by
  cases r with
  | deliver => exact Exec.quiet_deliverSignals p
  | handle s => exact Exec.quiet_handleSignal s p
  | raise | setRule | setVector | redirect => exact quiet_elsewhere rfl rfl rfl rfl rfl
  | collect => exact Exec.quiet_collect p
  | load | start | run | execute | reset | abandon => exact between.elim

/-- A step executes an instruction, or keeps the frames, or is the return of a frame whose code has
ended behind all signal vectors. -/
theorem Step.cases (s : p.Step label q) :
    (∃ i, label = some (p.fetched, i) ∧ p.next? = some i ∧ q = p.fetched.after (.execute i)) ∨
      label = none ∧ p.Quiet q ∨
        label = none ∧ ∃ f, p.calls.top? = some f ∧ f.canExecute = false ∧ f.suspended = [] ∧
          q = (p.afterReturn f).applyRules := by
  cases s with
  | instruction next => exact .inl ⟨_, rfl, next, rfl⟩
  | @ended f top ended =>
    unfold Exec.finishCode
    cases resumed : f.resume? with
    | some f' => exact .inr (.inl ⟨rfl, quiet_setTop top (Frame.goesOn_resume resumed)⟩)
    | none =>
      refine .inr (.inr ⟨rfl, f, top, ended, ?_, ?_⟩)
      · unfold Frame.resume? at resumed
        split at resumed
        · cases resumed
        · assumption
      · dsimp only
        rw [Exec.returnFromFrame_eq top]
        rfl
  | between r between => exact .inr (.inl ⟨rfl, quiet_after between⟩)
  | noted | answered =>
    refine .inr (.inl ⟨rfl, quiet_of_same rfl rfl rfl rfl fun o _ ho => ?_⟩)
    first | exact ho | cases ho

end Process

/-! ## What a turn does -/

namespace Exec

/-- The result of a turn in which work is done: the run goes on, unless the work fails. -/
def goesOn : EStateM.Result Fault Process Unit → EStateM.Result Fault Process (Option Outcome)
  | .ok _ q => .ok none q
  | .error fault q => .error fault q

@[simp] theorem left_goesOn (r : EStateM.Result Fault Process Unit) :
    left (goesOn r) = left r := by
  cases r <;> rfl

theorem bind_goesOn (m : Exec Unit) (p : Process) :
    (m >>= fun _ => pure none : Exec (Option Outcome)) p = goesOn (m p) := by
  cases h : m p with
  | ok _ q => exact bind_ok h
  | error fault q => exact bind_error h

end Exec

/-- How a turn goes. Signals are delivered first. If that does not fail, the run ends where it has
been told to or where no frame is left; else the running frame executes an instruction, or its code
has ended. -/
inductive Process.TurnsTo (p : Process) : EStateM.Result Fault Process (Option Outcome) → Prop where
  | failed {fault : Fault} {q : Process} (failed : Exec.deliverSignals p = .error fault q) :
    TurnsTo p (.error fault q)
  | halted {q : Process} {o : Outcome} (taken : Exec.deliverSignals p = .ok () q)
    (halted : q.halt = some o) :
    TurnsTo p (.ok (some o) ({ q with halt := none }.note (.runHalted o)))
  | completed {q : Process} (taken : Exec.deliverSignals p = .ok () q) (on : q.halt = none)
    (none : q.calls.top? = none) : TurnsTo p (.ok (some .completed) (q.note .runCompleted))
  | executed {q : Process} {i : Instruction} (taken : Exec.deliverSignals p = .ok () q)
    (on : q.halt = none) (next : q.next? = some i) :
    TurnsTo p (Exec.goesOn (Exec.execute i q.fetched))
  | ended {q : Process} {f : Frame} (taken : Exec.deliverSignals p = .ok () q)
    (on : q.halt = none) (top : q.calls.top? = some f) (ended : f.canExecute = false) :
    TurnsTo p (Exec.goesOn (Exec.finishCode f q))

theorem Exec.turn_cases (p : Process) : p.TurnsTo (turn p) := by
  unfold turn
  cases taken : deliverSignals p with
  | error fault q =>
    rw [bind_error taken]
    exact .failed taken
  | ok _ q =>
    rw [bind_ok taken, get_bind]
    cases halted : q.halt with
    | some o => exact .halted taken halted
    | none =>
      dsimp only
      rw [get_bind]
      cases top : q.calls.top? with
      | none => exact .completed taken halted top
      | some f =>
        dsimp only
        cases next : f.code[f.pc]? with
        | some i =>
          rw [bind_ok (Process.fetch_eq top next)]
          dsimp only
          rw [bind_goesOn]
          exact .executed taken halted (Process.next?_eq_some_iff.mpr ⟨f, top, next⟩)
        | none =>
          rw [bind_ok (Process.fetch_none next)]
          dsimp only
          rw [bind_goesOn]
          exact .ended taken halted top (by simpa [Frame.canExecute] using next)

/-! ## Runs -/

/-- The log of the next `n` instructions, and the process after them, if nothing comes between. -/
def Process.ahead (p : Process) : Nat → Log × Process
  | 0 => ([], p)
  | n + 1 =>
    let (log, q) := p.ahead n
    match q.next? with
    | some i => (log ++ [(q.fetched, i)], q.fetched.after (.execute i))
    | none => (log, q)

namespace Process.Runs

variable {alive : Process → Prop} {p q r : Process} {log log' : Log}

theorem trans (a : Runs alive p log q) (b : Runs alive q log' r) :
    Runs alive p (log ++ log') r := by
  induction b with
  | refl => rwa [List.append_nil]
  | step _ s kept ih => rw [← List.append_assoc]; exact ih.step s kept

theorem single {label : Option (Process × Instruction)} (s : p.Step label q) (kept : alive q) :
    Runs alive p label.toList q := by
  have run := Runs.refl.step s kept
  rwa [List.nil_append] at run

theorem of_ahead (n : Nat) (kept : ∀ m < n, alive (p.ahead (m + 1)).2) :
    Runs alive p (p.ahead n).1 (p.ahead n).2 := by
  induction n with
  | zero => exact .refl
  | succ n ih =>
    have before := ih fun m hm => kept m (Nat.lt_succ_of_lt hm)
    have last := kept n (Nat.lt_succ_self n)
    unfold ahead at last ⊢
    cases next : (p.ahead n).2.next? with
    | none => simpa only [next] using before
    | some i =>
      simp only [next] at last ⊢
      exact before.step (.instruction next) last

end Process.Runs

namespace Exec

variable {p : Process}

/-- Any number of steps. -/
def Advances (p q : Process) : Prop := ∃ log, Process.Runs (fun _ => True) p log q

theorem Advances.refl (p : Process) : Advances p p := ⟨[], .refl⟩

theorem Advances.trans {q r : Process} (a : Advances p q) (b : Advances q r) : Advances p r :=
  ⟨_, a.choose_spec.trans b.choose_spec⟩

theorem Advances.of_step {q : Process} {label : Option (Process × Instruction)}
    (s : p.Step label q) : Advances p q := ⟨_, .single s trivial⟩

/-- A turn takes steps, wherever it ends. -/
theorem advances_turn (p : Process) : Advances p (left (turn p)) := by
  have delivered : ∀ {r}, deliverSignals p = r → Advances p (left r) := by
    rintro _ rfl
    exact .of_step (.between .deliver trivial)
  -- a turn delivers signals and takes at most one step more
  have cases := turn_cases p
  generalize turn p = r at cases
  cases cases with
  | failed failed => exact delivered failed
  | halted taken _ =>
    exact ((delivered taken).trans (.of_step .answered)).trans (.of_step (.noted _))
  | completed taken _ _ => exact (delivered taken).trans (.of_step (.noted _))
  | executed taken _ next =>
    rw [left_goesOn]
    exact (delivered taken).trans (.of_step (.instruction next))
  | ended taken _ top ended =>
    rw [left_goesOn]
    exact (delivered taken).trans (.of_step (.ended top ended))

theorem advances_turns (n : Nat) : ∀ p, Advances p (left (turns n p)) := by
  induction n with
  | zero => exact Advances.refl
  | succ n ih =>
    intro p
    have first := advances_turn p
    unfold turns
    rw [left_bind]
    cases ht : turn p with
    | error fault q => rw [ht] at first; exact first
    | ok outcome q =>
      rw [ht] at first
      cases outcome with
      | some outcome => exact first
      | none => exact first.trans (ih q)

/-- A run takes steps, wherever it ends. -/
theorem advances_run (limit : Nat) (p : Process) : Advances p (left (run limit p)) :=
  (Advances.of_step (.noted _)).trans (advances_turns limit _)

end Exec

namespace Process

variable {p q : Process} {i : Instruction}

theorem Driven.runs {alive : Process → Prop} {log : Log} (d : p.Driven)
    (a : Runs alive p log q) : q.Driven := by
  induction a with
  | refl => exact d
  | step _ s _ ih => exact ih.step s

/-- Whatever a host asks for leads to a process that is driven, unless the host executes single
instructions. -/
theorem Driven.after (d : p.Driven) (r : Request) (allowed : r.Allowed Compartment.Assembled)
    (dispatched : ∀ i, r ≠ .execute i) : (p.after r).Driven := by
  cases r with
  | load c => exact d.load allowed
  | start => exact d.start
  | run turns => exact d.runs (Exec.advances_run turns p).choose_spec
  | execute i => exact absurd rfl (dispatched i)
  | deliver | handle | raise | collect | setRule | setVector | redirect =>
    exact d.step (.between _ trivial)
  | reset => exact d.reset
  | abandon limit => exact d.abandon limit

/-- A program that has been loaded and has run for some turns is driven. -/
theorem driven_ranFor {c : Compartment} (assembled : c.Assembled) (turns : Nat) :
    (ranFor c turns).Driven :=
  (((Driven.new standard_made).load assembled).start).after (.run turns) trivial nofun

/-! ## What happens -/

theorem Course.of_asked {alive : Process → Prop} (kept : alive (p.after (.execute i))) :
    p.Course alive [(p, i)] (p.after (.execute i)) := Course.refl.next (.asked i) kept

/-! ## Soundness -/

theorem Sound.steps_fetched (s : p.Sound) : Steps p p.fetched := by
  unfold Process.fetched
  cases top : p.calls.top? with
  | none => exact .refl s
  | some f =>
    refine steps_left (Q := fun _ q => Steps p q) ?_ fun _ _ h => h
    exact Exec.ends_fetch (.refl s) top (fun _ => .refl s) fun _ _ _ path => path.toSteps

theorem Sound.fetched (s : p.Sound) : p.fetched.Sound := s.steps_fetched.sound

theorem Step.sound {label : Option (Process × Instruction)} (st : p.Step label q)
    (s : p.Sound) : q.Sound := by
  cases st with
  | instruction => exact s.fetched.after _
  | ended top ended =>
    exact (steps_left (Exec.ends_finishCode (.refl s) top ended) fun _ _ h => h.toSteps).sound
  | between r => exact s.after r
  | noted | answered => exact ⟨s.fits, s.stores, s.objects, s.frames, s.invocations⟩

theorem Happens.sound {label : Option (Process × Instruction)} (h : p.Happens label q)
    (s : p.Sound) : q.Sound := by
  cases h with
  | step st => exact st.sound s
  | asked i => exact s.after _
  | request r => exact s.after r

theorem Driven.sound (d : p.Driven) : p.Sound := by
  induction d with
  | new made => exact .new made
  | load _ _ ih => exact ih.after _
  | start _ ih => exact ih.after _
  | step _ st ih => exact st.sound ih
  | reset _ ih => exact ih.after _
  | abandon _ limit ih => exact ih.after _

end Process

end ObjectVM
