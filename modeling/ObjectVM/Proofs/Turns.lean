import ObjectVM.Proofs.Handlers

/-!
# Control and turns

Calls, returns and exceptions are sequences of edits as well, and so is all else that happens in a
turn. What moves control may end the run (`Leads`), and then the object of an uncaught exception is
still there.

* `ends_execute`: what executing an instruction leads to, and the faults it can end in.
* `ends_deliverSignals`, `ends_turn`, `ends_run`: the same for signals, for a turn and for a run.
-/
namespace ObjectVM

/-- The process when the frame `f` on top has returned, before the collection rules are asked. -/
def Process.afterReturn (p : Process) (f : Frame) : Process :=
  { p with
    calls := p.calls.afterReturn f
    invocations := p.invocations.shrink f.invocation }.note
      (.returned f.closure (p.calls.afterReturn f).depth)

theorem Path.afterReturn {p₀ p : Process} (path : Path p₀ p) {f : Frame}
    (top : p.calls.top? = some f) : Path p₀ (p.afterReturn f) :=
  (path.step (.back top) rfl).note _

theorem Path.applyRules {p₀ p : Process} (path : Path p₀ p) : Path p₀ p.applyRules := by
  unfold Process.applyRules
  split
  · exact path.step .collect rfl
  · exact path

namespace Exec

variable {p₀ p : Process}

/-! ## Calls and returns -/

theorem ends_pushFrame (path : Path p₀ p) {f : Frame} {n : Nat} {i : Invocation}
    (top : p.calls.top? = some f) (there : p.invocations[n]? = some i)
    (place : f.invocation < n ∧ n + 1 = p.invocations.size) :
    Ends p₀ (fun _ q => Path p₀ q) (pushFrame i.callee n (some f.currentIndex) p) := by
  refine Ends.bind (ends_lookPlain path (p.plain_lexicalParent _) fun parent outward => ?_)
  refine Ends.bind (ends_lookPlain path (p.plain_resolve _) fun c resolves => ?_)
  refine Ends.bind (ends_get ?_)
  refine Ends.bind (ends_note path fun noted => ?_)
  refine Ends.bind (ends_get ?_)
  split
  · exact Ends.bind (ends_get (ends_throw noted trivial))
  · next room =>
    have room := Bool.eq_false_iff.mpr room
    exact (path.step (.call top there place outward resolves room) rfl).note _

theorem popFrame_eq {f : Frame} (top : p.calls.top? = some f) :
    popFrame p = .ok f
      { p with calls := p.calls.dropTop, invocations := p.invocations.shrink f.invocation } :=
  bind_ok (topFrame_eq top)

/-- A return moves the frame's caller on, and then the collection rules are asked. -/
theorem returnFromFrame_eq {f : Frame} (top : p.calls.top? = some f) :
    returnFromFrame p = .ok () (p.afterReturn f).applyRules := by
  refine (bind_ok (popFrame_eq top)).trans ?_
  unfold Process.afterReturn CallStack.afterReturn
  cases f.returnAddress <;> rfl

theorem ends_returnFromFrame (path : Path p₀ p) :
    Ends p₀ (fun _ q => Path p₀ q) (returnFromFrame p) := by
  cases top : p.calls.top? with
  | some f =>
    rw [returnFromFrame_eq top]
    exact (path.afterReturn top).applyRules
  | none =>
    refine Ends.bind (Ends.bind (ends_topFrame path fun f top' _ => ?_))
    rw [top] at top'; cases top'

/-! ## Exceptions -/

theorem ends_catchTarget? {Q : Option Nat → Process → Prop} (path : Path p₀ p) (f : Frame)
    (next : ∀ target, Q target p) : Ends p₀ Q (catchTarget? f p) := by
  unfold catchTarget?
  split
  · exact next none
  · exact Ends.bind (ends_lookPlain path (p.plain_resolve _) fun c _ => next _)

/-- What becomes of a frame that an exception has come to, given where the frame goes on if it
catches it. -/
def handOver (exception : ObjectId) (trace : Option Traceback) (depth : Nat) (frame : Frame) :
    Option Nat → Exec Unit
  | some target => do
    setTopFrame (frame.setException (some exception))
    updateFrame (·.goTo target)
    note (.caught exception frame.closure target)
  | none => do
    let trace := trace.or (some (← get).fullTraceback)
    let _ ← popFrame
    match (← get).calls.top? with
    | some caller =>
      setTopFrame (caller.setException (some exception))
      pushObject exception
      unwind exception true trace depth
    | none =>
      note (.uncaught exception)
      modify fun p => { p with uncaught := trace, halt := some (.uncaught exception) }

theorem unwind_succ (exception : ObjectId) (search : Bool) (trace : Option Traceback)
    (depth : Nat) :
    unwind exception search trace (depth + 1) =
      topFrame >>= fun frame =>
        (if search then catchTarget? frame else pure none) >>=
          handOver exception trace depth frame := by
  cases search <;> rfl

theorem ends_unwind {e : ObjectId} (depth : Nat) : ∀ {p : Process} (search : Bool)
    (trace : Option Traceback), Path p₀ p → p.heap.contains e = true →
      Ends p₀ (fun _ q => Leads p₀ q) (unwind e search trace depth p) := by
  induction depth with
  | zero => intro p search trace path _; exact ends_throw path trivial
  | succ depth ih =>
    intro p search trace path live
    have held : p.heap.Holds (some e).toList := Heap.holds_cons.mpr ⟨live, Heap.holds_nil _⟩
    rw [unwind_succ]
    refine Ends.bind (ends_topFrame path fun f top hf => ?_)
    have asked : Ends p₀ (fun _ q => q = p) ((if search then catchTarget? f else pure none) p) := by
      split
      · exact ends_catchTarget? path f fun _ => rfl
      · rfl
    refine Ends.bind (asked.mono fun target q hq => ?_)
    rw [hq]
    cases target with
    | some target =>
      refine Ends.bind (ends_setTopFrame path top ⟨rfl, rfl, rfl, rfl, rfl, rfl, fun h => h⟩
        (Frame.holds_setException hf held) fun calls path => ?_)
      refine Ends.bind (ends_updateFrame path (moves_goTo _ target) fun calls path => ?_)
      exact ends_note path fun path => path.leads
    | none =>
      refine Ends.bind (ends_get ?_)
      rw [bind_ok (popFrame_eq top)]
      have path := path.step (.leave top) rfl
      refine Ends.bind (ends_get ?_)
      cases below : p.calls.dropTop.top? with
      | some caller =>
        refine Ends.bind (ends_setTopFrame path below ⟨rfl, rfl, rfl, rfl, rfl, rfl, fun h => h⟩
          (Frame.holds_setException (path.sound.topFrame below) held) fun calls path => ?_)
        refine Ends.bind (ends_pushObject path live fun objects path => ?_)
        exact ih true _ path live
      | none =>
        refine Ends.bind (ends_note path fun path => ?_)
        refine path.ended (o := .uncaught e) (t := trace.or (some p.fullTraceback)) fun e' he' => ?_
        cases he'
        exact live

/-! ## Control -/

theorem ends_stageCall (path : Path p₀ p) : Ends p₀ (fun _ q => Path p₀ q) (stageCall p) := by
  refine Ends.bind (ends_topObject path fun id live => ?_)
  refine Ends.bind (ends_object path live fun o get => ?_)
  cases (if o.hasFlag .uncallable then none else o.closure) with
  | some ref =>
    refine Ends.bind (ends_lookPlain path (p.plain_resolve ref) fun c resolves => ?_)
    exact path.step (.stage resolves) rfl
  | none => exact ends_throw path trivial

theorem ends_makeCall (path : Path p₀ p) : Ends p₀ (fun _ q => Path p₀ q) (makeCall p) := by
  refine Ends.bind (ends_stagedInvocation path fun f n i top there place _ => ?_)
  refine Ends.bind (ends_topFrame path fun f' top' _ => ?_)
  rw [top] at top'; cases top'
  exact ends_pushFrame path top there place

theorem ends_loadException (path : Path p₀ p) (i : Instruction) :
    Ends p₀ (fun _ q => Path p₀ q) (runControl .loadException i p) := by
  refine Ends.bind (ends_topFrame path fun f _ hf => ?_)
  have he := (Frame.holds_iff.mp hf).2.2.1
  cases ho : f.exception with
  | some id =>
    rw [ho] at he
    exact ends_pushObject_last path (he id List.mem_cons_self)
  | none => exact ends_throw path trivial

theorem ends_exit (path : Path p₀ p) (status : UInt64) :
    Ends p₀ (fun _ q => Leads p₀ q) (exit status p) := by
  refine Ends.bind (ends_note path fun path => ?_)
  exact path.ended (o := .exited _) (t := p.uncaught) fun e he => by cases he

theorem ends_runControl (path : Path p₀ p) (op : ControlOp) (i : Instruction) :
    Ends p₀ (fun _ q => Leads p₀ q) (runControl op i p) := by
  have jumps : ∀ {p : Process}, Path p₀ p → Ends p₀ (fun _ q => Leads p₀ q) (jump i p) :=
    fun path => (ends_updateFrame_last path (moves_jump _ i.offset)).mono fun _ _ path => path.leads
  cases op with
  | stage => exact (ends_stageCall path).mono fun _ _ path => path.leads
  | invoke => exact (ends_makeCall path).mono fun _ _ path => path.leads
  | «return» => exact (ends_returnFromFrame path).mono fun _ _ path => path.leads
  | jump => exact jumps path
  | jumpIf =>
    refine Ends.bind (ends_topValue path fun v _ => ?_)
    split
    · exact jumps path
    · exact path.leads
  | jumpTo =>
    exact (ends_updateFrame_last path (moves_goTo _ i.first.toNat)).mono fun _ _ path => path.leads
  | raise =>
    refine Ends.bind (ends_popObject path fun e objects live path => ?_)
    refine Ends.bind (ends_get ?_)
    exact ends_unwind _ _ none path live
  | loadException => exact (ends_loadException path i).mono fun _ _ path => path.leads
  | clearException =>
    refine Ends.bind (ends_topFrame path fun f top hf => ?_)
    refine ends_setTopFrame path top ⟨rfl, rfl, rfl, rfl, rfl, rfl, fun h => h⟩
      (Frame.holds_setException hf (Heap.holds_nil _)) fun _ path => path.leads
  | jumpException =>
    refine Ends.bind (ends_topFrame path fun f _ _ => ?_)
    split
    · exact jumps path
    · exact path.leads
  | exit => exact ends_exit path i.first

/-! ## Execution -/

theorem ends_write (path : Path p₀ p) (s : String) :
    Ends p₀ (fun _ q => Path p₀ q) (write s p) := by
  refine Ends.bind (ends_get ?_)
  cases p.output.write s with
  | ok written =>
    exact path.step (.report written.2 p.diagnostics (written.1.foldl SignalQueue.raise p.signals)
      p.journal) rfl
  | error reason => exact ends_throw path trivial

theorem ends_runRuntime (path : Path p₀ p) (op : RuntimeOp) (i : Instruction) :
    Ends p₀ (fun _ q => Path p₀ q) (runRuntime op i p) := by
  cases op with
  | collect => exact path.step .collect rfl
  | debug =>
    exact path.step (.report p.output (p.diagnostics ++ report p) p.signals p.journal) rfl
  | print =>
    refine Ends.bind (ends_popObject path fun id objects _ path => ?_)
    exact Ends.bind (ends_get (ends_write path _))

/-- An instruction leads along edits of a sound process, whether it succeeds or fails. -/
theorem ends_execute (path : Path p₀ p) (i : Instruction) :
    Ends p₀ (fun _ q => Leads p₀ q) (execute i p) := by
  have leads : ∀ {r : EStateM.Result Fault Process Unit}, Ends p₀ (fun _ q => Path p₀ q) r →
      Ends p₀ (fun _ q => Leads p₀ q) r := fun h => h.mono fun _ _ path => path.leads
  unfold execute
  cases i.op with
  | object op => exact leads (ends_runObject path op i)
  | «variable» op => exact leads (ends_runVariable path op i)
  | «attribute» op source =>
    refine Ends.bind (ends_readName path source i fun name calls path => ?_)
    exact leads (ends_runAttribute path op name)
  | setAttributes => exact leads (ends_setAttributes path)
  | handle op => exact leads (ends_runHandle path op i)
  | control op => exact ends_runControl path op i
  | argument op => exact leads (ends_runArgument path op i)
  | runtime op => exact leads (ends_runRuntime path op i)
  | stack op => exact leads (ends_runStack path op)
  | constant op => exact leads (ends_runConstant path op i)
  | value op => exact leads (ends_perform path fun _ => op.passes)

/-! ## Signals -/

/-- What handling signals leads to: no object comes or goes, and the run may be told to end. -/
structure Signalled (p q : Process) : Prop extends Steps p q where
  heap : q.heap = p.heap
  halt : q.halt = p.halt ∨ ∃ s, q.halt = some (.terminated s)

theorem Signalled.trans {p q r : Process} (a : Signalled p q) (b : Signalled q r) :
    Signalled p r := by
  refine ⟨a.toSteps.trans b.toSteps, b.heap.trans a.heap, ?_⟩
  rcases b.halt with h | h
  · exact a.halt.imp h.trans fun ⟨s, hs⟩ => ⟨s, h.trans hs⟩
  · exact .inr h

theorem ends_handleSignal (sound : p.Sound) (s : Signal) :
    Ends p (fun _ q => Signalled p q) (handleSignal s p) := by
  have noted : ∀ e, Path p (p.note e) := (Path.refl sound).note
  refine Ends.bind (ends_get ?_)
  cases hv : p.vectors s with
  | some vector =>
    have vectored : Ends p (fun _ q => Signalled p q) ((do
        note (.signalVectored s)
        setTopFrame ((← topFrame).interrupt vector) : Exec Unit) p) := by
      refine Ends.bind (ends_note (.refl sound) fun path => ?_)
      refine Ends.bind (ends_topFrame path fun f top _ => ?_)
      exact ⟨(path.step (.interrupt top hv) rfl).toSteps, rfl, .inl rfl⟩
    cases s.category with
    | timer => exact ⟨(noted _).toSteps, rfl, .inl rfl⟩
    | execution | termination | operation => exact vectored
  | none =>
    cases s.category with
    | timer => exact ⟨(noted _).toSteps, rfl, .inl rfl⟩
    | termination =>
      refine Ends.bind (ends_note (.refl sound) fun path => ?_)
      have ended := path.ended (o := .terminated s) (t := p.uncaught) fun e he => by cases he
      exact ⟨ended.toSteps, rfl, .inr ⟨s, rfl⟩⟩
    | execution | operation =>
      exact Ends.bind (ends_note (.refl sound) fun path => ends_throw path trivial)

theorem ends_handleSignals (waiting : List Signal) : ∀ {p : Process}, p.Sound →
    Ends p (fun _ q => Signalled p q) (waiting.forM handleSignal p) := by
  induction waiting with
  | nil => intro p sound; exact ⟨.refl sound, rfl, .inl rfl⟩
  | cons s waiting ih =>
    intro p sound
    refine Ends.bind ((ends_handleSignal sound s).mono fun _ q first => ?_)
    exact Ends.reroot first.toSteps ((ih first.sound).mono fun _ r rest => first.trans rest)

theorem ends_deliverSignals (sound : p.Sound) :
    Ends p (fun _ q => Signalled p q) (deliverSignals p) := by
  have drained : Path p { p with signals := .empty } :=
    (Path.refl sound).step (.report p.output p.diagnostics .empty p.journal) rfl
  have first : Signalled p { p with signals := .empty } := ⟨drained.toSteps, rfl, .inl rfl⟩
  have rest := ends_handleSignals p.signals.waiting drained.sound
  exact Ends.reroot drained.toSteps (rest.mono fun _ q rest => first.trans rest)

/-! ## Turns -/

/-- The counter moves behind the instruction that is fetched, if there is one. -/
theorem ends_fetch {Q : Option Instruction → Process → Prop} (path : Path p₀ p) {f : Frame}
    (top : p.calls.top? = some f) (ended : f.canExecute = false → Q none p)
    (next : ∀ i q, f.code[f.pc]? = some i → Path p₀ q → Q (some i) q) : Ends p₀ Q (fetch f p) := by
  have held := path.sound.topFrame top
  unfold fetch Frame.fetch?
  cases hi : f.code[f.pc]? with
  | none => exact ended (by simpa [Frame.canExecute] using hi)
  | some i =>
    have hlt := (Array.getElem?_eq_some_iff.mp hi).1
    refine Ends.bind (ends_setTopFrame path top ⟨rfl, rfl, rfl, rfl, rfl, rfl, fun _ => hlt⟩ held
      fun calls path => ?_)
    exact Ends.bind (ends_note path fun path => next i _ hi path)

theorem ends_finishCode (path : Path p₀ p) {f : Frame} (top : p.calls.top? = some f)
    (ended : f.canExecute = false) : Ends p₀ (fun _ q => Path p₀ q) (finishCode f p) := by
  unfold finishCode
  cases hr : f.resume? with
  | some f' => exact path.step (.resume top ended hr) rfl
  | none => exact ends_returnFromFrame path

/-- What a turn or several lead to. An uncaught exception that ends them lives, unless it had ended
the run before. -/
structure Turned (p : Process) (outcome : Option Outcome) (q : Process) : Prop
    extends Steps p q where
  kept : ∀ e, (p.halt = some (.uncaught e) → p.heap.contains e = true) →
    q.halt = some (.uncaught e) → q.heap.contains e = true
  answered : ∀ e, (p.halt = some (.uncaught e) → p.heap.contains e = true) →
    outcome = some (.uncaught e) → q.heap.contains e = true

theorem ends_turn (sound : p.Sound) : Ends p (Turned p) (turn p) := by
  refine Ends.bind ((ends_deliverSignals sound).mono fun _ q handled => ?_)
  have lives : ∀ e, (p.halt = some (.uncaught e) → p.heap.contains e = true) →
      q.halt = some (.uncaught e) → q.heap.contains e = true := by
    intro e before he
    rw [handled.heap]
    rcases handled.halt with same | ⟨s, other⟩
    · exact before (same ▸ he)
    · rw [other] at he; cases he
  refine Ends.bind (ends_get ?_)
  cases hh : q.halt with
  | some outcome =>
    have unset : Edit q { q with halt := none } := .outcome none q.uncaught
    have path := (Path.refl (unset.sound handled.sound)).note (.runHalted outcome)
    have reset : Steps q { q with halt := none } := ⟨.single unset, unset.sound handled.sound⟩
    have steps := (handled.toSteps.trans reset).trans path.toSteps
    refine ⟨steps, fun e _ he => ?_, fun e before he => ?_⟩
    · cases he
    · cases he
      exact lives e before hh
  | none =>
    refine Ends.bind (ends_get ?_)
    -- an instruction is executed only when the run is not to end
    have quiet : ∀ {r : Process}, Leads q r → Turned p none r := by
      intro r leads
      refine ⟨handled.toSteps.trans leads.toSteps, fun e _ he => ?_, fun e _ he => by cases he⟩
      rcases leads.halt with same | live
      · rw [same, hh] at he; cases he
      · exact live e he
    have start := Path.refl handled.sound
    cases top : q.calls.top? with
    | none =>
      refine ⟨handled.toSteps.trans (start.note .runCompleted).toSteps, fun e _ he => ?_,
        fun e _ he => by cases he⟩
      exact absurd (hh.symm.trans he) (by simp)
    | some f =>
      refine Ends.reroot handled.toSteps (Ends.bind (ends_fetch start top (fun ended => ?_)
        fun i r _ path => ?_))
      · refine Ends.bind ((ends_finishCode start top ended).mono fun _ r path => ?_)
        exact quiet path.leads
      · exact Ends.bind ((ends_execute path i).mono fun _ r leads => quiet leads)

theorem ends_turns (n : Nat) : ∀ {p : Process}, p.Sound → Ends p (Turned p) (turns n p) := by
  induction n with
  | zero =>
    intro p sound
    exact ⟨.refl sound, fun e before => before, fun e _ he => by cases he⟩
  | succ n ih =>
    intro p sound
    refine Ends.bind ((ends_turn sound).mono fun outcome q turned => ?_)
    cases outcome with
    | some outcome => exact turned
    | none =>
      refine Ends.reroot turned.toSteps ((ih turned.sound).mono fun outcome r rest => ?_)
      exact ⟨turned.toSteps.trans rest.toSteps, fun e before => rest.kept e (turned.kept e before),
        fun e before => rest.answered e (turned.kept e before)⟩

theorem ends_run (sound : p.Sound) (limit : Nat) : Ends p (Turned p) (run limit p) := by
  have noted := (Path.refl sound).note (.runStarted p.calls.depth)
  refine Ends.reroot noted.toSteps ((ends_turns limit noted.sound).mono fun outcome q rest => ?_)
  exact ⟨noted.toSteps.trans rest.toSteps, rest.kept, rest.answered⟩

end Exec

end ObjectVM
