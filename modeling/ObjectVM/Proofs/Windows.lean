import ObjectVM.Proofs.Blindness
import ObjectVM.Proofs.Dispatch

/-!
# Windows

No instruction touches the code of a frame or the windows that it has set aside, neither in the
running frame nor in those below (`Exec.windows_execute`). Only signals add windows, and only where
the code of the running frame has ended is one taken up again. `Process.Step.window` says so of
every step, frame by frame.
-/
namespace ObjectVM

/-- The code of a frame and the windows that it has set aside are the same. -/
structure Frame.SameWindows (f f' : Frame) : Prop where
  code : f'.code = f.code
  suspended : f'.suspended = f.suspended

namespace Frame

variable {f f' f'' : Frame}

theorem SameWindows.refl (f : Frame) : SameWindows f f := ⟨rfl, rfl⟩

theorem SameWindows.trans (a : f.SameWindows f') (b : f'.SameWindows f'') : f.SameWindows f'' :=
  ⟨b.code.trans a.code, b.suspended.trans a.suspended⟩

theorem Continues.sameWindows (c : f.Continues f') : f.SameWindows f' := ⟨c.code, c.suspended⟩

theorem sameWindows_of_site (same : f'.site = f.site) : f.SameWindows f' :=
  ⟨congrArg Site.code same, congrArg Site.suspended same⟩

end Frame

/-- No frame comes, and the code and windows of those that stay are the same; signals and output
rest. -/
structure Process.Keeps (p q : Process) : Prop where
  depth : q.calls.depth ≤ p.calls.depth
  windows : ∀ (n : Nat) (f f' : Frame), p.calls.frames[n]? = some f →
    q.calls.frames[n]? = some f' → f.SameWindows f'
  signals : q.signals = p.signals
  output : q.output = p.output

namespace Process

variable {p q r : Process}

theorem Keeps.trans (a : p.Keeps q) (b : q.Keeps r) : p.Keeps r := by
  refine ⟨Nat.le_trans b.depth a.depth, fun n f f'' hf hf'' => ?_, b.signals.trans a.signals,
    b.output.trans a.output⟩
  obtain ⟨f', hf'⟩ :=
    CallStack.exists_frame (Nat.lt_of_lt_of_le (CallStack.lt_depth hf'') b.depth)
  exact (a.windows n f f' hf hf').trans (b.windows n f' f'' hf' hf'')

/-- What keeps the stack, signals and output. -/
theorem keeps_of_same (calls : q.calls = p.calls) (signals : q.signals = p.signals)
    (output : q.output = p.output) : p.Keeps q := by
  refine ⟨Nat.le_of_eq (by rw [calls]), fun n f f' hf hf' => ?_, signals, output⟩
  rw [calls, hf] at hf'
  cases hf'
  exact .refl f

theorem Keeps.refl (p : Process) : p.Keeps p := keeps_of_same rfl rfl rfl

theorem Rests.site {n : Nat} {f f' : Frame} (rests : p.Rests q)
    (before : p.calls.frames[n]? = some f) (after : q.calls.frames[n]? = some f') :
    f'.site = f.site := by
  have same := congrArg (·[n]?) rests.sites
  simpa [CallStack.sites, before, after] using same

theorem Rests.keeps (rests : p.Rests q) : p.Keeps q := by
  refine ⟨Nat.le_of_eq ?_, fun n f f' before after => ?_, rests.signals, rests.output⟩
  · have same := congrArg Array.size rests.sites
    simpa [CallStack.sites, CallStack.depth] using same
  · exact Frame.sameWindows_of_site (rests.site before after)

/-- A frame that changes in other things keeps its windows. -/
theorem keeps_modify {n : Nat} {g : Frame → Frame}
    (same : ∀ f, p.calls.frames[n]? = some f → f.SameWindows (g f)) :
    p.Keeps { p with calls := p.calls.modify n g } := by
  refine ⟨Nat.le_of_eq Array.size_modify, fun k f f' before after => ?_, rfl, rfl⟩
  rw [show (p.calls.modify n g).frames[k]? = _ from Array.getElem?_modify, before] at after
  split at after
  · next at_ =>
    subst at_
    cases after
    exact same f before
  · cases after
    exact .refl f

theorem keeps_setTop {f g : Frame} (top : p.calls.top? = some f) (same : f.SameWindows g) :
    p.Keeps { p with calls := p.calls.modifyTop fun _ => g } := by
  refine keeps_modify fun f' there => ?_
  rw [CallStack.frame_of_top top] at there
  cases there
  exact same

theorem keeps_dropTop : p.Keeps { p with calls := p.calls.dropTop } := by
  refine ⟨by simp [CallStack.dropTop, CallStack.depth], fun n f f' before after => ?_, rfl, rfl⟩
  rw [getElem?_of_pop after] at before
  cases before
  exact .refl _

/-- A frame that returns leaves the windows of its caller as they are. -/
theorem keeps_afterReturn (p : Process) (f : Frame) : p.Keeps (p.afterReturn f) := by
  have moved : p.Keeps { p with calls := p.calls.afterReturn f } := by
    unfold CallStack.afterReturn
    cases f.returnAddress with
    | none => exact keeps_dropTop
    | some address => exact keeps_dropTop.trans (keeps_modify fun _ _ => ⟨rfl, rfl⟩)
  exact moved.trans (keeps_of_same rfl rfl rfl)

theorem keeps_applyRules (p : Process) : p.Keeps p.applyRules := by
  unfold applyRules
  split
  · exact keeps_of_same rfl rfl rfl
  · exact .refl p

end Process

/-! ## Instructions that keep windows -/

namespace Exec

variable {p : Process} {α β : Type}

/-- Whether it succeeds or fails, it keeps windows, signals and output. -/
def IsKeeping (m : Exec α) : Prop := ∀ p : Process, p.Keeps (left (m p))

theorem keeps_bind {m : Exec α} {k : α → Exec β} (hm : p.Keeps (left (m p)))
    (hk : ∀ a q, m p = .ok a q → q.Keeps (left (k a q))) : p.Keeps (left ((m >>= k) p)) := by
  rw [left_bind]
  cases h : m p with
  | ok a q =>
    rw [h] at hm
    exact hm.trans (hk a q h)
  | error fault q =>
    rw [h] at hm
    exact hm

theorem IsKeeping.bind {m : Exec α} {k : α → Exec β} (hm : IsKeeping m)
    (hk : ∀ a, IsKeeping (k a)) : IsKeeping (m >>= k) :=
  fun p => keeps_bind (hm p) fun a q _ => hk a q

theorem IsBlind.keeping {m : Exec α} (blind : IsBlind m) : IsKeeping m :=
  fun p => (blind p).rests.keeps

theorem keeping_topFrame : IsKeeping topFrame := by
  intro p
  cases top : p.calls.top? with
  | some f =>
    rw [topFrame_eq top]
    exact .refl p
  | none =>
    rw [topFrame_none top]
    exact .refl p

theorem keeping_note (e : Event) : IsKeeping (note e) :=
  fun _ => Process.keeps_of_same rfl rfl rfl

theorem keeping_updateFrame {g : Frame → Except Fault Frame}
    (same : ∀ f f', g f = .ok f' → f.SameWindows f') : IsKeeping (updateFrame g) := by
  intro p
  refine keeps_bind (keeping_topFrame p) fun f q looked => ?_
  cases top : p.calls.top? with
  | none =>
    rw [topFrame_none top] at looked
    cases looked
  | some f' =>
    rw [topFrame_eq top] at looked
    cases looked
    rw [left_bind]
    cases changed : g f with
    | ok f'' => exact Process.keeps_setTop top (same f f'' changed)
    | error fault => exact .refl p

/-- A move of the running frame keeps its windows. -/
theorem keeping_move {h : Heap} {g : Frame → Except Fault Frame} (moves : Moves h g) :
    IsKeeping (updateFrame g) :=
  keeping_updateFrame fun f f' e => (moves.continues f f' e).sameWindows

theorem keeping_jump (i : Instruction) : IsKeeping (jump i) :=
  keeping_move (moves_jump (.empty 0) i.offset)

theorem keeping_takeNamed (key skipped : UInt64) : IsKeeping (takeNamed key skipped) := by
  refine blind_ownInvocation.keeping.bind fun ⟨_, own⟩ => ?_
  dsimp only
  split
  · exact (blind_takeOwn _).keeping.bind fun id => (blind_pushObject id).keeping.bind fun _ =>
      keeping_move (moves_skip (.empty 0) skipped)
  · exact (IsBlind.pure _).keeping

theorem keeping_returnFromFrame : IsKeeping returnFromFrame := by
  intro p
  cases top : p.calls.top? with
  | some f =>
    rw [returnFromFrame_eq top]
    exact (p.keeps_afterReturn f).trans (Process.keeps_applyRules _)
  | none =>
    unfold returnFromFrame popFrame
    rw [left_bind_error (bind_error (topFrame_none top))]
    exact .refl p

/-- Frames that an exception leaves behind are gone, and the others keep their windows. -/
theorem keeping_unwind (e : ObjectId) (depth : Nat) : ∀ (search : Bool)
    (trace : Option Traceback), IsKeeping (unwind e search trace depth) := by
  -- on the number of frames, as the exception comes from one to the next
  induction depth with
  | zero => exact fun _ _ p => .refl p
  | succ depth ih =>
    intro search trace p
    rw [unwind_succ, left_bind]
    cases top : p.calls.top? with
    | none =>
      rw [topFrame_none top]
      exact .refl p
    | some f =>
      rw [topFrame_eq top]
      have asked := left_asked (p := p) f search
      show p.Keeps (left ((_ >>= handOver e trace depth f) p))
      refine keeps_bind (by rw [asked]; exact .refl p) fun target q ran => ?_
      rw [ran] at asked
      obtain rfl : q = p := asked
      cases target with
      | some target =>
        refine keeps_bind (Process.keeps_setTop top ⟨rfl, rfl⟩) fun _ q _ => ?_
        exact ((keeping_move (moves_goTo (.empty 0) target)).bind fun _ => keeping_note _) q
      | none =>
        cases below : q.calls.dropTop.top? with
        | some caller =>
          rw [handOver_pass top below]
          have handed := Process.keeps_setTop (p := { q with calls := q.calls.dropTop }) below
            (g := caller.setException (some e)) ⟨rfl, rfl⟩
          refine (Process.keeps_dropTop.trans handed).trans (Process.Keeps.trans ?_ (ih true _ _))
          exact Process.keeps_of_same rfl rfl rfl
        | none =>
          rw [handOver_last top below]
          exact Process.keeps_dropTop.trans (Process.keeps_of_same rfl rfl rfl)

theorem keeping_runControl {op : ControlOp} (inner : op ≠ .invoke) (i : Instruction) :
    IsKeeping (runControl op i) := by
  have jumps : ∀ c : Bool, IsKeeping (if c then jump i else pure () : Exec Unit) := by
    intro c
    cases c
    · exact (IsBlind.pure _).keeping
    · exact keeping_jump i
  cases op with
  | stage => exact blind_stageCall.keeping
  | invoke => exact absurd rfl inner
  | «return» => exact keeping_returnFromFrame
  | jump => exact keeping_jump i
  | jumpIf => exact blind_topValue.keeping.bind fun v => jumps _
  | jumpTo => exact keeping_move (moves_goTo (.empty 0) _)
  | raise => exact blind_popObject.keeping.bind fun e => fun p => keeping_unwind e _ _ none p
  | loadException =>
    exact (blind_execute (i := { i with op := .control .loadException }) rfl).keeping
  | clearException =>
    exact (blind_execute (i := { i with op := .control .clearException }) rfl).keeping
  | jumpException => exact keeping_topFrame.bind fun f => jumps _
  | exit => exact fun p => Process.keeps_of_same rfl rfl rfl

/-- An instruction keeps windows, signals and output, unless it makes a call or prints. -/
theorem keeping_execute {i : Instruction} (inner : i.op ≠ .control .invoke)
    (silent : i.op ≠ .runtime .print) : IsKeeping (execute i) := by
  by_cases blind : i.op.isBlind = true
  · exact (blind_execute blind).keeping
  · unfold execute
    cases hop : i.op with
    | control op =>
      refine keeping_runControl (fun same => inner ?_) i
      rw [hop, same]
    | argument op =>
      rw [hop] at blind
      cases op with
      | takeNamed => exact keeping_takeNamed _ _
      | _ => exact absurd rfl blind
    | runtime op =>
      rw [hop] at blind silent
      cases op with
      | print => exact absurd rfl silent
      | _ => exact absurd rfl blind
    | _ =>
      rw [hop] at blind
      exact absurd rfl blind

/-! ### Calls and output -/

theorem execute_print {i : Instruction} (op : i.op = .runtime .print) :
    execute i = print (i.first != 0) := by
  unfold execute
  rw [op]
  rfl

/-- A call adds a frame, in which no signal vector runs, or fails; no more. -/
theorem makeCall_cases (p : Process) : (left (makeCall p)).signals = p.signals ∧
    (left (makeCall p)).output = p.output ∧
    ((left (makeCall p)).calls = p.calls ∨
      ∃ f, f.suspended = [] ∧ (left (makeCall p)).calls = p.calls.add f) := by
  rcases stagedInvocation_cases p with ⟨fault, none⟩ | ⟨f, n, j, top, above, last, there, -⟩
  · unfold makeCall
    rw [left_bind_error none]
    exact ⟨rfl, rfl, .inl rfl⟩
  · rw [makeCall_eq top above last there]
    cases outward : p.lexicalParent j.callee with
    | error fault =>
      unfold pushFrame
      rw [left_bind_error (look_error outward)]
      exact ⟨rfl, rfl, .inl rfl⟩
    | ok parent =>
      cases resolves : p.resolve j.callee with
      | error fault =>
        unfold pushFrame
        rw [left_bind_ok (look_eq outward), left_bind_error (look_error resolves)]
        exact ⟨rfl, rfl, .inl rfl⟩
      | ok c =>
        rw [pushFrame_eq outward resolves]
        split
        · exact ⟨rfl, rfl, .inl rfl⟩
        · exact ⟨rfl, rfl, .inr ⟨_, rfl, rfl⟩⟩

/-- Writing changes the output and raises what its reader raises; no more. -/
theorem write_cases (s : String) (p : Process) : left (write s p) = p ∨
    ∃ raised output, p.output.write s = .ok (raised, output) ∧
      left (write s p) =
        { p with output, signals := raised.foldl SignalQueue.raise p.signals } := by
  unfold write
  rw [get_bind]
  cases written : p.output.write s with
  | ok written => exact .inr ⟨_, _, rfl, rfl⟩
  | error reason => exact .inl rfl

theorem print_cases (suppress : Bool) (p : Process) : left (print suppress p) = p ∨
    ∃ objects, ∃ s, left (print suppress p) = left (write s { p with objects }) := by
  unfold print
  cases ho : p.objects with
  | nil =>
    rw [left_bind_error (popObject_nil ho)]
    exact .inl rfl
  | cons id rest =>
    rw [left_bind_ok (popObject_eq ho), get_bind]
    exact .inr ⟨rest, _, rfl⟩

theorem calls_print (suppress : Bool) (p : Process) :
    (left (print suppress p)).calls = p.calls := by
  rcases print_cases suppress p with same | ⟨objects, s, same⟩
  · rw [same]
  · rw [same]
    rcases write_cases s { p with objects } with same | ⟨raised, output, -, same⟩
    · rw [same]
    · rw [same]

/-- No instruction touches the code or the windows of a frame that stays. -/
theorem windows_execute (i : Instruction) {n : Nat} {f f' : Frame}
    (before : p.calls.frames[n]? = some f)
    (after : (left (execute i p)).calls.frames[n]? = some f') : f.SameWindows f' := by
  by_cases inner : i.op = .control .invoke
  · rw [Process.execute_invoke inner] at after
    obtain ⟨-, -, same | ⟨g, -, added⟩⟩ := makeCall_cases p
    · rw [same, before] at after
      cases after
      exact .refl f
    · rw [added] at after
      rcases CallStack.frame_add_cases after with ⟨rfl, -⟩ | ⟨-, there⟩
      · exact absurd (CallStack.lt_depth before) (Nat.lt_irrefl _)
      · rw [before] at there
        cases there
        exact .refl f
  · by_cases silent : i.op = .runtime .print
    · rw [execute_print silent, calls_print, before] at after
      cases after
      exact .refl f
    · exact (keeping_execute inner silent p).windows n f f' before after

end Exec

/-! ## Signals and ends -/

/-- A frame before and after signals have been handled: it is as it was, or windows have been set
aside in it, the first of which is where it was. -/
inductive Frame.Stacks (f : Frame) : Frame → Prop where
  | same : Stacks f f
  | more {f' : Frame} (newer : List Window)
    (suspended : f'.suspended = newer ++ ⟨f.code, f.pc⟩ :: f.suspended) : Stacks f f'

theorem Frame.Stacks.trans {f f' f'' : Frame} (a : f.Stacks f') (b : f'.Stacks f'') :
    f.Stacks f'' := by
  cases a with
  | same => exact b
  | more newer suspended =>
    cases b with
    | same => exact .more newer suspended
    | more newer' suspended' =>
      refine .more (newer' ++ ⟨f'.code, f'.pc⟩ :: newer) ?_
      rw [suspended', suspended, List.append_assoc, List.cons_append]

/-- How a signal is handled. A timer signal is ignored; any other runs its vector, if it has one and
there is a frame to run it in; without a vector it ends the run or is fatal. -/
inductive Process.Handles (p : Process) (s : Signal) :
    EStateM.Result Fault Process Unit → Prop where
  | ignored (timer : s.category = .timer) : Handles p s (.ok () (p.note (.signalIgnored s)))
  | vectored {vector : Code} {f : Frame} (acts : s.category ≠ .timer)
    (set : p.vectors s = some vector) (top : p.calls.top? = some f) :
    Handles p s (.ok () { p.note (.signalVectored s) with
      calls := p.calls.modifyTop fun _ => f.interrupt vector })
  | unframed {vector : Code} (acts : s.category ≠ .timer) (set : p.vectors s = some vector)
    (none : p.calls.top? = none) :
    Handles p s (.error .frameNotFound (p.note (.signalVectored s)))
  | terminates (ends : s.category = .termination) (unset : p.vectors s = none) :
    Handles p s (.ok () { p.note (.signalTerminates s) with halt := some (.terminated s) })
  | fatal (acts : s.category ≠ .timer) (lasts : s.category ≠ .termination)
    (unset : p.vectors s = none) :
    Handles p s (.error (.fatalSignal s) (p.note (.signalFatal s)))

namespace Exec

variable {p : Process}

theorem handles_handleSignal (p : Process) (s : Signal) : p.Handles s (handleSignal s p) := by
  have vectored : ∀ vector, s.category ≠ .timer → p.vectors s = some vector →
      p.Handles s ((do
        note (.signalVectored s)
        setTopFrame ((← topFrame).interrupt vector) : Exec Unit) p) := by
    intro vector acts set
    have noted : note (.signalVectored s) p = .ok () (p.note (.signalVectored s)) := rfl
    rw [bind_ok noted]
    cases top : p.calls.top? with
    | none =>
      rw [bind_error (topFrame_none (p := p.note _) top)]
      exact .unframed acts set top
    | some f =>
      rw [bind_ok (topFrame_eq (p := p.note _) top)]
      exact .vectored acts set top
  unfold handleSignal
  rw [get_bind]
  cases set : p.vectors s with
  | some vector =>
    cases cat : s.category with
    | timer => exact .ignored cat
    | execution | termination | operation => exact vectored vector (by rw [cat]; nofun) set
  | none =>
    cases cat : s.category with
    | timer => exact .ignored cat
    | termination => exact .terminates cat set
    | execution | operation => exact .fatal (by rw [cat]; nofun) (by rw [cat]; nofun) set

/-- Handling a signal changes the running frame at most, and sets aside a window there. -/
theorem stacks_handleSignal (s : Signal) {n : Nat} {f' : Frame}
    (after : (left (handleSignal s p)).calls.frames[n]? = some f') :
    ∃ f, p.calls.frames[n]? = some f ∧ f.Stacks f' := by
  have handled := handles_handleSignal p s
  generalize handleSignal s p = r at after handled
  cases handled with
  | vectored acts set top =>
    replace after : (p.calls.frames.modify (p.calls.depth - 1) _)[n]? = some f' := after
    rw [Array.getElem?_modify] at after
    split at after
    · next last =>
      subst last
      rw [CallStack.frame_of_top top] at after
      cases after
      exact ⟨_, CallStack.frame_of_top top, .more [] rfl⟩
    · exact ⟨f', after, .same⟩
  | ignored | unframed | terminates | fatal => exact ⟨f', after, .same⟩

theorem stacks_deliverSignals {n : Nat} {f' : Frame}
    (after : (left (deliverSignals p)).calls.frames[n]? = some f') :
    ∃ f, p.calls.frames[n]? = some f ∧ f.Stacks f' := by
  have handled : ∀ (waiting : List Signal) (p : Process) (f' : Frame),
      (left (waiting.forM handleSignal p)).calls.frames[n]? = some f' →
        ∃ f, p.calls.frames[n]? = some f ∧ f.Stacks f' := by
    intro waiting
    induction waiting with
    | nil => exact fun p f' after => ⟨f', after, .same⟩
    | cons s waiting ih =>
      intro p f' after
      replace after : (left ((handleSignal s >>= fun _ => waiting.forM handleSignal)
        p)).calls.frames[n]? = some f' := after
      rw [left_bind] at after
      have first := fun f' => @stacks_handleSignal p s n f'
      cases ran : handleSignal s p with
      | ok _ q =>
        rw [ran] at after first
        obtain ⟨f₁, there, rest⟩ := ih q f' after
        obtain ⟨f, there, stacked⟩ := first f₁ there
        exact ⟨f, there, stacked.trans rest⟩
      | error fault q =>
        rw [ran] at after first
        exact first f' after
  exact handled p.signals.waiting { p with signals := .empty } f' after

end Exec

/-- What one step does to the code and the windows of a frame that stays: nothing, or signals are
handled, or the frame runs, its code has ended, and the window set aside last is taken up. -/
inductive Process.WindowStep (p : Process) (label : Option (Process × Instruction)) (n : Nat)
    (f f' : Frame) : Prop where
  | keeps (same : f.SameWindows f')
  | stacked (silent : label = none) (stacked : f.Stacks f')
  | resumes (silent : label = none) (running : p.calls.depth = n + 1) (ended : f.canExecute = false)
    (resumed : f.resume? = some f')

namespace Process

variable {p q : Process} {n : Nat} {f f' : Frame} {label : Option (Process × Instruction)}

theorem keeps_fetched (p : Process) : p.Keeps p.fetched := by
  rcases p.fetched_cases with same | ⟨f, i, journal, top, -, same⟩
  · rw [same]
    exact .refl p
  · have moved : p.Keeps
        { p with calls := p.calls.modifyTop fun _ => { f with pc := f.pc + 1 } } :=
      keeps_setTop top ⟨rfl, rfl⟩
    rw [same]
    exact moved.trans (keeps_of_same rfl rfl rfl)

theorem windowStep_of_calls (calls : q.calls = p.calls) (before : p.calls.frames[n]? = some f)
    (after : q.calls.frames[n]? = some f') : p.WindowStep label n f f' := by
  rw [calls, before] at after
  cases after
  exact .keeps (.refl f)

theorem Step.window (s : p.Step label q) (before : p.calls.frames[n]? = some f)
    (after : q.calls.frames[n]? = some f') : p.WindowStep label n f f' := by
  cases s with
  | instruction next =>
    refine .keeps ?_
    obtain ⟨f₁, there⟩ : ∃ f₁, p.fetched.calls.frames[n]? = some f₁ := by
      have : p.fetched.calls.depth = p.calls.depth := p.quiet_fetched.depth
      exact CallStack.exists_frame (this ▸ CallStack.lt_depth before)
    exact (p.keeps_fetched.windows n f f₁ before there).trans
      (Exec.windows_execute _ there after)
  | @ended g top ended =>
    unfold Exec.finishCode at after
    cases resumed : g.resume? with
    | none =>
      rw [resumed] at after
      exact .keeps ((Exec.keeping_returnFromFrame p).windows n f f' before after)
    | some g' =>
      rw [resumed] at after
      replace after : (p.calls.frames.modify (p.calls.depth - 1) _)[n]? = some f' := after
      rw [Array.getElem?_modify, before] at after
      split at after
      · next last =>
        subst last
        rw [CallStack.frame_of_top top] at before
        cases before
        cases after
        have := CallStack.depth_pos top
        exact .resumes rfl (by omega) ended resumed
      · cases after
        exact .keeps (.refl f)
  | between r between =>
    cases r with
    | deliver =>
      obtain ⟨g, there, stacked⟩ := Exec.stacks_deliverSignals after
      rw [before] at there
      cases there
      exact .stacked rfl stacked
    | handle s =>
      obtain ⟨g, there, stacked⟩ := Exec.stacks_handleSignal s after
      rw [before] at there
      cases there
      exact .stacked rfl stacked
    | raise | collect | setRule | setVector | redirect => exact windowStep_of_calls rfl before after
    | load | start | run | execute | reset | abandon => exact between.elim
  | noted | answered => exact windowStep_of_calls rfl before after

end Process

end ObjectVM
