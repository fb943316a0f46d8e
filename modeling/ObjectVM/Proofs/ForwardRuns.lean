import ObjectVM.Proofs.Onward
import ObjectVM.Proofs.SignalFates

/-!
# Programs that only move on come to an end

A run of a program that only moves on ends after finitely many turns (`forward_programs_end`),
however its calls are nested and wherever its exceptions are caught, as long as no signal is
delivered. The number of turns is bounded by the size of the longest code and the depth of the call
stack.

What the frames have still to go, the first frame's first, are the digits of a number
(`Process.measure`). A turn makes the digit of the running frame smaller, or those of frames below
it, and may make only later ones larger: a call puts a new digit behind the caller's, which has
become smaller since the call has been fetched. So the number becomes smaller in every turn.
-/
namespace ObjectVM

/-! ## Digits -/

/-- The number with the first `n` of these digits, the first of which weighs the most. -/
def numeral (base : Nat) (digit : Nat → Nat) : (n : Nat) → Nat
  | 0 => 0
  | n + 1 => numeral base digit n * base + digit n

section Digits

variable {base k : Nat} {digit digit' : Nat → Nat}

theorem numeral_le (n : Nat) (le : ∀ m < n, digit' m ≤ digit m) :
    numeral base digit' n ≤ numeral base digit n := by
  induction n with
  | zero => exact Nat.le_refl _
  | succ n ih =>
    have front := ih fun m hm => le m (Nat.lt_succ_of_lt hm)
    have last := le n (Nat.lt_succ_self n)
    exact Nat.add_le_add (Nat.mul_le_mul_right base front) last

/-- Whatever the last digit is, the front decides. -/
theorem mul_add_lt {x y u : Nat} (front : x < y) (last : u < base) (v : Nat) :
    x * base + u < y * base + v :=
  calc x * base + u
      < x * base + base := Nat.add_lt_add_left last _
    _ = (x + 1) * base := (Nat.succ_mul _ _).symm
    _ ≤ y * base := Nat.mul_le_mul_right base front
    _ ≤ y * base + v := Nat.le_add_right _ _

theorem numeral_lt_pow (n : Nat) (small : ∀ m < n, digit m < base) :
    numeral base digit n < base ^ n := by
  induction n with
  | zero => exact Nat.one_pos
  | succ n ih =>
    have front := ih fun m hm => small m (Nat.lt_succ_of_lt hm)
    rw [Nat.pow_succ]
    exact mul_add_lt front (small n (Nat.lt_succ_self n)) 0

/-- The first digit that changes decides. -/
theorem numeral_lt (n : Nat) (there : k < n) (le : ∀ m < k, digit' m ≤ digit m)
    (lt : digit' k < digit k) (small : ∀ m < n, digit' m < base) :
    numeral base digit' n < numeral base digit n := by
  induction n with
  | zero => exact absurd there (Nat.not_lt_zero k)
  | succ n ih =>
    rcases Nat.lt_succ_iff_lt_or_eq.mp there with inner | rfl
    · have front := ih inner fun m hm => small m (Nat.lt_succ_of_lt hm)
      exact mul_add_lt front (small n (Nat.lt_succ_self n)) _
    · have front : numeral base digit' k ≤ numeral base digit k := numeral_le k le
      exact Nat.add_lt_add_of_le_of_lt (Nat.mul_le_mul_right base front) lt

end Digits

/-! ## The measure -/

namespace Process

/-- The size of the longest code that is loaded. -/
def longest (p : Process) : Nat :=
  (p.compartments.toList.flatMap fun m => m.closures.toList.map (·.code.size)).max?.getD 0

/-- What the frames have still to go, as one number. -/
def measure (p : Process) : Nat := numeral (p.longest + 2) p.calls.rest p.calls.maxDepth

/-- No signal is delivered: none waits, the reader of the output raises none, and no frame runs a
signal vector. -/
structure Undisturbed (p : Process) : Prop where
  waiting : p.signals.waiting = []
  alarms : p.output.alarms = []
  windows : ∀ (n : Nat) (f : Frame), p.calls.frames[n]? = some f → f.suspended = []

/-- A process that is sound, whose callers wait, and in which what runs only moves on. -/
structure Advancing (p : Process) : Prop where
  sound : p.Sound
  ordered : p.Ordered
  forward : p.Forward
  undisturbed : p.Undisturbed

variable {p q : Process} {f : Frame} {i : Instruction} {n : Nat}

theorem size_le_longest {c : Closure} (loads : p.Loads c) : c.code.size ≤ p.longest := by
  obtain ⟨m, there, mem⟩ := loads
  refine List.le_max?_getD_of_mem (List.mem_flatMap.mpr ⟨m, Array.mem_toList_iff.mpr there, ?_⟩)
  exact List.mem_map_of_mem (Array.mem_toList_iff.mpr mem)

namespace Undisturbed

theorem keeps (u : p.Undisturbed) (k : p.Keeps q) : q.Undisturbed := by
  refine ⟨by rw [k.signals]; exact u.waiting, by rw [k.output]; exact u.alarms, fun n f' hf' => ?_⟩
  obtain ⟨f, hf⟩ := CallStack.exists_frame (Nat.lt_of_lt_of_le (CallStack.lt_depth hf') k.depth)
  exact (k.windows n f f' hf hf').suspended.trans (u.windows n f hf)

/-- Where no signal waits, to deliver signals does nothing. -/
theorem deliver (u : p.Undisturbed) : Exec.deliverSignals p = .ok () p := by
  have empty : p.signals = .empty := by
    unfold SignalQueue.empty
    rw [← u.waiting]
  have same : { p with signals := .empty } = p := by rw [← empty]
  calc Exec.deliverSignals p = .ok () { p with signals := .empty } := by
        unfold Exec.deliverSignals
        rw [Exec.get_bind, empty]
        rfl
    _ = .ok () p := by rw [same]

/-- Where none waits and the reader raises none, none waits behind what is accounted for. -/
theorem accounts (u : p.Undisturbed) (a : p.Accounts [] q) :
    q.signals.waiting = [] ∧ q.output.alarms = [] := by
  have silent : p.alarmsTo q = [] := List.flatMap_eq_nil_iff.mpr fun i _ => by rw [u.alarms]; rfl
  have inOrder := a.inOrder
  rw [u.waiting, silent] at inOrder
  exact ⟨inOrder.symm, a.alarms.trans u.alarms⟩

/-- No instruction starts a signal vector. -/
theorem execute (u : p.Undisturbed) (i : Instruction) : (p.after (.execute i)).Undisturbed := by
  obtain ⟨waiting, alarms⟩ := u.accounts (Exec.accounts_execute i p)
  refine ⟨waiting, alarms, fun n f' hf' => ?_⟩
  replace hf' : (Exec.left (Exec.execute i p)).calls.frames[n]? = some f' := hf'
  by_cases there : n < p.calls.depth
  · obtain ⟨f, hf⟩ := CallStack.exists_frame there
    exact (Exec.windows_execute i hf hf').suspended.trans (u.windows n f hf)
  -- only a call makes a frame
  have above := CallStack.lt_depth hf'
  by_cases inner : i.op = .control .invoke
  · rw [Process.execute_invoke inner] at hf'
    obtain ⟨-, -, same | ⟨g, idle, added⟩⟩ := Exec.makeCall_cases p
    · rw [same] at hf'
      exact absurd (CallStack.lt_depth hf') there
    · rw [added] at hf'
      rcases CallStack.frame_add_cases hf' with ⟨-, rfl⟩ | ⟨below, -⟩
      · exact idle
      · exact absurd below there
  · by_cases silent : i.op = .runtime .print
    · rw [Exec.execute_print silent, Exec.calls_print] at above
      exact absurd above there
    · exact absurd (Nat.lt_of_lt_of_le above (Exec.keeping_execute inner silent p).depth) there

end Undisturbed

/-- To fetch takes the running frame on, and no other back. -/
theorem rest_fetched (top : p.calls.top? = some f) (here : f.code[f.pc]? = some i) :
    p.fetched.calls.depth = p.calls.depth ∧ p.calls.Onward p.fetched.calls ∧
      p.fetched.calls.rest (p.calls.depth - 1) < p.calls.rest (p.calls.depth - 1) := by
  obtain ⟨journal, same⟩ := fetched_eq top here
  have moved : p.fetched.calls = p.calls.modifyTop fun _ => { f with pc := f.pc + 1 } := by
    rw [same]
  have depth : p.fetched.calls.depth = p.calls.depth := by
    rw [moved]
    exact Array.size_modify
  refine ⟨depth, ?_, ?_⟩
  · rw [moved]
    exact CallStack.onward_setTop top (Frame.rest_le rfl (Nat.le_succ _))
  · have bound : f.pc < f.code.size := (Array.getElem?_eq_some_iff.mp here).1
    have rest := CallStack.rest_top (top?_fetched top here)
    rw [depth] at rest
    rw [rest, CallStack.rest_top top]
    unfold Frame.rest
    dsimp only
    omega

namespace Advancing

/-- Where no signal vector runs, the code of a frame is one that is loaded. -/
theorem code (a : p.Advancing) (there : p.calls.frames[n]? = some f) :
    ∃ c, p.Loads c ∧ f.code = c.code := by
  obtain ⟨c, loads, own⟩ := a.ordered.codes n f there
  refine ⟨c, loads, ?_⟩
  rw [← own, Frame.ownCode, a.undisturbed.windows n f there]
  rfl

theorem rest_lt (a : p.Advancing) (n : Nat) : p.calls.rest n < p.longest + 2 := by
  cases there : p.calls.frames[n]? with
  | none =>
    rw [CallStack.rest_of_none there]
    exact Nat.succ_pos _
  | some f =>
    obtain ⟨c, loads, code⟩ := a.code there
    have size := size_le_longest loads
    rw [CallStack.rest_of_frame there, Frame.rest, code]
    omega

theorem measure_lt_pow (a : p.Advancing) :
    p.measure < (p.longest + 2) ^ p.calls.maxDepth :=
  numeral_lt_pow _ fun m _ => a.rest_lt m

theorem edits (a : p.Advancing) (steps : Steps p q) (u : q.Undisturbed) : q.Advancing := by
  refine ⟨steps.sound, steps.edits.ordered a.ordered, ?_, u⟩
  unfold Forward
  rw [steps.edits.bounds.1]
  exact a.forward

theorem fetched (a : p.Advancing) : p.fetched.Advancing := by
  have u := a.undisturbed.keeps p.keeps_fetched
  rcases p.fetched_cases with same | ⟨f, i, journal, top, -, same⟩
  · rwa [same]
  · rw [same] at u ⊢
    have moved : { p with
        calls := p.calls.modifyTop fun _ => { f with pc := f.pc + 1 } }.Ordered :=
      a.ordered.setTop top rfl rfl
    refine ⟨?_, moved.keep rfl rfl, a.forward, u⟩
    rw [← same]
    exact a.sound.fetched

theorem execute (a : p.Advancing) (i : Instruction) : (p.after (.execute i)).Advancing :=
  a.edits (a.sound.steps_execute i) (a.undisturbed.execute i)

/-- Where a digit becomes smaller and none in front of it larger, so does the number. -/
theorem measure_lt (a : q.Advancing) (compartments : q.compartments = p.compartments)
    (maxDepth : q.calls.maxDepth = p.calls.maxDepth) {k : Nat} (there : k < p.calls.maxDepth)
    (le : ∀ m < k, q.calls.rest m ≤ p.calls.rest m) (lt : q.calls.rest k < p.calls.rest k) :
    q.measure < p.measure := by
  have longest : q.longest = p.longest := by
    unfold Process.longest
    rw [compartments]
  unfold measure
  rw [longest, maxDepth]
  exact numeral_lt _ there le lt fun m _ => longest ▸ a.rest_lt m

/-- What the running frame is at leads on. -/
theorem leadsOn (a : p.Advancing) (top : p.calls.top? = some f)
    (here : f.code[f.pc]? = some i) : i.leadsOn = true ∧ f.pc + 1 ≤ 2 ^ 63 := by
  obtain ⟨c, ⟨m, loaded, mem⟩, code⟩ := a.code (CallStack.frame_of_top top)
  have forward := a.forward m loaded c mem
  have bound : f.pc < f.code.size := (Array.getElem?_eq_some_iff.mp here).1
  have size := forward.size
  rw [← code] at size
  exact ⟨forward.code i (code ▸ Array.mem_of_getElem? here), by omega⟩

/-- An instruction that is fetched and executed takes the running frame on. -/
theorem measure_execute (a : p.Advancing) (next : p.next? = some i) :
    (p.fetched.after (.execute i)).measure < p.measure := by
  obtain ⟨f, top, here⟩ := next?_eq_some_iff.mp next
  obtain ⟨leads, small⟩ := a.leadsOn top here
  obtain ⟨journal, same⟩ := fetched_eq top here
  obtain ⟨depth, onward, less⟩ := rest_fetched top here
  have executed : ∀ n < p.calls.depth,
      (p.fetched.after (.execute i)).calls.rest n ≤ p.fetched.calls.rest n := fun n there =>
    Exec.onward_execute a.fetched.forward a.fetched.ordered leads (top?_fetched top here) small
      (depth ▸ there)
  have bounds := (a.fetched.sound.steps_execute i).edits.bounds
  have running := CallStack.lt_depth (CallStack.frame_of_top top)
  refine (a.fetched.execute i).measure_lt (bounds.1.trans (by rw [same]))
    (bounds.2.trans (by rw [same]; rfl)) (Nat.lt_of_lt_of_le running a.ordered.depth)
    (fun n below => ?_) (Nat.lt_of_le_of_lt (executed _ running) less)
  exact Nat.le_trans (executed n (Nat.lt_trans below running)) (onward n)

/-- Where the code of the running frame has ended, the frame leaves and has no digit any more. -/
theorem finish (a : p.Advancing) (top : p.calls.top? = some f) (ended : f.canExecute = false) :
    (Exec.left (Exec.finishCode f p)).Advancing ∧
      (Exec.left (Exec.finishCode f p)).measure < p.measure := by
  have last := CallStack.frame_of_top top
  have returns : Exec.finishCode f p = Exec.returnFromFrame p := by
    unfold Exec.finishCode Frame.resume?
    rw [a.undisturbed.windows _ f last]
  have steps : Steps p (Exec.left (Exec.finishCode f p)) :=
    steps_left (Exec.ends_finishCode (.refl a.sound) top ended) fun _ _ path => path.toSteps
  rw [returns] at steps ⊢
  have advancing := a.edits steps (a.undisturbed.keeps (Exec.keeping_returnFromFrame p))
  have onward := Exec.onward_returnFromFrame a.ordered top
  have running := CallStack.lt_depth last
  refine ⟨advancing, advancing.measure_lt steps.edits.bounds.1 steps.edits.bounds.2
    (Nat.lt_of_lt_of_le running a.ordered.depth) (fun n _ => onward n) ?_⟩
  have gone : (p.calls.afterReturn f).rest (p.calls.depth - 1) = 0 :=
    CallStack.rest_of_none (Array.getElem?_eq_none (Nat.le_of_eq (p.calls.depth_afterReturn f)))
  rw [Exec.calls_returnFromFrame top, gone, CallStack.rest_top top]
  exact Nat.succ_pos _

end Advancing

end Process

/-! ## Runs -/

namespace Exec

/-- Whether a run has come to an end, with an outcome or a fault. -/
def IsEnd : EStateM.Result Fault Process (Option Outcome) → Prop
  | .ok none _ => False
  | _ => True

variable {p : Process}

/-- A turn ends the run, or makes the measure smaller. -/
theorem turn_ends_or_advances (a : p.Advancing) :
    IsEnd (turn p) ∨ ∃ q, turn p = .ok none q ∧ q.Advancing ∧ q.measure < p.measure := by
  have cases := turn_cases p
  generalize turn p = r at cases
  cases cases with
  | failed | halted | completed => exact .inl trivial
  | @executed q i taken on next =>
    rw [a.undisturbed.deliver] at taken
    cases taken
    cases ran : execute i p.fetched with
    | error fault q => exact .inl trivial
    | ok _ q =>
      have after : p.fetched.after (.execute i) = q := congrArg left ran
      exact .inr ⟨q, rfl, after ▸ a.fetched.execute i, after ▸ a.measure_execute next⟩
  | @ended q f taken on top ended =>
    rw [a.undisturbed.deliver] at taken
    cases taken
    obtain ⟨advancing, less⟩ := a.finish top ended
    cases ran : finishCode f p with
    | error fault q => exact .inl trivial
    | ok _ q =>
      rw [ran] at advancing less
      exact .inr ⟨q, rfl, advancing, less⟩

/-- There are fewer turns than the measure says. -/
theorem turns_end (n : Nat) : ∀ {p : Process}, p.Advancing → p.measure < n → IsEnd (turns n p) := by
  induction n with
  | zero => exact fun _ less => absurd less (Nat.not_lt_zero _)
  | succ n ih =>
    intro p a less
    unfold turns
    rcases turn_ends_or_advances a with ended | ⟨q, ran, advancing, smaller⟩
    · cases ran : turn p with
      | error fault q =>
        rw [bind_error ran]
        trivial
      | ok outcome q =>
        rw [bind_ok ran]
        cases outcome with
        | none =>
          rw [ran] at ended
          exact ended.elim
        | some o => trivial
    · rw [bind_ok ran]
      exact ih advancing (by omega)

/-- When a run has come to an end, it goes no further. -/
theorem turns_eq_of_le (n : Nat) : ∀ {m : Nat} {p : Process}, n ≤ m → IsEnd (turns n p) →
    turns m p = turns n p := by
  induction n with
  | zero => exact fun _ ended => ended.elim
  | succ n ih =>
    intro m p le ended
    obtain ⟨m, rfl⟩ : ∃ k, m = k + 1 := ⟨m - 1, by omega⟩
    unfold turns at ended ⊢
    cases ran : turn p with
    | error fault q => rw [bind_error ran, bind_error ran]
    | ok outcome q =>
      rw [bind_ok ran] at ended
      rw [bind_ok ran, bind_ok ran]
      cases outcome with
      | none => exact ih (Nat.le_of_succ_le_succ le) ended
      | some o => rfl

end Exec

/-- A run comes to an end in a process that requests lead to and in which all compartments only move
on, if no signal is delivered. The result is the same however many turns it may take from then
on. -/
theorem forward_programs_end {may : Compartment → Prop} {p : Process} (r : p.Reachable may)
    (forward : p.Forward) (undisturbed : p.Undisturbed) :
    ∃ result, Exec.IsEnd result ∧
      ∀ limit, (p.longest + 2) ^ p.calls.maxDepth ≤ limit → Exec.run limit p = result := by
  have a : (p.note (.runStarted p.calls.depth)).Advancing :=
    ⟨(Path.refl r.sound).note _ |>.sound, r.ordered.keep rfl rfl, forward,
      undisturbed.keeps (Process.keeps_of_same rfl rfl rfl)⟩
  have ended := Exec.turns_end _ a a.measure_lt_pow
  exact ⟨_, ended, fun limit enough => Exec.turns_eq_of_le _ enough ended⟩

/-- A closure that calls itself again and again. -/
def recursion : Closure :=
  .new Compartment.mainName 0 none
    #[.ofOp (.object .new), .ofOp (.object .setClosure), .ofOp (.control .stage),
      .ofOp (.control .invoke)]

/-- A process with room for two frames. -/
def shallow : Process :=
  { Process.standard with
    options := { ProcessOptions.standard with maxCallDepth := 2 }
    calls := .empty 2 }

/-- The process with the closure loaded. -/
def loadedRecursion : Process :=
  shallow.after (.load ((Compartment.new "recursion").withClosures #[recursion]))

/-- The process when the closure is about to run. -/
def recursed : Process := loadedRecursion.after .start

theorem forward_programs_end_recursed :
    recursed.Reachable (fun _ => True) ∧ recursed.Forward ∧ recursed.Undisturbed ∧
    Exec.fault? (Exec.run 8 recursed) = some (.callStackOverflow 2) ∧
    ∃ result, Exec.IsEnd result ∧ ∀ limit, 6 ^ 2 ≤ limit → Exec.run limit recursed = result := by
  have made : ({ ProcessOptions.standard with maxCallDepth := 2 } : ProcessOptions).newProcess
      (.new none) = .ok shallow := rfl
  have loaded : loadedRecursion.Reachable (fun _ => True) :=
    (Process.Reachable.new made).after (.load _) (by trivial)
  have reached : recursed.Reachable (fun _ => True) := loaded.after .start trivial
  have forward : recursed.Forward := by
    intro m hm c hc
    obtain rfl : m = (Compartment.new "recursion").withClosures #[recursion] :=
      Array.mem_singleton.mp hm
    obtain rfl : c = recursion := Array.mem_singleton.mp hc
    exact ⟨by decide, nofun, by decide⟩
  have frames : recursed.calls.frames = #[.new ⟨0, 0⟩ recursion.code 0 none none] := by
    decide +kernel
  have undisturbed : recursed.Undisturbed := by
    refine ⟨by decide +kernel, by decide +kernel, fun n f hf => ?_⟩
    rw [frames] at hf
    obtain rfl := Array.mem_singleton.mp (Array.mem_of_getElem? hf)
    rfl
  have ends := forward_programs_end reached forward undisturbed
  rw [show recursed.longest = 4 by decide +kernel,
    show recursed.calls.maxDepth = 2 by decide +kernel] at ends
  exact ⟨reached, forward, undisturbed, by decide +kernel, ends⟩

end ObjectVM
