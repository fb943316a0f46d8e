import ObjectVM.Proofs.Isolation
import ObjectVM.Proofs.Passing

/-!
# Delivery of arguments

A caller stages a call, puts arguments into it and makes it; the frame that is made takes them. In
between, the caller stages and makes other calls, and so does the callee. What the callee has
received is what comes first of what the caller has sent, in order and once, and a named argument is
the last that was sent by its name (`arguments_delivered`).

* `Filled.step`: while a call is staged, it gets what its caller puts when it is the innermost.
* `Serving.step`: while it lasts, its invocation gives what its own frame takes, and no other
  instruction changes it.
-/
namespace ObjectVM

namespace Process

/-! ## What has been sent and received -/

/-- What `f` finds in a log, in order. -/
def Log.total (log : Log) (f : Process → Instruction → Arguments) : Arguments :=
  (log.map fun e => f e.1 e.2).foldr (· ++ ·) ∅

/-- The frame at `k` runs, and the last call that is staged is that at `n`. -/
abbrev Innermost (k n : Nat) (p : Process) : Prop :=
  p.calls.depth = k + 1 ∧ p.invocations.size = n + 1

/-- What the frame at `k` has put into its call at `n` while it was the innermost. -/
def Log.sent (log : Log) (k n : Nat) : Arguments :=
  log.total fun p i => if Innermost k n p then p.puts i else ∅

/-- What the frame at `k + 1` has taken from its own invocation. -/
def Log.received (log : Log) (k : Nat) : Arguments :=
  log.total fun p i => if p.calls.depth = k + 2 then p.takes i else ∅

/-- Whether the frame at `k + 1` has been given all that it has taken: where it takes all arguments
that are left, there is room for the object that holds them. -/
def Log.Given (log : Log) (k : Nat) : Prop := ∀ e ∈ log, e.1.calls.depth = k + 2 →
  e.2.op = .argument .takeAll ∨ e.2.op = .argument .takeAllNamed →
    Exec.succeeded (Exec.execute e.2 e.1) = true

/-- What an instruction that takes arguments does in `p`, where of what has been `sent` to the
running frame it has `received` some. -/
structure Offers (sent received : Arguments) (p : Process) (i : Instruction) : Prop where
  hasMore : i.op = .argument .hasMore → ∃ q f, Exec.execute i p = .ok () q ∧
    q.calls.top? = some f ∧ f.topValue = .ok (.bool (decide (sent.rest received ≠ [])))
  take : i.op = .argument .take → ∀ id, (sent.rest received).head? = some id →
    (∃ q, Exec.execute i p = .ok () q) ∧ p.takes i = ⟨[id], []⟩
  takeAll : i.op = .argument .takeAll → ∀ q, Exec.execute i p = .ok () q →
    p.takes i = ⟨sent.rest received, []⟩
  takeNamed : i.op = .argument .takeNamed → ∀ id, sent.rest? received i.first = some id →
    p.takes i = ⟨[], [(i.first, id)]⟩
  missing : i.op = .argument .takeNamed → sent.rest? received i.first = none →
    Exec.execute i p = .ok () p
  takeAllNamed : i.op = .argument .takeAllNamed → ∀ q, Exec.execute i p = .ok () q →
    ∃ entries, p.takes i = ⟨[], entries⟩ ∧ (entries.map (·.1)).Nodup ∧
      ∀ key id, (key, id) ∈ entries ↔ sent.rest? received key = some id

/-- Of what has been `sent` to the frame at `k + 1`, for the call at `n`, it has `received` what
comes first, and each name at most once. What its next instruction takes is the rest or comes first
in it, and instructions of other frames change nothing. -/
structure Delivered (k n : Nat) (sent received : Arguments) (p : Process) : Prop where
  inOrder : received.positional <+: sent.positional
  once : received.names.Nodup
  last : ∀ e ∈ received.named, sent.last? e.1 = some e.2
  next : p.calls.depth = k + 2 → ∀ i, p.next? = some i → p.fetched.Offers sent received i
  alone : k + 2 < p.calls.depth → ∀ label q, p.Step label q → CalledFrom k q →
    q.invocations[n]? = p.invocations[n]?

variable {p q r : Process} {i : Instruction} {k n m : Nat} {f : Frame} {j : Invocation}
  {log log' : Log} {sent received : Arguments} {label : Option (Process × Instruction)}

theorem Log.total_append (f : Process → Instruction → Arguments) (log log' : Log) :
    Log.total (log ++ log') f = log.total f ++ log'.total f := by
  induction log with
  | nil => rfl
  | cons e log ih =>
    show f e.1 e.2 ++ Log.total (log ++ log') f = _
    rw [ih]
    exact (Arguments.append_assoc _ _ _).symm

theorem Log.total_single (f : Process → Instruction → Arguments) (p : Process)
    (i : Instruction) : Log.total [(p, i)] f = f p i := Arguments.append_empty _

theorem puts_eq_empty (other : ∀ a, i.op = .argument a → a.isPut = false) : p.puts i = ∅ := by
  unfold puts
  split
  · next a id _ op _ =>
    have := other a op
    cases a with
    | put | putNamed | putAll | putAllNamed => cases this
    | take | takeNamed | takeAll | takeAllNamed | hasMore => rfl
  · rfl

theorem takes_eq_empty (other : ∀ a, i.op = .argument a → a.isPut = true) : p.takes i = ∅ := by
  unfold takes
  dsimp only
  split
  · next op => cases other _ op
  · next op => cases other _ op
  · next op => cases other _ op
  · next op => cases other _ op
  · rfl

/-! ## While a call is staged -/

instance (k n : Nat) (p : Process) : Decidable (Pending k n p) :=
  decidable_of_iff (k < p.calls.depth ∧ n < p.invocations.size ∧
      ∀ g ∈ p.calls.frames[k + 1]?, n < g.invocation)
    ⟨fun h => ⟨h.1, h.2.1, h.2.2⟩, fun h => ⟨h.running, h.staged, h.above⟩⟩

/-- The call at `n` that the frame at `k` has staged holds what has been sent. -/
structure Filled (k n : Nat) (sent : Arguments) (p : Process) : Prop where
  matched : p.CallsMatch
  paced : p.Paced
  pending : Pending k n p
  caller : ∀ f, p.calls.frames[k]? = some f → f.invocation < n
  holds : ∃ j, p.invocations[n]? = some j ∧ j.Holds sent ∅

namespace Filled

theorem quiet (c : Filled k n sent p) (quiet : p.Quiet q) : Filled k n sent q := by
  refine ⟨c.matched.quiet quiet, c.paced.quiet quiet,
    ⟨quiet.depth.symm ▸ c.pending.running, quiet.invocations.symm ▸ c.pending.staged,
      fun g hg => ?_⟩, fun f hf => ?_, quiet.invocations.symm ▸ c.holds⟩
  · obtain ⟨-, g', hg', on⟩ := quiet.frame hg
    rw [on.invocation]
    exact c.pending.above g' hg'
  · obtain ⟨-, f', hf', on⟩ := quiet.frame hf
    rw [on.invocation]
    exact c.caller f' hf'

/-- The caller runs, below its call, or another frame above it. -/
theorem top_cases (c : Filled k n sent p) (top : p.calls.top? = some f) :
    p.calls.depth = k + 1 ∧ f.invocation < n ∨ p.calls.depth ≠ k + 1 ∧ n < f.invocation := by
  have running := c.pending.running
  by_cases last : p.calls.depth = k + 1
  · have there := CallStack.frame_of_top top
    rw [last] at there
    exact .inl ⟨last, c.caller f there⟩
  · obtain ⟨g, hg⟩ := CallStack.exists_frame (s := p.calls) (n := k + 1) (by omega)
    exact .inr ⟨last, Nat.lt_of_lt_of_le (c.pending.above g hg) (c.matched.le_top top hg)⟩

/-- Only what the caller puts when the call is the innermost comes to it. -/
theorem act (c : Filled k n sent p) (a : p.Act i r)
    (other : Innermost k n p → ∀ a, i.op = .argument a → a.isPut = false) :
    r.invocations[n]? = p.invocations[n]? := by
  cases a with
  | keep | bind | call => rfl
  | @put a f m j j' op puts top above last there =>
    refine Array.getElem?_setIfInBounds_ne fun same => ?_
    subst same
    rcases c.top_cases top with ⟨depth, -⟩ | ⟨-, higher⟩
    · have := other ⟨depth, last.symm⟩ a op
      rw [puts] at this
      cases this
    · omega
  | take _ _ top =>
    refine Array.getElem?_setIfInBounds_ne fun same => ?_
    rcases c.top_cases top with ⟨-, lower⟩ | ⟨-, higher⟩ <;> omega
  | stage =>
    show (p.invocations.push _)[n]? = _
    rw [Array.getElem?_push, if_neg (Nat.ne_of_lt c.pending.staged)]

/-- To execute an instruction adds to the call what the instruction puts into it. -/
theorem executed (c : Filled k n sent p) (top : p.calls.top? = some f)
    (there : (p.after (.execute i)).invocations[n]? = some j) :
    j.Holds (sent ++ if Innermost k n p then p.puts i else ∅) ∅ := by
  obtain ⟨j₀, before, holds⟩ := c.holds
  by_cases put : Innermost k n p ∧ ∃ a, i.op = .argument a ∧ a.isPut = true
  · obtain ⟨innermost, a, op, puts⟩ := put
    obtain ⟨-, below⟩ := (c.top_cases top).resolve_right fun h => h.1 innermost.1
    obtain ⟨j', there', gets⟩ := Exec.execute_puts op puts top below innermost.2.symm before
    rw [there] at there'; cases there'
    rw [if_pos innermost]
    exact holds.gets gets
  · have other : Innermost k n p → ∀ a, i.op = .argument a → a.isPut = false :=
      fun innermost a op => Bool.eq_false_iff.mpr fun puts => put ⟨innermost, a, op, puts⟩
    -- no act has reached the call, and it is still there
    obtain ⟨r, m, act, drops⟩ := c.paced.acts (Exec.shift_execute p i)
    have same := (drops.invocation there).symm.trans ((c.act act other).trans before)
    cases same
    have none : (if Innermost k n p then p.puts i else ∅) = ∅ := by
      split
      · next innermost => exact puts_eq_empty (other innermost)
      · rfl
    rw [none, Arguments.append_empty]
    exact holds

theorem step (c : Filled k n sent p) (s : p.Step label q) (still : Pending k n q) :
    Filled k n (sent ++ Log.sent label.toList k n) q := by
  obtain ⟨j, there, holds⟩ := c.holds
  obtain ⟨j', there'⟩ : ∃ j', q.invocations[n]? = some j' :=
    ⟨_, Array.getElem?_eq_getElem still.staged⟩
  have kept : ∀ {m : Nat}, p.Drops m q → j'.Holds (sent ++ ∅) ∅ := fun drops => by
    have same := (drops.invocation there').symm.trans there
    cases same
    exact (Arguments.append_empty sent).symm ▸ holds
  refine ⟨c.matched.step s, c.paced.step s, still, fun f' hf' => ?_, j', there', ?_⟩
  · obtain ⟨f, hf⟩ := CallStack.exists_frame c.pending.running
    obtain ⟨g, hg, same⟩ := s.sameCall hf still.running
    rw [hf'] at hg; cases hg
    rw [same.invocation]
    exact c.caller f hf
  rcases s.cases with ⟨i, rfl, next, rfl⟩ | ⟨rfl, quiet⟩ | ⟨rfl, f, top, -, -, rfl⟩
  · obtain ⟨f, top, here⟩ := next?_eq_some_iff.mp next
    show j'.Holds (sent ++ Log.total [(p.fetched, i)] _) ∅
    rw [Log.total_single]
    exact (c.quiet p.quiet_fetched).executed (top?_fetched top here) there'
  · exact kept quiet
  · exact kept (c.paced.back top)

end Filled

/-- A call that has just been staged holds nothing. -/
theorem Stages.filled (matched : p.CallsMatch) (paced : p.Paced) (s : p.Stages k n q) :
    Filled k n ∅ q := by
  obtain ⟨i, r, m, op, step, act, drops⟩ := paced.executes s.executes
  have quiet := p.quiet_fetched
  have fetched := matched.quiet quiet
  have depth : p.fetched.calls.depth = k + 1 := quiet.depth.trans s.running
  have size : p.fetched.invocations.size = n := quiet.invocations ▸ s.before
  obtain ⟨j, there⟩ : ∃ j, q.invocations[n]? = some j :=
    ⟨_, Array.getElem?_eq_getElem (by rw [s.after]; exact Nat.lt_succ_self n)⟩
  have made := drops.invocation there
  cases act with
  | keep | bind =>
    exact absurd (Array.getElem?_eq_some_iff.mp made).1 (Nat.not_lt.mpr (Nat.le_of_eq size))
  | put op' | take op' | call op' => rw [op] at op'; cases op'
  | @stage ref =>
    replace made : (p.fetched.invocations.push (.new ref))[n]? = some j := made
    rw [← size, Array.getElem?_push_size] at made
    cases made
    -- the caller stays, or the new call would have left with it
    obtain ⟨f, hf⟩ := CallStack.exists_frame (s := p.fetched.calls) (n := k) (by omega)
    have below : f.invocation < n := size ▸ fetched.owned hf
    have stays : m = k + 1 := by
      refine Nat.le_antisymm (depth ▸ drops.within) (Nat.not_lt.mp fun low => ?_)
      have gone := drops.cut n k f (Nat.le_of_lt_succ low) hf (Nat.le_of_lt below)
      rw [there] at gone
      cases gone
    have running : q.calls.depth = k + 1 := drops.depth.trans stays
    refine ⟨matched.step step, paced.step step,
      ⟨running ▸ Nat.lt_succ_self k, s.after ▸ Nat.lt_succ_self n, fun g hg => ?_⟩,
      fun f' hf' => ?_, _, there, Invocation.holds_new ref⟩
    · exact absurd hg (no_frame_above (Nat.le_of_eq running))
    · obtain ⟨-, g, hg, on⟩ := drops.frame hf'
      replace hg : p.fetched.calls.frames[k]? = some g := hg
      rw [hf] at hg; cases hg
      exact on.invocation ▸ below

/-- A call holds what has been sent since it was staged. -/
theorem Prepares.filled (matched : p.CallsMatch) (paced : p.Paced)
    (prepares : p.Prepares k n log q) : Filled k n (log.sent k n) q := by
  obtain ⟨r, stages, runs⟩ := prepares
  induction runs with
  | refl => exact stages.filled matched paced
  | step before s still ih =>
    unfold Log.sent
    rw [Log.total_append]
    exact ih.step s still

/-! ## While a call lasts -/

/-- The frame at `k + 1`, which has been made for the call at `n`, has `received` some of what has
been `sent` to it. -/
structure Serving (k n : Nat) (sent received : Arguments) (p : Process) : Prop where
  inside : Inside k n p
  sound : p.Sound
  holds : ∃ j, p.invocations[n]? = some j ∧ j.Holds sent received

/-- To make a call hands over what it holds. -/
theorem Makes.serving (c : Filled k n sent p) (sound : p.Sound) (s : p.Makes k n q) :
    Serving k n sent ∅ q := by
  obtain ⟨inside, -⟩ := s.inside c.matched c.paced
  obtain ⟨i, r, m, op, step, act, drops⟩ := c.paced.executes s.executes
  have fetched := c.quiet p.quiet_fetched
  obtain ⟨j, there, holds⟩ := fetched.holds
  obtain ⟨g, hg, place⟩ := inside.callee
  obtain ⟨j', there', -⟩ := inside.matched.own _ g hg
  rw [place] at there'
  have same := fetched.act act fun _ a op' => by rw [op] at op'; cases op'
  have kept := drops.invocation there'
  rw [same, there] at kept
  cases kept
  exact ⟨inside, step.sound sound, _, there', holds⟩

namespace Serving

/-- The running frame, if it is the callee, and what its invocation holds. -/
theorem fetched (c : Serving k n sent received p) (running : p.calls.depth = k + 2)
    (next : p.next? = some i) : ∃ f j, p.fetched.calls.top? = some f ∧ f.invocation = n ∧
      p.fetched.invocations[n]? = some j ∧ j.Holds sent received := by
  obtain ⟨g, hg, rfl⟩ := c.inside.callee
  obtain ⟨f, top, here⟩ := next?_eq_some_iff.mp next
  obtain ⟨j, there, holds⟩ := c.holds
  have last := CallStack.frame_of_top top
  rw [running, show k + 2 - 1 = k + 1 from rfl, hg] at last
  cases last
  exact ⟨_, j, top?_fetched top here, rfl, p.quiet_fetched.invocations.symm ▸ there, holds⟩

/-- Whatever is executed, unless the callee takes arguments, its invocation stays as it is. -/
theorem kept (c : Serving k n sent received p) (s : p.Step label q) (still : CalledFrom k q)
    (other : p.calls.depth = k + 2 → ∀ e ∈ label, ∀ a, e.2.op = .argument a → a.isPut = true) :
    q.invocations[n]? = p.invocations[n]? := by
  obtain ⟨g, hg, rfl⟩ := c.inside.callee
  refine c.inside.matched.step_invocation c.inside.paced s hg still (Nat.le_refl _) (.inr ?_)
  by_cases running : p.calls.depth = k + 2
  · exact .inr (other running)
  · have : k + 1 < p.calls.depth := c.inside.called
    exact .inl (by omega)

/-- An instruction of the callee takes from its invocation what it takes. -/
theorem executed (c : Serving k n sent received p) (running : p.calls.depth = k + 2)
    (next : p.next? = some i) {a : ArgumentOp} (op : i.op = .argument a) (takes : a.isPut = false)
    (given : Log.Given [(p.fetched, i)] k) :
    ∃ j, (p.fetched.after (.execute i)).invocations[n]? = some j ∧
      j.Holds sent (received ++ p.fetched.takes i) := by
  obtain ⟨f, j, top, rfl, there, holds⟩ := c.fetched running next
  obtain ⟨j', there', gives⟩ := Exec.execute_takes c.sound.fetched.stores op takes top there
    fun all => ⟨_, Exec.eq_ok_left (given _ (List.mem_singleton_self _)
      (p.quiet_fetched.depth.trans running) (by rcases all with rfl | rfl <;> simp [op]))⟩
  exact ⟨j', there', holds.gives gives⟩

theorem step (c : Serving k n sent received p) (s : p.Step label q) (still : CalledFrom k q)
    (given : Log.Given label.toList k) :
    Serving k n sent (received ++ Log.received label.toList k) q := by
  obtain ⟨j, there, holds⟩ := c.holds
  refine ⟨c.inside.step s still, s.sound c.sound, ?_⟩
  rcases s.cases with ⟨i, rfl, next, rfl⟩ | ⟨rfl, -⟩ | ⟨rfl, -⟩
  · show ∃ j : Invocation, _ ∧ j.Holds sent (received ++ Log.total [(p.fetched, i)] _)
    rw [Log.total_single, p.quiet_fetched.depth]
    by_cases takes : p.calls.depth = k + 2 ∧ ∃ a, i.op = .argument a ∧ a.isPut = false
    · obtain ⟨running, a, op, takes⟩ := takes
      rw [if_pos running]
      exact c.executed running next op takes given
    · have other : p.calls.depth = k + 2 → ∀ a, i.op = .argument a → a.isPut = true :=
        fun running a op => Bool.not_eq_false _ |>.mp fun none => takes ⟨running, a, op, none⟩
      have nothing : (if p.calls.depth = k + 2 then p.fetched.takes i else ∅) = ∅ := by
        split
        · next running => exact takes_eq_empty (other running)
        · rfl
      rw [nothing, Arguments.append_empty]
      refine ⟨j, (c.kept s still fun running e he => ?_).trans there, holds⟩
      cases he
      exact other running
  all_goals
    refine ⟨j, (c.kept s still fun _ e he => ?_).trans there,
      (Arguments.append_empty received).symm ▸ holds⟩
    cases he

/-- What the callee's next instruction finds. -/
theorem offers (c : Serving k n sent received p) (running : p.calls.depth = k + 2)
    (next : p.next? = some i) : p.fetched.Offers sent received i := by
  obtain ⟨f, j, top, rfl, there, holds⟩ := c.fetched running next
  have stores := c.sound.fetched.stores
  refine ⟨fun op => ?_, fun op id first => ?_, fun op q ran => ?_, fun op id left => ?_,
    fun op missing => ?_, fun op q ran => ?_⟩
  · rw [← holds.hasMore]
    exact ⟨_, f.pushValue (.bool j.hasMore), Exec.execute_hasMore op top there,
      CallStack.top?_modifyTop top _, rfl⟩
  · obtain ⟨ran, taken⟩ := Exec.execute_take op top there (holds.rest ▸ first)
    exact ⟨⟨_, ran⟩, taken⟩
  · rw [← holds.rest]
    exact (Exec.execute_takeAll stores op top there ran).2
  · exact (Exec.execute_takeNamed op top there ((holds.named _).trans left)).2
  · exact Exec.execute_takeNamed_missing op top there ((holds.named _).trans missing)
  · refine ⟨_, (Exec.execute_takeAllNamed stores op top there ran).2,
      (Invocation.gives_takeAllNamed j).once, fun key id => ?_⟩
    rw [← holds.named]
    exact KeyMap.get?_eq_some_iff.symm

end Serving

/-- What a call holds when it is made, its frame has received or has still to receive. -/
theorem Enters.serving (c : Filled k n sent p) (sound : p.Sound) (enters : p.Enters k n log q)
    (given : log.Given k) : Serving k n sent (log.received k) q := by
  obtain ⟨r, makes, runs⟩ := enters
  induction runs with
  | refl => exact makes.serving c sound
  | step before s still ih =>
    unfold Log.received
    rw [Log.total_append]
    refine (ih fun e mem => given e (List.mem_append_left _ mem)).step s still fun e mem => ?_
    exact given e (List.mem_append_right _ mem)

end Process

/-- In a process that runs programs, every call delivers its arguments in order and once. -/
theorem arguments_delivered {p₀ a p : Process} {k n : Nat} {sent log : Process.Log}
    (d : p₀.Driven) (prepares : p₀.Prepares k n sent a) (enters : a.Enters k n log p)
    (given : log.Given k) : p.Delivered k n (sent.sent k n) (log.received k) := by
  have filled := prepares.filled d.callsMatch d.paced
  have sound : a.Sound := by
    obtain ⟨q, stages, runs⟩ := prepares
    obtain ⟨i, next, -, rfl⟩ := stages.executes
    exact ((d.step (.instruction next)).runs runs).sound
  have serving := enters.serving filled sound given
  obtain ⟨j, -, holds⟩ := serving.holds
  exact ⟨⟨j.remaining, holds.positional⟩, holds.once, holds.last,
    fun running i next => serving.offers running next,
    fun above label q s still => serving.kept s still fun running => by omega⟩

/-- A program that puts arguments into a call, one of them by way of another call, and then makes
it. Of the named ones the second takes the place of the first. -/
def delivering : Compartment :=
  (Compartment.new "delivering").withClosures
    #[.new Compartment.mainName 0 none
        #[.ofOp (.object .new), ⟨.object .setClosure, 1, 0⟩, .ofOp (.control .stage),
          .ofOp (.object .new), .ofOp (.argument .put),
          .ofOp (.object .new), ⟨.object .setClosure, 2, 0⟩, .ofOp (.control .stage),
          .ofOp (.object .new), .ofOp (.argument .put), .ofOp (.control .invoke),
          .ofOp (.argument .put), .ofOp (.object .new), ⟨.argument .putNamed, 5, 0⟩,
          .ofOp (.object .new), ⟨.argument .putNamed, 5, 0⟩, .ofOp (.control .invoke)],
      .new "outer" 1 none
        #[.ofOp (.argument .take), .ofOp (.argument .hasMore), ⟨.argument .takeNamed, 5, 0⟩,
          ⟨.argument .takeNamed, 5, 0⟩, .ofOp (.argument .takeAll), .ofOp (.argument .hasMore)],
      .new "inner" 2 none #[.ofOp (.argument .take), .ofOp (.control .return)]]

/-- The program where it has staged its outer call. -/
def deliveringStaged : Process := (Process.ranFor delivering 2).fetched.after
  (.execute (.ofOp (.control .stage)))

/-- The program where it has put all arguments into its outer call. -/
def deliveringReady : Process := (deliveringStaged.ahead 15).2

/-- The program where it has made its outer call. -/
def deliveringCalled : Process := deliveringReady.fetched.after
  (.execute (.ofOp (.control .invoke)))

theorem arguments_delivered_nested :
    (Process.ranFor delivering 2).Driven ∧
    (Process.ranFor delivering 2).Prepares 0 1 (deliveringStaged.ahead 15).1 deliveringReady ∧
    deliveringReady.Enters 0 1 (deliveringCalled.ahead 5).1 (deliveringCalled.ahead 5).2 ∧
    (deliveringCalled.ahead 5).1.Given 0 ∧
    (deliveringStaged.ahead 15).1.sent 0 1 = ⟨[⟨1, 0⟩, ⟨3, 0⟩], [(5, ⟨4, 0⟩), (5, ⟨5, 0⟩)]⟩ ∧
    (deliveringCalled.ahead 5).1.received 0 = ⟨[⟨1, 0⟩, ⟨3, 0⟩], [(5, ⟨5, 0⟩)]⟩ ∧
    (deliveringCalled.ahead 5).2.Delivered 0 1 ((deliveringStaged.ahead 15).1.sent 0 1)
      ((deliveringCalled.ahead 5).1.received 0) := by
  have driven : (Process.ranFor delivering 2).Driven :=
    Process.driven_ranFor ⟨"delivering", #[], #[], _, rfl⟩ 2
  have stages : (Process.ranFor delivering 2).Stages 0 1 deliveringStaged :=
    ⟨by decide +kernel, by decide +kernel, ⟨_, by decide +kernel, rfl, rfl⟩, by decide +kernel⟩
  have pending : ∀ m < 15, Process.Pending 0 1 (deliveringStaged.ahead (m + 1)).2 := by
    decide +kernel
  have makes : deliveringReady.Makes 0 1 deliveringCalled :=
    ⟨by decide +kernel, by decide +kernel, ⟨_, by decide +kernel, rfl, rfl⟩, by decide +kernel⟩
  have called : ∀ m < 5, Process.CalledFrom 0 (deliveringCalled.ahead (m + 1)).2 := by
    unfold Process.CalledFrom
    decide +kernel
  have prepares : (Process.ranFor delivering 2).Prepares 0 1 _ deliveringReady :=
    ⟨_, stages, .of_ahead 15 pending⟩
  have enters : deliveringReady.Enters 0 1 _ _ := ⟨_, makes, .of_ahead 5 called⟩
  have given : (deliveringCalled.ahead 5).1.Given 0 := by
    unfold Process.Log.Given
    decide +kernel
  exact ⟨driven, prepares, enters, given, by decide +kernel, by decide +kernel,
    arguments_delivered driven prepares enters given⟩

end ObjectVM
