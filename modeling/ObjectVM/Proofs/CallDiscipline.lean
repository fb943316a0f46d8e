import ObjectVM.Proofs.CallsMatch

/-!
# What calls can rely on

Because frames and invocations agree, an instruction that takes arguments never misses the
invocation of its frame, a call that is staged can be made unless there is no room for its frame,
and a run that has ended for good has left neither frames nor invocations (`calls_agree`).
-/
namespace ObjectVM

/-! ## What cannot fail -/

namespace Exec

variable {p : Process} {α β : Type}

/-- Whether no invocation has been missed. -/
def Found (r : EStateM.Result Fault Process α) : Prop := ∀ q, r ≠ .error .invocationNotFound q

theorem Found.bind {m : Exec α} {k : α → Exec β} (hm : Found (m p))
    (hk : ∀ a q, m p = .ok a q → Found (k a q)) : Found ((m >>= k) p) := by
  cases h : m p with
  | ok a q =>
    rw [bind_ok h]
    exact hk a q h
  | error fault q =>
    rw [bind_error h]
    intro r e
    cases e
    exact hm q h

theorem found_ok {r : EStateM.Result Fault Process α} {a : α} {q : Process} (h : r = .ok a q) :
    Found r := fun _ e => by rw [h] at e; cases e

theorem found_error {r : EStateM.Result Fault Process α} {fault : Fault} {q : Process}
    (h : r = .error fault q) (other : fault ≠ .invocationNotFound) : Found r := fun _ e => by
  rw [h] at e
  exact other (EStateM.Result.error.inj e).1

theorem found_topFrame (p : Process) : Found (topFrame p) := by
  cases top : p.calls.top? with
  | some f => exact found_ok (topFrame_eq top)
  | none => exact found_error (topFrame_none top) nofun

theorem found_lift {r : Except Fault α} (h : r ≠ .error .invocationNotFound) (p : Process) :
    Found (lift r p) := by
  cases r with
  | ok a => exact found_ok rfl
  | error fault => exact found_error rfl fun same => h (same ▸ rfl)

theorem found_object (id : ObjectId) (p : Process) : Found (object id p) := by
  cases found : p.object id with
  | ok o => exact found_ok (look_eq found)
  | error fault =>
    refine found_error (look_error found) ?_
    unfold Process.object at found
    cases h : p.heap.find id <;> rw [h] at found <;> cases found
    nofun

theorem found_newObject (p : Process) : Found (newObject p) := by
  unfold newObject
  rw [get_bind]
  split
  · exact found_error rfl nofun
  · exact found_ok rfl

theorem found_setValue (id : ObjectId) (v : Value) (p : Process) : Found (setValue id v p) := by
  refine (found_object id p).bind fun o q _ => ?_
  cases o.handle with
  | some key =>
    dsimp only
    rw [get_bind]
    split
    · exact found_ok rfl
    · exact found_error rfl nofun
  | none =>
    dsimp only
    rw [get_bind]
    split
    · exact found_error rfl nofun
    · exact found_ok rfl

theorem found_newObjectWith (v : Value) (p : Process) : Found (newObjectWith v p) :=
  (found_newObject p).bind fun id q _ => (found_setValue id v q).bind fun _ _ _ => found_ok rfl

theorem found_pushObject (id : ObjectId) (p : Process) : Found (pushObject id p) := found_ok rfl

/-- What lies in the running frame's invocation is found. -/
theorem found_takeOwn {f : Frame} {j : Invocation} (top : p.calls.top? = some f)
    (there : p.invocations[f.invocation]? = some j)
    {take : Invocation → Except Fault (α × Invocation)}
    (other : ∀ j, take j ≠ .error .invocationNotFound) : Found (takeOwn take p) := by
  refine (found_ok (ownInvocation_eq top there)).bind fun own q _ => ?_
  exact (found_lift (other own.2) q).bind fun _ _ _ => found_ok rfl

/-- No instruction that takes arguments misses the invocation that it takes them from. -/
theorem found_runArgument {f : Frame} {j : Invocation} (top : p.calls.top? = some f)
    (there : p.invocations[f.invocation]? = some j) {a : ArgumentOp} (takes : a.isPut = false)
    (i : Instruction) : Found (runArgument a i p) := by
  have next : ∀ j : Invocation, j.takeNext ≠ .error .invocationNotFound := fun j => by
    unfold Invocation.takeNext
    split <;> nofun
  have named : ∀ j : Invocation, j.takeNamed i.first ≠ .error .invocationNotFound := fun j => by
    unfold Invocation.takeNamed
    split <;> nofun
  cases a with
  | put | putNamed | putAll | putAllNamed => cases takes
  | take => exact (found_takeOwn top there next).bind fun id q _ => found_pushObject id q
  | takeNamed =>
    refine (found_ok (ownInvocation_eq top there)).bind fun own q ran => ?_
    rw [ownInvocation_eq top there] at ran; cases ran
    dsimp only
    split
    · refine (found_takeOwn top there named).bind fun id q _ => ?_
      refine (found_pushObject id q).bind fun _ q _ => (found_topFrame q).bind fun f q _ => ?_
      refine (found_lift ?_ q).bind fun _ _ _ => found_ok rfl
      unfold Frame.skip
      dsimp only
      split <;> nofun
    · exact found_ok rfl
  | takeAll =>
    refine (found_takeOwn top there fun j => ?_).bind fun rest q _ => ?_
    · exact (nofun : Except.ok j.takeRemaining ≠ .error Fault.invocationNotFound)
    · exact (found_newObjectWith _ q).bind fun id q _ => found_pushObject id q
  | takeAllNamed =>
    refine (found_takeOwn top there fun j => ?_).bind fun rest q _ => ?_
    · exact (nofun : Except.ok j.takeAllNamed ≠ .error Fault.invocationNotFound)
    · exact (found_newObjectWith _ q).bind fun id q _ => found_pushObject id q
  | hasMore =>
    refine (found_ok (ownInvocation_eq top there)).bind fun own q _ => ?_
    exact (found_topFrame q).bind fun _ _ _ => found_ok rfl

end Exec

namespace Process

variable {p : Process} {i : Instruction}

theorem lexicalParent_of_resolve {ref : ClosureRef} {c : Closure} (h : p.resolve ref = .ok c) :
    ∃ parent, p.lexicalParent ref = .ok parent := by
  unfold lexicalParent
  unfold resolve at h
  cases hc : p.compartment ref.compartment with
  | error fault => rw [hc] at h; cases h
  | ok comp =>
    rw [hc] at h
    cases hcl : comp.closure ref.closure with
    | error fault => rw [ok_bind, hcl] at h; cases h
    | ok cl => exact ⟨_, by rw [ok_bind, hcl, ok_bind]⟩

theorem execute_argument {a : ArgumentOp} (op : i.op = .argument a) :
    Exec.execute i = Exec.runArgument a i := by
  unfold Exec.execute
  rw [op]

/-- A call that is staged can be made, unless there is no room for its frame. -/
theorem CallsMatch.makes (c : p.CallsMatch) {f : Frame} (top : p.calls.top? = some f)
    {fault : Fault} {r : Process} (failed : Exec.makeCall p = .error fault r) :
    fault = .invocationNotFound ∨ fault = .callStackOverflow p.options.maxCallDepth := by
  by_cases low : p.invocations.size ≤ f.invocation + 1
  · unfold Exec.makeCall at failed
    rw [Exec.bind_error (Exec.stagedInvocation_none top low)] at failed
    exact .inl (EStateM.Result.error.inj failed).1.symm
  · have last : p.invocations.size - 1 + 1 = p.invocations.size := by omega
    obtain ⟨j, there⟩ : ∃ j, p.invocations[p.invocations.size - 1]? = some j :=
      ⟨_, Array.getElem?_eq_getElem (by omega)⟩
    obtain ⟨cl, resolves⟩ := c.resolved _ j there
    obtain ⟨parent, outward⟩ := lexicalParent_of_resolve resolves
    rw [Exec.makeCall_eq top (by omega) last there, Exec.pushFrame_eq outward resolves] at failed
    split at failed
    · rw [c.limit] at failed
      exact .inr (EStateM.Result.error.inj failed).1.symm
    · cases failed

/-! ## How runs end -/

/-- A turn in which the run ends for good finds no frame, or has been told so. -/
theorem CallsMatch.turn_final (c : p.CallsMatch) {o : Outcome} {q : Process}
    (ran : Exec.turn p = .ok (some o) q) (final : o.isFinal = true) : q.calls.depth = 0 := by
  have quiet := Exec.quiet_deliverSignals p
  have cases := Exec.turn_cases p
  rw [ran] at cases
  generalize went : EStateM.Result.ok (some o) q = r at cases
  cases cases with
  | failed => cases went
  | halted taken halted =>
    cases went
    rw [taken] at quiet
    exact (c.quiet quiet).ended o final halted
  | completed taken _ none =>
    cases went
    refine Nat.eq_zero_of_not_pos fun some => ?_
    obtain ⟨f, there⟩ := CallStack.exists_top some
    cases there.symm.trans none
  | @executed r i => cases done : Exec.execute i r.fetched <;> simp [done, Exec.goesOn] at went
  | @ended r f => cases done : Exec.finishCode f r <;> simp [done, Exec.goesOn] at went

theorem CallsMatch.turns_final (n : Nat) : ∀ {p : Process}, p.CallsMatch → ∀ {o : Outcome}
    {q : Process}, Exec.turns n p = .ok (some o) q → o.isFinal = true → q.calls.depth = 0 := by
  induction n with
  | zero => intro p _ o q ran; cases ran
  | succ n ih =>
    intro p c o q ran final
    unfold Exec.turns at ran
    cases ht : Exec.turn p with
    | error fault r => rw [Exec.bind_error ht] at ran; cases ran
    | ok outcome r =>
      rw [Exec.bind_ok ht] at ran
      cases outcome with
      | some o' =>
        cases ran
        exact c.turn_final ht final
      | none =>
        have matched := c.runs (Exec.advances_turn p).choose_spec
        rw [ht] at matched
        exact ih matched ran final

/-- A run that ends for good has left no frame. -/
theorem CallsMatch.run_final (c : p.CallsMatch) {n : Nat} {o : Outcome} {q : Process}
    (ran : Exec.run n p = .ok (some o) q) (final : o.isFinal = true) : q.calls.depth = 0 := by
  have noted : (p.note (.runStarted p.calls.depth)).CallsMatch :=
    c.quiet (quiet_elsewhere rfl rfl rfl rfl rfl)
  exact noted.turns_final n ran final

end Process

/-! ## The result -/

/-- The two stacks of a process agree, and what that means for instructions and runs. -/
structure Process.CallsAgree (p : Process) : Prop where
  depth : p.calls.depth ≤ p.options.maxCallDepth
  first : ∀ f, p.calls.frames[0]? = some f → f.invocation = 0
  rising : ∀ (m n : Nat) (f g : Frame), m < n → p.calls.frames[m]? = some f →
    p.calls.frames[n]? = some g → f.invocation < g.invocation
  below : ∀ (n : Nat) (f : Frame), p.calls.frames[n]? = some f →
    f.invocation < p.invocations.size
  own : ∀ (n : Nat) (f : Frame) (j : Invocation), p.calls.frames[n]? = some f →
    p.invocations[f.invocation]? = some j → j.callee = f.closure
  frames : ∀ (n : Nat) (f : Frame), p.calls.frames[n]? = some f →
    ∃ c, p.resolve f.closure = .ok c
  invocations : ∀ (n : Nat) (j : Invocation), p.invocations[n]? = some j →
    ∃ c, p.resolve j.callee = .ok c
  empty : p.calls.depth = 0 → p.invocations = #[]
  takes : ∀ i a, p.next? = some i → i.op = .argument a → a.isPut = false →
    ∀ q, Exec.execute i p.fetched ≠ .error .invocationNotFound q
  makes : ∀ i, p.next? = some i → i.op = .control .invoke →
    ∀ fault q, Exec.execute i p.fetched = .error fault q →
      fault = .invocationNotFound ∨ fault = .callStackOverflow p.options.maxCallDepth
  ends : ∀ n o q, Exec.run n p = .ok (some o) q → o = .completed ∨ (∃ e, o = .uncaught e) →
    q.calls.depth = 0 ∧ q.invocations = #[]

/-- In a process that runs programs, whatever it has executed and however frames have left, the two
stacks of its calls agree. -/
theorem calls_agree {p : Process} (d : p.Driven) : p.CallsAgree := by
  have c := d.callsMatch
  have fetched : p.fetched.CallsMatch := c.quiet p.quiet_fetched
  refine ⟨c.limit ▸ c.depth, c.first, c.rising, fun n f hf => ?_, fun n f j hf hj => ?_,
    fun n f hf => ?_, c.resolved, c.empty, fun i a next op takes => ?_,
    fun i next op fault q failed => ?_, fun n o q ran final => ?_⟩
  · exact c.owned hf
  · obtain ⟨j', hj', callee⟩ := c.own n f hf
    rw [hj] at hj'; cases hj'
    exact callee
  · obtain ⟨j, hj, callee⟩ := c.own n f hf
    exact callee ▸ c.resolved _ j hj
  · obtain ⟨f, top, here⟩ := Process.next?_eq_some_iff.mp next
    have top' := Process.top?_fetched top here
    obtain ⟨j, there, -⟩ := fetched.own _ _ (CallStack.frame_of_top top')
    rw [Process.execute_argument op]
    exact Exec.found_runArgument top' there takes i
  · obtain ⟨f, top, here⟩ := Process.next?_eq_some_iff.mp next
    rw [Process.execute_invoke op] at failed
    rw [← p.quiet_fetched.options]
    exact fetched.makes (Process.top?_fetched top here) failed
  · have none : q.calls.depth = 0 := c.run_final ran (by
      rcases final with rfl | ⟨e, rfl⟩ <;> rfl)
    have matched := c.runs (Exec.advances_run n p).choose_spec
    rw [ran] at matched
    exact ⟨none, matched.empty none⟩

/-- A program that stages a call, and before it is made stages and makes another one, whose object
it passes to the first. -/
def nested : Compartment :=
  (Compartment.new "nested").withClosures
    #[.new Compartment.mainName 0 none
        #[.ofOp (.object .new), ⟨.object .setClosure, 1, 0⟩, .ofOp (.control .stage),
          .ofOp (.object .new), ⟨.object .setClosure, 2, 0⟩, .ofOp (.control .stage),
          .ofOp (.control .invoke), .ofOp (.argument .put), .ofOp (.control .invoke)],
      .new "outer" 1 none #[.ofOp (.argument .take)],
      .new "inner" 2 none #[.ofOp (.object .new)]]

theorem calls_agree_nested :
    (Process.ranFor nested 7).calls.frames.toList.map (·.invocation) = [0, 2] ∧
    (Process.ranFor nested 7).invocations.size = 3 ∧
    (Process.ranFor nested 7).Driven ∧ (Process.ranFor nested 7).CallsAgree := by
  have driven : (Process.ranFor nested 7).Driven :=
    Process.driven_ranFor ⟨"nested", #[], #[], _, rfl⟩ 7
  exact ⟨by decide +kernel, by decide +kernel, driven, calls_agree driven⟩

end ObjectVM
