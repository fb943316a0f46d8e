import ObjectVM.Proofs.CallsMatch

/-!
# Staged calls and exceptions

The frames that an exception leaves take the calls that they have staged with them. The frame that
catches it does not leave, and keeps its own (`staged_calls_stay`): a call that it has staged and
not made is still staged when its handler begins, and what the handler puts or makes before it
stages a call of its own goes there. A frame that has none staged finds none.
-/
namespace ObjectVM

namespace Process

variable {p q : Process} {m : Nat}

/-- Frames that leave cut the invocation stack at the invocation of the lowest of them. -/
theorem Drops.invocations_eq (d : p.Drops m q) (c : p.CallsMatch) :
    q.invocations = match p.calls.frames[m]? with
      | some g => p.invocations.shrink g.invocation
      | none => p.invocations := by
  refine Array.ext_getElem? fun n => ?_
  cases lowest : p.calls.frames[m]? with
  | none =>
    refine d.kept n fun l g hl hg => absurd hg (no_frame_above ?_)
    exact Nat.le_trans (Array.getElem?_eq_none_iff.mp lowest) hl
  | some g =>
    dsimp only
    rw [getElem?_shrink]
    split
    · next low =>
      refine d.kept n fun l g' hl hg' => ?_
      rcases Nat.eq_or_lt_of_le hl with rfl | above
      · rw [lowest] at hg'; cases hg'
        exact low
      · exact Nat.lt_trans low (c.rising m l g g' above lowest hg')
    · next high => exact d.cut n m g (Nat.le_refl m) lowest (Nat.le_of_not_lt high)

/-- The frame at `j` has caught an exception that was raised in `p`. Of the invocations those are
left that lie below the frames that have left. If a call of its own is the last of them, that is the
one that its handler finds staged, and else it finds none. -/
structure CaughtBy (p : Process) (j : Nat) (q : Process) : Prop where
  running : q.calls.depth = j + 1
  invocations : q.invocations = match p.calls.frames[j + 1]? with
    | some g => p.invocations.shrink g.invocation
    | none => p.invocations
  finds : ∀ f, q.calls.top? = some f → q.invocations.size = f.invocation + 1 ∧
      Exec.stagedInvocation q = .error .invocationNotFound q ∨
    ∃ n staged, f.invocation < n ∧ n + 1 = q.invocations.size ∧
      p.invocations[n]? = some staged ∧ Exec.stagedInvocation q = .ok (n, staged) q

theorem CallsMatch.caughtBy {j : Nat} (c : p.CallsMatch) (d : p.Drops (j + 1) q) :
    p.CaughtBy j q := by
  refine ⟨d.depth, d.invocations_eq c, fun f top => ?_⟩
  have below := (c.drops d).owned (CallStack.frame_of_top top)
  by_cases low : q.invocations.size ≤ f.invocation + 1
  · exact .inl ⟨by omega, Exec.stagedInvocation_none top low⟩
  · obtain ⟨staged, there⟩ : ∃ j, q.invocations[q.invocations.size - 1]? = some j :=
      ⟨_, Array.getElem?_eq_getElem (by omega)⟩
    exact .inr ⟨_, staged, by omega, by omega, d.invocation there,
      Exec.stagedInvocation_eq top (by omega) (by omega) there⟩

end Process

/-- When an exception has been caught, the calls are still there that the frame which caught it had
staged and not made. -/
theorem staged_calls_stay {p q : Process} {i : Instruction} {j : Nat} (d : p.Driven)
    (raises : i.op = .control .raise)
    (caught : Exec.execute i p.fetched = .ok () q) (depth : q.calls.depth = j + 1) :
    p.fetched.CaughtBy j q := by
  have matched : p.fetched.CallsMatch := d.callsMatch.quiet p.quiet_fetched
  have shift := Exec.shift_execute p.fetched i
  rw [caught] at shift
  cases shift with
  | back op => rw [raises] at op; cases op
  | acts act drops =>
    cases act with
    | keep => exact matched.caughtBy (depth ▸ drops.depth ▸ drops)
    | bind binds =>
      rw [Process.binds_eq_none (by rw [raises]; nofun)] at binds
      cases binds
    | put op | take op | stage op | call op => rw [raises] at op; cases op

/-- A program that stages a call and raises an exception before it makes it. The handler makes a
call without staging one. -/
def abandoning : Compartment :=
  (Compartment.new "abandoning").withClosures
    #[(Closure.new Compartment.mainName 0 none
        #[.ofOp (.object .new), ⟨.object .setClosure, 1, 0⟩, .ofOp (.control .stage),
          .ofOp (.object .new), ⟨.control .raise, 1, 0⟩, .ofOp (.control .invoke)]).withCatchSite
            ⟨0, 4, 5⟩,
      .new "abandoned" 1 none #[⟨.control .exit, 7, 0⟩]]

theorem staged_calls_stay_abandoning : ∃ q,
    (Process.ranFor abandoning 4).Driven ∧
    Exec.execute ⟨.control .raise, 1, 0⟩ (Process.ranFor abandoning 4).fetched = .ok () q ∧
    q.calls.depth = 1 ∧ (Process.ranFor abandoning 4).fetched.CaughtBy 0 q := by
  have driven : (Process.ranFor abandoning 4).Driven :=
    Process.driven_ranFor ⟨"abandoning", #[], #[], _, rfl⟩ 4
  have depth : (Exec.left (Exec.execute ⟨.control .raise, 1, 0⟩
      (Process.ranFor abandoning 4).fetched)).calls.depth = 1 := by decide +kernel
  have caught := Exec.eq_ok_left (r := Exec.execute ⟨.control .raise, 1, 0⟩
    (Process.ranFor abandoning 4).fetched) (by decide +kernel)
  exact ⟨_, driven, caught, depth, staged_calls_stay driven rfl caught depth⟩

/-- A program that stages a call and raises an exception again and again. -/
def retrying : Compartment :=
  (Compartment.new "retrying").withClosures
    #[(Closure.new Compartment.mainName 0 none
        #[.ofOp (.object .new), ⟨.object .setClosure, 0, 0⟩, .ofOp (.control .stage),
          ⟨.control .raise, 1, 0⟩]).withCatchSite ⟨0, 3, 0⟩]

/-- After an exception has been caught, there are two invocations for the one frame that is left,
and the handler makes the call that the exception has come between. Where this happens again and
again, the invocation stack grows. -/
theorem abandoned_call_made :
    ((Process.ranFor abandoning 4).ahead 1).2.calls.depth = 1 ∧
    ((Process.ranFor abandoning 4).ahead 1).2.next? = some (.ofOp (.control .invoke)) ∧
    ((Process.ranFor abandoning 4).ahead 1).2.invocations.size = 2 ∧
    (((Process.ranFor abandoning 4).ahead 2).2.calls.top?.map (·.closure)) = some ⟨0, 1⟩ ∧
    (Process.ranFor retrying 4).next? = (Process.ranFor retrying 12).next? ∧
    (Process.ranFor retrying 4).invocations.size = 2 ∧
    (Process.ranFor retrying 12).invocations.size = 4 := by
  decide +kernel

end ObjectVM
