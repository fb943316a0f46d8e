import ObjectVM.Proofs.CallsMatch

/-!
# Counters and return addresses

The counter of every frame lies in its code, and so do those of the codes that are set aside while
signal vectors run; and every frame returns to the instruction behind the call that its caller waits
in, which is where the caller's counter stands all the time (`Process.Paced`). So a return moves no
counter, and takes none out of its code (`Paced.afterReturn_eq`).
-/
namespace ObjectVM

/-- Counters lie in their codes, and callers wait where their callees return to. -/
structure Process.Paced (p : Process) : Prop where
  bounded : ∀ (n : Nat) (f : Frame), p.calls.frames[n]? = some f → f.Bounded
  returns : ∀ (n : Nat) (f g : Frame), p.calls.frames[n]? = some f →
    p.calls.frames[n + 1]? = some g → ∃ address, g.returnAddress = some address ∧
      f.pc = address + 1

namespace Process

variable {p q : Process} {i : Instruction} {m : Nat}

/-- The frames are the only ones that matter. -/
theorem Paced.of_frames (c : p.Paced) (frames : q.calls.frames = p.calls.frames) : q.Paced :=
  ⟨frames ▸ c.bounded, frames ▸ c.returns⟩

theorem paced_of_empty (none : p.calls.frames = #[]) : p.Paced := by
  refine ⟨?_, ?_⟩ <;> simp [none]

namespace Paced

/-- The callers that stay are not the frame on top, and only that one moves on. -/
theorem drops (c : p.Paced) (d : p.Drops m q) : q.Paced := by
  refine ⟨fun n f' hf' => ?_, fun n f g' hf hg' => ?_⟩
  · obtain ⟨-, f, hf, on⟩ := d.frame hf'
    exact on.bounded (c.bounded n f hf)
  · obtain ⟨lt, g, hg, on⟩ := d.frame hg'
    rw [d.below n lt] at hf
    obtain ⟨address, back, pc⟩ := c.returns n f g hf hg
    exact ⟨address, on.returnAddress.trans back, pc⟩

theorem quiet (c : p.Paced) (quiet : p.Quiet q) : q.Paced := c.drops quiet

theorem bindOuter (c : p.Paced) (b : OuterBinding) : (p.bindOuter b).Paced := by
  have frames : ∀ (n : Nat) (f' : Frame), (p.bindOuter b).calls.frames[n]? = some f' →
      ∃ f, p.calls.frames[n]? = some f ∧ f'.pc = f.pc ∧ f'.returnAddress = f.returnAddress ∧
        (f.Bounded → f'.Bounded) := fun n f' hf' => by
    obtain ⟨f, hf, rfl | rfl⟩ := frame_of_bindOuter hf'
    · exact ⟨_, hf, rfl, rfl, id⟩
    · exact ⟨f, hf, rfl, rfl, fun h => ⟨h.pc, h.windows⟩⟩
  refine ⟨fun n f' hf' => ?_, fun n f' g' hf' hg' => ?_⟩
  · obtain ⟨f, hf, -, -, bounded⟩ := frames n f' hf'
    exact bounded (c.bounded n f hf)
  · obtain ⟨f, hf, pc, -⟩ := frames n f' hf'
    obtain ⟨g, hg, -, back, -⟩ := frames (n + 1) g' hg'
    obtain ⟨address, back', pc'⟩ := c.returns n f g hf hg
    exact ⟨address, back.trans back', pc.trans pc'⟩

/-- A frame that makes a call has fetched the instruction for it. -/
theorem call (c : p.Paced) {f : Frame} {ref : ClosureRef} {code : Code} {n : Nat}
    {parent : Option Nat} (top : p.calls.top? = some f) (fetched : 0 < f.pc) :
    { p with calls := p.calls.add (.new ref code n (some f.currentIndex) parent) }.Paced := by
  have last := CallStack.frame_of_top top
  refine ⟨fun k g hg => ?_, fun k g g' hg hg' => ?_⟩
  · rcases CallStack.frame_add_cases hg with ⟨-, rfl⟩ | ⟨-, hg⟩
    · exact ⟨Nat.zero_le _, fun w hw => absurd hw List.not_mem_nil⟩
    · exact c.bounded k g hg
  · rcases CallStack.frame_add_cases hg' with ⟨hk, rfl⟩ | ⟨hk, hg'⟩
    · rcases CallStack.frame_add_cases hg with ⟨hk', -⟩ | ⟨-, hg⟩
      · omega
      · rw [show k = p.calls.depth - 1 by omega, last] at hg; cases hg
        exact ⟨f.currentIndex, rfl, (Nat.sub_add_cancel fetched).symm⟩
    · rcases CallStack.frame_add_cases hg with ⟨hk', -⟩ | ⟨-, hg⟩
      · omega
      · exact c.returns k g g' hg hg'

/-- A frame that returns leaves its caller as it is. -/
theorem afterReturn_eq (c : p.Paced) {f : Frame} (top : p.calls.top? = some f) :
    p.calls.afterReturn f = p.calls.dropTop := by
  unfold CallStack.afterReturn
  cases back : f.returnAddress with
  | none => rfl
  | some address =>
    refine congrArg (CallStack.mk · p.calls.maxDepth) (Array.ext_getElem? fun n => ?_)
    show (p.calls.frames.pop.modify (p.calls.frames.pop.size - 1) _)[n]? = p.calls.frames.pop[n]?
    rw [Array.getElem?_modify]
    split
    · next last =>
      subst last
      cases hg : p.calls.frames.pop[p.calls.frames.pop.size - 1]? with
      | none => rfl
      | some g =>
        have lt := (Array.getElem?_eq_some_iff.mp hg).1
        -- the caller's counter is written, but it is there already
        have above : p.calls.frames.pop.size - 1 + 1 = p.calls.depth - 1 := by
          rw [Array.size_pop] at *
          unfold CallStack.depth
          omega
        obtain ⟨address', back', pc⟩ := c.returns _ g f (getElem?_of_pop hg)
          (above ▸ CallStack.frame_of_top top)
        rw [back] at back'; cases back'
        show some { g with pc := address + 1 } = some g
        rw [← pc]
    · rfl

/-- A return is the frame on top leaving, and perhaps a collection. -/
theorem back (c : p.Paced) {f : Frame} (top : p.calls.top? = some f) :
    p.Drops (p.calls.depth - 1) (p.afterReturn f).applyRules := by
  have returned : p.Drops (p.calls.depth - 1) (p.afterReturn f) := by
    unfold Process.afterReturn
    rw [c.afterReturn_eq top]
    exact (drops_top top).quiet (quiet_elsewhere rfl rfl rfl rfl rfl)
  exact returned.quiet (Exec.quiet_applyRules _)

/-- The caller goes on with the frame that it has waited with. -/
theorem calls_back (c : p.Paced) {f : Frame} (top : p.calls.top? = some f) :
    (p.afterReturn f).applyRules.calls = p.calls.dropTop := by
  have returned : (p.afterReturn f).calls = p.calls.dropTop := c.afterReturn_eq top
  unfold Process.applyRules
  split
  · exact returned
  · exact returned

theorem act (c : p.Paced) (fetched : ∀ f, p.calls.top? = some f → 0 < f.pc) (a : p.Act i q) :
    q.Paced := by
  cases a with
  | keep _ => exact c
  | bind _ => exact c.bindOuter _
  | put | take | stage => exact c.of_frames rfl
  | call _ top _ _ _ _ _ _ => exact c.call top (fetched _ top)

/-- In the end an instruction acts and then frames leave, if any do. -/
theorem acts (c : p.Paced) (s : p.Shift i q) : ∃ r m, p.Act i r ∧ r.Drops m q := by
  cases s with
  | acts act drops => exact ⟨_, _, act, drops⟩
  | back op top returned =>
    exact ⟨p, _, .keep (binds_eq_none (by rw [op]; nofun)), returned ▸ c.back top⟩

end Paced

/-- What has been fetched is behind the counter. -/
theorem pc_pos_fetched (next : p.next? = some i) {f : Frame}
    (top : p.fetched.calls.top? = some f) : 0 < f.pc := by
  obtain ⟨g, top', here⟩ := next?_eq_some_iff.mp next
  rw [top?_fetched top' here] at top
  cases top
  exact Nat.succ_pos _

/-- A step acts on what has been fetched, or not at all, and then frames leave, if any do. -/
theorem Paced.step_cases (c : p.Paced) {label : Option (Process × Instruction)}
    (s : p.Step label q) :
    (∃ i r m, label = some (p.fetched, i) ∧ p.next? = some i ∧ p.fetched.Act i r ∧ r.Drops m q) ∨
      label = none ∧ ∃ m, p.Drops m q := by
  rcases s.cases with ⟨i, same, next, rfl⟩ | ⟨same, quiet⟩ | ⟨same, f, top, -, -, rfl⟩
  · obtain ⟨r, m, act, drops⟩ := (c.quiet p.quiet_fetched).acts (Exec.shift_execute _ i)
    exact .inl ⟨i, r, m, same, next, act, drops⟩
  · exact .inr ⟨same, _, quiet⟩
  · exact .inr ⟨same, _, c.back top⟩

theorem Paced.step (c : p.Paced) {label : Option (Process × Instruction)}
    (s : p.Step label q) : q.Paced := by
  rcases c.step_cases s with ⟨i, r, m, -, next, act, drops⟩ | ⟨-, m, drops⟩
  · have fetched := c.quiet p.quiet_fetched
    exact (fetched.act (fun f => pc_pos_fetched next) act).drops drops
  · exact c.drops drops

theorem paced_start (c : p.Paced) : p.start.2.Paced := by
  rcases p.start_cases with same | ⟨-, -, none | ⟨m, entry, -, -, -, one⟩⟩
  · exact same.symm ▸ c
  · exact paced_of_empty none
  · refine ⟨fun n f hf => ?_, fun n f g hf hg => ?_⟩
    · rw [one] at hf
      obtain ⟨-, rfl⟩ := eq_of_singleton hf
      exact ⟨Nat.zero_le _, fun w hw => absurd hw List.not_mem_nil⟩
    · rw [one] at hg
      exact absurd (eq_of_singleton hg).1 (Nat.succ_ne_zero n)

theorem Driven.paced (d : p.Driven) : p.Paced := by
  induction d with
  | new made => exact paced_of_empty (frames_of_new made)
  | load _ _ ih => exact ih.of_frames rfl
  | start _ ih => exact paced_start ih
  | step _ s ih => exact ih.step s
  | reset | abandon => exact paced_of_empty rfl

end Process

end ObjectVM
