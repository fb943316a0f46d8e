import ObjectVM.Proofs.CallLinks

/-!
# Callers wait

Whatever compartments are loaded and whatever a host asks for, there are no more frames than the
stack has room for, every frame runs the code of a closure that is loaded, behind all signal
vectors, and no caller is beyond the instruction that it goes on at when its callee returns
(`Process.Ordered`). So a return never takes a caller back.

* `Edit.ordered`: every edit keeps this.
* `Process.Reachable.ordered`: so it holds of every process that requests lead to.
-/
namespace ObjectVM

/-- Whether a closure is in a compartment that is loaded. -/
def Process.Loads (p : Process) (c : Closure) : Prop := ∃ m ∈ p.compartments, c ∈ m.closures

/-- The frames of a process fit on the stack, are of closures that are loaded, and wait for their
callees at the latest where these return to. -/
structure Process.Ordered (p : Process) : Prop where
  depth : p.calls.depth ≤ p.calls.maxDepth
  codes : ∀ (n : Nat) (f : Frame), p.calls.frames[n]? = some f →
    ∃ c, p.Loads c ∧ f.ownCode = c.code
  returns : ∀ (n : Nat) (f g : Frame) (address : Nat), p.calls.frames[n]? = some f →
    p.calls.frames[n + 1]? = some g → g.returnAddress = some address → f.pc ≤ address + 1

namespace Process

variable {p q : Process}

/-- A closure that a reference names is loaded. -/
theorem loads_of_resolve {ref : ClosureRef} {c : Closure} (resolves : p.resolve ref = .ok c) :
    p.Loads c := by
  obtain ⟨m, there, found⟩ := resolve_eq_ok_iff.mp resolves
  exact ⟨m, Array.mem_of_getElem? there, Compartment.mem_of_closure? found⟩

namespace Ordered

/-- The frames and the compartments are all that matters. -/
theorem keep (o : p.Ordered) (compartments : q.compartments = p.compartments)
    (calls : q.calls = p.calls) : q.Ordered := by
  refine ⟨calls ▸ o.depth, fun n f hf => ?_, calls ▸ o.returns⟩
  obtain ⟨c, loads, code⟩ := o.codes n f (calls ▸ hf)
  exact ⟨c, by unfold Loads; rwa [compartments], code⟩

theorem of_empty (none : p.calls.frames = #[]) : p.Ordered := by
  refine ⟨?_, fun n f hf => ?_, fun n f g address hf => ?_⟩
  · unfold CallStack.depth
    rw [none]
    exact Nat.zero_le _
  · rw [none] at hf
    cases hf
  · rw [none] at hf
    cases hf

/-- A frame may change that stays the same activation. Its counter must not grow while it waits. -/
theorem modify (o : p.Ordered) (index : Nat) {g : Frame → Frame}
    (same : ∀ f, p.calls.frames[index]? = some f →
      (g f).ownCode = f.ownCode ∧ (g f).returnAddress = f.returnAddress ∧
        (index + 1 < p.calls.depth → (g f).pc ≤ f.pc)) :
    { p with calls := p.calls.modify index g }.Ordered := by
  have frames : ∀ (n : Nat) (f' : Frame), (p.calls.frames.modify index g)[n]? = some f' →
      ∃ f, p.calls.frames[n]? = some f ∧ f'.ownCode = f.ownCode ∧
        f'.returnAddress = f.returnAddress ∧ (n + 1 < p.calls.depth → f'.pc ≤ f.pc) := by
    intro n f' hf'
    rcases getElem?_modify_cases hf' with ⟨rfl, f, hf, rfl⟩ | hf'
    · exact ⟨f, hf, same f hf⟩
    · exact ⟨f', hf', rfl, rfl, fun _ => Nat.le_refl _⟩
  refine ⟨?_, fun n f' hf' => ?_, fun n f' g' address hf' hg' back => ?_⟩
  · exact Nat.le_trans (Nat.le_of_eq Array.size_modify) o.depth
  · obtain ⟨f, hf, code, -, -⟩ := frames n f' hf'
    obtain ⟨c, loads, own⟩ := o.codes n f hf
    exact ⟨c, loads, code.trans own⟩
  · obtain ⟨f, hf, -, -, waits⟩ := frames n f' hf'
    obtain ⟨h, hh, -, back', -⟩ := frames (n + 1) g' hg'
    exact Nat.le_trans (waits (CallStack.lt_depth hh))
      (o.returns n f h address hf hh (back'.symm.trans back))

theorem setTop (o : p.Ordered) {f f' : Frame} (top : p.calls.top? = some f)
    (code : f'.ownCode = f.ownCode) (back : f'.returnAddress = f.returnAddress) :
    { p with calls := p.calls.modifyTop fun _ => f' }.Ordered := by
  refine o.modify _ fun g hg => ?_
  rw [CallStack.frame_of_top top] at hg
  cases hg
  exact ⟨code, back, fun above => by omega⟩

theorem dropTop (o : p.Ordered) : { p with calls := p.calls.dropTop }.Ordered := by
  refine ⟨?_, fun n f hf => o.codes n f (getElem?_of_pop hf),
    fun n f g address hf hg => o.returns n f g address (getElem?_of_pop hf) (getElem?_of_pop hg)⟩
  show p.calls.frames.pop.size ≤ p.calls.maxDepth
  rw [Array.size_pop]
  exact Nat.le_trans (Nat.sub_le _ _) o.depth

/-- A frame that is called returns behind the instruction that its caller executes. -/
theorem call (o : p.Ordered) {f : Frame} {ref : ClosureRef} {c : Closure} {n : Nat}
    {parent : Option Nat} (top : p.calls.top? = some f) (loads : p.Loads c)
    (room : p.calls.isFull = false) :
    { p with calls := p.calls.add (.new ref c.code n (some f.currentIndex) parent) }.Ordered := by
  have last := CallStack.frame_of_top top
  refine ⟨?_, fun k g hg => ?_, fun k g g' address hg hg' back => ?_⟩
  · rw [CallStack.depth_add]
    have free : p.calls.depth < p.calls.maxDepth := by simpa [CallStack.isFull] using room
    exact free
  · rcases CallStack.frame_add_cases hg with ⟨-, rfl⟩ | ⟨-, hg⟩
    · exact ⟨c, loads, rfl⟩
    · exact o.codes k g hg
  · rcases CallStack.frame_add_cases hg with ⟨hk, -⟩ | ⟨-, hg⟩
    · have above := CallStack.lt_depth hg'
      rw [CallStack.depth_add] at above
      omega
    · rcases CallStack.frame_add_cases hg' with ⟨hk, rfl⟩ | ⟨-, hg'⟩
      · rw [show k = p.calls.depth - 1 by omega, last] at hg
        cases hg
        cases back
        show f.pc ≤ f.pc - 1 + 1
        omega
      · exact o.returns k g g' address hg hg' back

theorem afterReturn (o : p.Ordered) (f : Frame) :
    { p with calls := p.calls.afterReturn f }.Ordered := by
  unfold CallStack.afterReturn
  cases f.returnAddress with
  | none => exact o.dropTop
  | some address =>
    refine o.dropTop.modify _ fun g hg => ⟨rfl, rfl, ?_⟩
    -- the caller is on top now, so its counter may move
    intro (above : p.calls.dropTop.depth - 1 + 1 < p.calls.dropTop.depth)
    omega

end Ordered

end Process

theorem Edit.ordered {p q : Process} (e : Edit p q) (o : p.Ordered) : q.Ordered := by
  cases e with
  | report | outcome | objects | object | allocate | value | attach | detach | stage | argue
    | collect => exact o.keep rfl rfl
  | frame top continues _ => exact o.setTop top continues.alike.ownCode continues.returnAddress
  | interrupt top _ => exact o.setTop top (Frame.alike_interrupt _ _).ownCode rfl
  | @resume f f' top _ resumed =>
    have back : f'.returnAddress = f.returnAddress := by
      unfold Frame.resume? at resumed
      split at resumed
      · cases resumed
        rfl
      · cases resumed
    exact o.setTop top (Frame.alike_resume resumed).ownCode back
  | outer => exact o.modify _ fun f _ => ⟨rfl, rfl, fun _ => Nat.le_refl _⟩
  | call top _ _ _ resolves room => exact o.call top (Process.loads_of_resolve resolves) room
  | leave => exact o.dropTop.keep rfl rfl
  | back => exact (o.afterReturn _).keep rfl rfl

theorem Edits.ordered {p q : Process} (es : Edits p q) (o : p.Ordered) : q.Ordered := by
  induction es with
  | refl => exact o
  | tail _ e ih => exact e.ordered ih

/-- No edit loads a compartment, or makes the stack larger. -/
theorem Edit.bounds {p q : Process} (e : Edit p q) :
    q.compartments = p.compartments ∧ q.calls.maxDepth = p.calls.maxDepth := by
  cases e with
  | back =>
    refine ⟨rfl, ?_⟩
    show (CallStack.afterReturn _ _).maxDepth = _
    unfold CallStack.afterReturn
    split <;> rfl
  | _ => exact ⟨rfl, rfl⟩

theorem Edits.bounds {p q : Process} (es : Edits p q) :
    q.compartments = p.compartments ∧ q.calls.maxDepth = p.calls.maxDepth := by
  induction es with
  | refl => exact ⟨rfl, rfl⟩
  | tail _ e ih => exact ⟨e.bounds.1.trans ih.1, e.bounds.2.trans ih.2⟩

/-! ## Requests -/

namespace Process

variable {p : Process} {may : Compartment → Prop}

theorem Ordered.start (o : p.Ordered) : p.start.2.Ordered := by
  rcases p.start_cases with same | ⟨compartments, room, none | ⟨m, entry, there, enters, free, one⟩⟩
  · exact same.symm ▸ o
  · exact .of_empty none
  · refine ⟨?_, fun n f hf => ?_, fun n f g address hf hg => ?_⟩
    · unfold CallStack.depth
      rw [one, room]
      exact free
    · rw [one] at hf
      obtain ⟨-, rfl⟩ := eq_of_singleton hf
      refine ⟨entry, ⟨m, ?_, mem_of_entryPoint? enters⟩, rfl⟩
      rw [compartments]
      exact Array.mem_of_getElem? there
    · rw [one] at hg
      exact absurd (eq_of_singleton hg).1 (Nat.succ_ne_zero n)

theorem Ordered.load (o : p.Ordered) (m : Compartment) : (p.load m).2.Ordered := by
  refine ⟨o.depth, fun n f hf => ?_, o.returns⟩
  obtain ⟨c, ⟨m', there, mem⟩, code⟩ := o.codes n f hf
  exact ⟨c, ⟨m', Array.mem_push_of_mem m there, mem⟩, code⟩

theorem Ordered.after (o : p.Ordered) (s : p.Sound) (r : Request) : (p.after r).Ordered := by
  cases r with
  | load c => exact o.load c
  | start => exact o.start
  | run turns => exact (s.steps_run turns).edits.ordered o
  | execute i => exact (s.steps_execute i).edits.ordered o
  | deliver => exact s.steps_deliver.edits.ordered o
  | handle sig => exact (s.steps_handle sig).edits.ordered o
  | raise | setRule | setVector | redirect | collect => exact o.keep rfl rfl
  | reset | abandon => exact .of_empty rfl

theorem Reachable.ordered (r : p.Reachable may) : p.Ordered := by
  induction r with
  | new made => exact .of_empty (frames_of_new made)
  | after before r _ ih => exact ih.after before.sound r

end Process

end ObjectVM
