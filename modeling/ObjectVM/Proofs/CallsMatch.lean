import ObjectVM.Proofs.Dispatch

/-!
# Frames and invocations

A process keeps two stacks for its calls, one of frames and one of invocations. Between two frames
lie the invocations of calls that are staged and not made yet, so the two differ in length, but they
agree (`Process.CallsMatch`): the frames' places on the invocation stack rise from the bottom, each
frame's invocation is one of its closure, and without frames there are no invocations.

* `CallsMatch.drops`: frames that leave, in whichever way, take what is theirs and no more.
* `CallsMatch.shift`, `CallsMatch.step`: every instruction and every step keeps the agreement.
* `Driven.callsMatch`: so it holds of every process that running programs leads to.
-/
namespace ObjectVM

/-! ## Closures that there are -/

namespace Compartment

/-- The numbers of its closures lead to closures. -/
def Indexed (c : Compartment) : Prop := ∀ cl ∈ c.closures, ∃ cl', c.closure? cl.id = some cl'

theorem Assembled.indexed {c : Compartment} (assembled : c.Assembled) : c.Indexed := by
  obtain ⟨path, strings, floats, closures, rfl⟩ := assembled
  exact fun cl mem => exists_closure?_withClosures mem

theorem Loaded.assembled {c : Compartment} (loaded : c.Loaded) : c.Assembled := by
  obtain ⟨container, made⟩ := loaded
  obtain ⟨cls, -, rfl⟩ := exists_of_ofContainer made
  exact ⟨_, _, _, _, rfl⟩

end Compartment

/-! ## What agrees -/

/-- Frames and invocations agree, and all of them are of closures that there are. -/
structure Process.CallsMatch (p : Process) : Prop where
  limit : p.calls.maxDepth = p.options.maxCallDepth
  positive : 0 < p.options.maxCallDepth
  depth : p.calls.depth ≤ p.calls.maxDepth
  indexed : ∀ (n : Nat) (c : Compartment), p.compartments[n]? = some c → c.Indexed
  first : ∀ f, p.calls.frames[0]? = some f → f.invocation = 0
  rising : ∀ (m n : Nat) (f g : Frame), m < n → p.calls.frames[m]? = some f →
    p.calls.frames[n]? = some g → f.invocation < g.invocation
  own : ∀ (n : Nat) (f : Frame), p.calls.frames[n]? = some f →
    ∃ j, p.invocations[f.invocation]? = some j ∧ j.callee = f.closure
  resolved : ∀ (n : Nat) (j : Invocation), p.invocations[n]? = some j →
    ∃ c, p.resolve j.callee = .ok c
  empty : p.calls.depth = 0 → p.invocations = #[]
  ended : ∀ o, o.isFinal = true → p.halt = some o → p.calls.depth = 0

namespace Process

variable {p q : Process} {i : Instruction} {m n : Nat}

theorem resolve_congr (compartments : q.compartments = p.compartments) (ref : ClosureRef) :
    q.resolve ref = p.resolve ref := by
  rw [resolve, resolve, compartment, compartment, compartments]

/-- An invocation that is left where frames leave has been there before. -/
theorem Drops.invocation {j : Invocation} (d : p.Drops m q) (there : q.invocations[n]? = some j) :
    p.invocations[n]? = some j := by
  by_cases kept : ∀ l g, m ≤ l → p.calls.frames[l]? = some g → n < g.invocation
  · exact (d.kept n kept).symm.trans there
  · push Not at kept
    obtain ⟨l, g, hl, hg, low⟩ := kept
    have gone := d.cut n l g hl hg low
    rw [there] at gone
    cases gone

theorem frame_of_bindOuter {b : OuterBinding} {f' : Frame}
    (there : (p.bindOuter b).calls.frames[n]? = some f') : ∃ f, p.calls.frames[n]? = some f ∧
      (f' = f ∨ f' = f.setVisible b.key b.id) := by
  replace there : (p.calls.frames.modify b.frame (·.setVisible b.key b.id))[n]? = some f' := there
  rcases getElem?_modify_cases there with ⟨-, f, hf, rfl⟩ | there
  · exact ⟨f, hf, .inr rfl⟩
  · exact ⟨f', there, .inl rfl⟩

namespace CallsMatch

/-- Each frame has its invocation on the stack. -/
theorem owned (c : p.CallsMatch) {f : Frame} (hf : p.calls.frames[n]? = some f) :
    f.invocation < p.invocations.size := by
  obtain ⟨j, hj, -⟩ := c.own n f hf
  exact (Array.getElem?_eq_some_iff.mp hj).1

/-- Frames that leave take what is theirs, and leave to the others what is theirs. -/
theorem drops (c : p.CallsMatch) (d : p.Drops m q) : q.CallsMatch := by
  refine ⟨by rw [d.maxDepth, d.options, c.limit], d.options ▸ c.positive, ?_,
    d.compartments ▸ c.indexed, fun f' hf' => ?_, fun k n f' g' hkn hf' hg' => ?_,
    fun n f' hf' => ?_, fun n j hj => ?_, fun none => ?_, fun o final ho => ?_⟩
  · rw [d.depth, d.maxDepth]
    exact Nat.le_trans d.within c.depth
  · obtain ⟨-, f, hf, on⟩ := d.frame hf'
    rw [on.invocation]
    exact c.first f hf
  · obtain ⟨-, f, hf, on⟩ := d.frame hf'
    obtain ⟨-, g, hg, on'⟩ := d.frame hg'
    rw [on.invocation, on'.invocation]
    exact c.rising k n f g hkn hf hg
  · obtain ⟨lt, f, hf, on⟩ := d.frame hf'
    obtain ⟨j, hj, callee⟩ := c.own n f hf
    refine ⟨j, ?_, callee.trans on.closure.symm⟩
    rw [on.invocation, d.kept f.invocation fun l g hl hg =>
      c.rising n l f g (Nat.lt_of_lt_of_le lt hl) hf hg]
    exact hj
  · obtain ⟨cl, hcl⟩ := c.resolved n j (d.invocation hj)
    exact ⟨cl, (resolve_congr d.compartments _).trans hcl⟩
  · refine Array.eq_empty_of_size_eq_zero (Nat.eq_zero_of_not_pos fun some => ?_)
    have there := d.invocation (Array.getElem?_eq_getElem some)
    -- the first frame leaves too, and the first invocation is its own, so all of them go
    by_cases before : p.calls.depth = 0
    · rw [c.empty before] at there
      cases there
    · obtain ⟨f, hf⟩ := CallStack.exists_frame (Nat.pos_of_ne_zero before)
      have gone := d.cut 0 0 f (by rw [← d.depth, none]) hf (Nat.le_of_eq (c.first f hf))
      rw [Array.getElem?_eq_getElem some] at gone
      cases gone
  · rcases d.halt o final ho with ho | none
    · have := c.ended o final ho
      exact Nat.eq_zero_of_le_zero (this ▸ d.depth ▸ d.within)
    · exact d.depth.trans none

theorem quiet (c : p.CallsMatch) (quiet : p.Quiet q) : q.CallsMatch := c.drops quiet

/-- What only changes frames and invocations, each in its place and for its closure, keeps them in
agreement. -/
theorem transfer (c : p.CallsMatch) (options : q.options = p.options)
    (compartments : q.compartments = p.compartments)
    (maxDepth : q.calls.maxDepth = p.calls.maxDepth) (depth : q.calls.depth = p.calls.depth)
    (halt : q.halt = p.halt)
    (frames : ∀ (n : Nat) (f' : Frame), q.calls.frames[n]? = some f' → ∃ f,
      p.calls.frames[n]? = some f ∧ f'.closure = f.closure ∧ f'.invocation = f.invocation)
    (callees : ∀ n : Nat, (q.invocations[n]?).map (·.callee) =
      (p.invocations[n]?).map (·.callee)) : q.CallsMatch := by
  have back : ∀ (n : Nat) (j : Invocation), q.invocations[n]? = some j →
      ∃ j', p.invocations[n]? = some j' ∧ j'.callee = j.callee := fun n j hj => by
    have same := callees n
    rw [hj] at same
    exact Option.map_eq_some_iff.mp same.symm
  refine ⟨by rw [maxDepth, options, c.limit], options ▸ c.positive, by
    rw [depth, maxDepth]; exact c.depth, compartments ▸ c.indexed, fun f' hf' => ?_,
    fun k n f' g' hkn hf' hg' => ?_, fun n f' hf' => ?_, fun n j hj => ?_, fun none => ?_,
    fun o final ho => ?_⟩
  · obtain ⟨f, hf, -, same⟩ := frames 0 f' hf'
    exact same.trans (c.first f hf)
  · obtain ⟨f, hf, -, same⟩ := frames k f' hf'
    obtain ⟨g, hg, -, same'⟩ := frames n g' hg'
    rw [same, same']
    exact c.rising k n f g hkn hf hg
  · obtain ⟨f, hf, closure, place⟩ := frames n f' hf'
    obtain ⟨j, hj, callee⟩ := c.own n f hf
    have same := callees f.invocation
    rw [hj] at same
    obtain ⟨j', hj', callee'⟩ := Option.map_eq_some_iff.mp same
    exact ⟨j', place ▸ hj', callee'.trans (callee.trans closure.symm)⟩
  · obtain ⟨j', hj', callee⟩ := back n j hj
    obtain ⟨cl, hcl⟩ := c.resolved n j' hj'
    exact ⟨cl, (resolve_congr compartments _).trans (callee ▸ hcl)⟩
  · refine Array.eq_empty_of_size_eq_zero (Nat.eq_zero_of_not_pos fun some => ?_)
    obtain ⟨j', hj', -⟩ := back 0 _ (Array.getElem?_eq_getElem some)
    rw [c.empty (depth ▸ none)] at hj'
    cases hj'
  · exact depth.trans (c.ended o final (halt ▸ ho))

theorem setInvocation (c : p.CallsMatch) {j j' : Invocation} (there : p.invocations[n]? = some j)
    (callee : j'.callee = j.callee) : (p.setInvocation n j').CallsMatch := by
  refine c.transfer rfl rfl rfl rfl rfl (fun _ f hf => ⟨f, hf, rfl, rfl⟩) fun k => ?_
  show ((p.invocations.setIfInBounds n j')[k]?).map _ = _
  rw [Array.getElem?_setIfInBounds]
  split
  · next same =>
    subst same
    rw [if_pos (Array.getElem?_eq_some_iff.mp there).1, there]
    exact congrArg some callee
  · rfl

theorem bindOuter (c : p.CallsMatch) (b : OuterBinding) : (p.bindOuter b).CallsMatch := by
  refine c.transfer rfl rfl rfl Array.size_modify rfl (fun k f' hf' => ?_) fun _ => rfl
  obtain ⟨f, hf, rfl | rfl⟩ := frame_of_bindOuter hf'
  · exact ⟨_, hf, rfl, rfl⟩
  · exact ⟨f, hf, rfl, rfl⟩

/-- A frame that runs may stage a call of any closure that there is. -/
theorem stage (c : p.CallsMatch) (running : 0 < p.calls.depth) {ref : ClosureRef} {cl : Closure}
    (resolves : p.resolve ref = .ok cl) :
    { p with invocations := p.invocations.push (.new ref) }.CallsMatch := by
  have cases : ∀ (n : Nat) (j : Invocation), (p.invocations.push (.new ref))[n]? = some j →
      j.callee = ref ∨ p.invocations[n]? = some j := fun n j hj => by
    rw [Array.getElem?_push] at hj
    split at hj
    · cases hj; exact .inl rfl
    · exact .inr hj
  refine ⟨c.limit, c.positive, c.depth, c.indexed, c.first, c.rising, fun n f hf => ?_,
    fun n j hj => ?_, fun none => absurd none (Nat.ne_of_gt running), c.ended⟩
  · obtain ⟨j, hj, callee⟩ := c.own n f hf
    refine ⟨j, ?_, callee⟩
    show (p.invocations.push _)[f.invocation]? = _
    rw [Array.getElem?_push, if_neg (Nat.ne_of_lt (c.owned hf))]
    exact hj
  · rcases cases n j hj with rfl | hj
    · exact ⟨cl, resolves⟩
    · exact c.resolved n j hj

/-- No frame has its invocation above that of the frame on top. -/
theorem le_top (c : p.CallsMatch) {f g : Frame} (top : p.calls.top? = some f)
    (hg : p.calls.frames[n]? = some g) : g.invocation ≤ f.invocation := by
  have last := CallStack.frame_of_top top
  have hn := CallStack.lt_depth hg
  by_cases h : n = p.calls.depth - 1
  · rw [h, last] at hg; cases hg
    exact Nat.le_refl _
  · exact Nat.le_of_lt (c.rising n _ g f (by omega) hg last)

/-- A frame for the call staged last has its invocation above those of the others. -/
theorem call (c : p.CallsMatch) {f : Frame} {j : Invocation} {code : Code}
    {address parent : Option Nat} (top : p.calls.top? = some f) (above : f.invocation < n)
    (there : p.invocations[n]? = some j) (room : p.calls.isFull = false) :
    { p with calls := p.calls.add (.new j.callee code n address parent) }.CallsMatch := by
  have running := CallStack.depth_pos top
  refine ⟨c.limit, c.positive, ?_, c.indexed, fun g hg => ?_, fun k l g g' hkl hg hg' => ?_,
    fun k g hg => ?_, c.resolved, fun none => ?_, fun o final ho => ?_⟩
  · have fits : p.calls.depth < p.calls.maxDepth := by simpa [CallStack.isFull] using room
    exact CallStack.depth_add _ _ ▸ fits
  · rcases CallStack.frame_add_cases hg with ⟨none, -⟩ | ⟨-, hg⟩
    · omega
    · exact c.first g hg
  · rcases CallStack.frame_add_cases hg' with ⟨hl, rfl⟩ | ⟨hl, hg'⟩
    · rcases CallStack.frame_add_cases hg with ⟨hk, -⟩ | ⟨-, hg⟩
      · omega
      · exact Nat.lt_of_le_of_lt (c.le_top top hg) above
    · rcases CallStack.frame_add_cases hg with ⟨hk, -⟩ | ⟨-, hg⟩
      · omega
      · exact c.rising k l g g' hkl hg hg'
  · rcases CallStack.frame_add_cases hg with ⟨-, rfl⟩ | ⟨-, hg⟩
    · exact ⟨j, there, rfl⟩
    · exact c.own k g hg
  · exact absurd ((CallStack.depth_add _ _).symm.trans none) (Nat.succ_ne_zero _)
  · exact absurd (c.ended o final ho) (Nat.ne_of_gt running)

/-- The caller that goes on behind its call keeps its place. -/
theorem back (c : p.CallsMatch) {f : Frame} (top : p.calls.top? = some f) :
    (p.afterReturn f).applyRules.CallsMatch := by
  have left := c.drops (drops_top top)
  have returned : (p.afterReturn f).CallsMatch := by
    unfold Process.afterReturn CallStack.afterReturn
    cases f.returnAddress with
    | none => exact left.quiet (quiet_elsewhere rfl rfl rfl rfl rfl)
    | some address =>
      refine left.transfer rfl rfl rfl Array.size_modify rfl (fun k g' hg' => ?_) fun _ => rfl
      replace hg' : (p.calls.dropTop.frames.modify (p.calls.dropTop.depth - 1)
        fun caller => { caller with pc := address + 1 })[k]? = some g' := hg'
      rcases getElem?_modify_cases hg' with ⟨-, g, hg, rfl⟩ | hg'
      · exact ⟨g, hg, rfl, rfl⟩
      · exact ⟨g', hg', rfl, rfl⟩
  exact returned.quiet (Exec.quiet_applyRules _)

theorem act (c : p.CallsMatch) (running : 0 < p.calls.depth) (a : p.Act i q) : q.CallsMatch := by
  cases a with
  | keep _ => exact c
  | bind _ => exact c.bindOuter _
  | put _ _ _ _ _ there callee => exact c.setInvocation there callee
  | take _ _ _ there callee => exact c.setInvocation there callee
  | stage _ resolves => exact c.stage running resolves
  | call _ top above _ there _ _ room => exact c.call top above there room

theorem shift (c : p.CallsMatch) (running : 0 < p.calls.depth) (s : p.Shift i q) :
    q.CallsMatch := by
  cases s with
  | acts act drops => exact (c.act running act).drops drops
  | back _ top returned => exact returned ▸ c.back top

theorem step (c : p.CallsMatch) {label : Option (Process × Instruction)} (s : p.Step label q) :
    q.CallsMatch := by
  rcases s.cases with ⟨i, -, next, rfl⟩ | ⟨-, quiet⟩ | ⟨-, f, top, -, -, rfl⟩
  · obtain ⟨f, top, -⟩ := next?_eq_some_iff.mp next
    refine (c.quiet p.quiet_fetched).shift ?_ (Exec.shift_execute _ i)
    rw [p.quiet_fetched.depth]
    exact CallStack.depth_pos top
  · exact c.quiet quiet
  · exact c.back top

theorem new {options : ProcessOptions} {journal : Journal}
    (made : options.newProcess journal = .ok p) : p.CallsMatch := by
  unfold ProcessOptions.newProcess ProcessOptions.check at made
  split at made
  · cases made
  · next checked =>
    cases made
    split at checked
    · cases checked
    · split at checked
      · cases checked
      · split at checked
        · cases checked
        · next positive =>
          refine ⟨rfl, Nat.pos_of_ne_zero positive, Nat.zero_le _, ?_, ?_, ?_, ?_, ?_,
            fun _ => rfl, nofun⟩
          all_goals simp [CallStack.empty]

/-- Without frames and invocations there is nothing that could disagree. -/
theorem cleared (c : p.CallsMatch) (options : q.options = p.options)
    (maxDepth : q.calls.maxDepth = p.calls.maxDepth)
    (compartments : ∀ (n : Nat) (c : Compartment), q.compartments[n]? = some c → c.Indexed)
    (frames : q.calls.frames = #[]) (invocations : q.invocations = #[]) : q.CallsMatch := by
  have none : q.calls.depth = 0 := by rw [CallStack.depth, frames]; rfl
  refine ⟨by rw [maxDepth, options, c.limit], options ▸ c.positive,
    by rw [none]; exact Nat.zero_le _,
    compartments, ?_, ?_, ?_, ?_, fun _ => invocations, fun _ _ _ => none⟩
  all_goals simp [frames, invocations]

theorem reset (c : p.CallsMatch) : p.reset.CallsMatch :=
  c.cleared rfl rfl (fun n c hc => by
    simp [Process.reset, Process.note, Process.clearStacks] at hc) rfl rfl

/-- The first frame has the first invocation. -/
theorem start (c : p.CallsMatch) : p.start.2.CallsMatch := by
  unfold Process.start
  cases hentry : p.compartments[0]?.bind Compartment.entryPoint? with
  | none => exact c
  | some entry =>
    obtain ⟨comp, hc, he⟩ := Option.bind_eq_some_iff.mp hentry
    obtain ⟨cl, found⟩ := c.indexed 0 comp hc entry (mem_of_entryPoint? he)
    have resolves : p.resolve ⟨0, entry.id⟩ = .ok cl := resolve_eq_ok_iff.mpr ⟨comp, hc, found⟩
    have cleared : ((p.note (.entered entry.name)).clearStacks).CallsMatch :=
      c.cleared rfl rfl c.indexed rfl rfl
    have room : p.calls.clear.isFull = false :=
      decide_eq_false (Nat.not_le.mpr (c.limit.symm ▸ c.positive : 0 < p.calls.maxDepth))
    have pushed : ((p.note (.entered entry.name)).clearStacks).calls.push
        (Frame.new ⟨0, entry.id⟩ entry.code 0 none none) =
          .ok (p.calls.clear.add (Frame.new ⟨0, entry.id⟩ entry.code 0 none none)) :=
      if_neg (by show ¬ p.calls.clear.isFull = true; rw [room]; nofun)
    have only : ∀ (n : Nat) (f : Frame),
        (#[Frame.new ⟨0, entry.id⟩ entry.code 0 none none] : Array Frame)[n]? = some f →
          n = 0 ∧ f = Frame.new ⟨0, entry.id⟩ entry.code 0 none none :=
      fun n f hf => eq_of_singleton hf
    dsimp only
    rw [pushed]
    refine ⟨c.limit, c.positive, ?_, c.indexed, fun f hf => ?_, fun k n f g hkn hf hg => ?_,
      fun n f hf => ?_, fun n j hj => ?_, fun none => ?_, nofun⟩
    · exact c.limit.symm ▸ c.positive
    · rw [(only 0 f hf).2]
      rfl
    · have := (only n g hg).1
      omega
    · rw [(only n f hf).2]
      exact ⟨_, rfl, rfl⟩
    · obtain ⟨-, rfl⟩ := eq_of_singleton hj
      exact ⟨cl, resolves⟩
    · cases none

/-- A compartment more takes no closure away. -/
theorem load (c : p.CallsMatch) {comp : Compartment} (indexed : comp.Indexed) :
    (p.load comp).2.CallsMatch := by
  refine ⟨c.limit, c.positive, c.depth, fun n comp' hc => ?_, c.first, c.rising, c.own,
    fun n j hj => ?_, c.empty, c.ended⟩
  · replace hc : (p.compartments.push comp)[n]? = some comp' := hc
    rw [Array.getElem?_push] at hc
    split at hc
    · cases hc; exact indexed
    · exact c.indexed n comp' hc
  · obtain ⟨cl, hcl⟩ := c.resolved n j hj
    obtain ⟨comp', there, found⟩ := resolve_eq_ok_iff.mp hcl
    have hlt := (Array.getElem?_eq_some_iff.mp there).1
    refine ⟨cl, resolve_eq_ok_iff.mpr ⟨comp', ?_, found⟩⟩
    show (p.compartments.push comp)[j.callee.compartment.toNat]? = some comp'
    rw [Array.getElem?_push, if_neg (Nat.ne_of_lt hlt)]
    exact there

end CallsMatch

theorem CallsMatch.runs {alive : Process → Prop} {log : Log} (c : p.CallsMatch)
    (a : Runs alive p log q) : q.CallsMatch := by
  induction a with
  | refl => exact c
  | step _ s _ ih => exact ih.step s

theorem Driven.callsMatch (d : p.Driven) : p.CallsMatch := by
  induction d with
  | new made => exact .new made
  | load _ assembled ih => exact ih.load assembled.indexed
  | start _ ih => exact ih.start
  | step _ s ih => exact ih.step s
  | reset _ ih => exact ih.reset
  | abandon _ limit ih =>
    exact CallsMatch.reset (ih.quiet (quiet_elsewhere rfl rfl rfl rfl rfl))

end Process

end ObjectVM
