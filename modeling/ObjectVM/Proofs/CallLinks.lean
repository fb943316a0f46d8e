import ObjectVM.Proofs.History
import ObjectVM.Proofs.Loading

/-!
# Frames, closures and invocations

Where only sound compartments are loaded, every frame belongs to a closure and runs its code, behind
all signal vectors, and the frames have invocations of their own, in order: the first frame the
first one, and each frame one above those of the frames below it (`Process.Linked`).

* `Edit.linked`: every edit keeps this.
* `Process.Reachable.linked`: so it holds of every process that requests lead to.
-/
namespace ObjectVM

/-- The code of a frame behind all signal vectors that run in it. -/
def Frame.ownCode (f : Frame) : Code :=
  match f.suspended.getLast? with
  | some w => w.code
  | none => f.code

/-- The frames of a process belong to closures and to invocations. -/
structure Process.Linked (p : Process) : Prop where
  loaded : ∀ (n : Nat) (c : Compartment), p.compartments[n]? = some c → c.Sound
  resolved : ∀ (n : Nat) (f : Frame), p.calls.frames[n]? = some f →
    ∃ c, p.resolve f.closure = .ok c ∧ f.ownCode = c.code
  first : ∀ f, p.calls.frames[0]? = some f → f.invocation = 0
  rising : ∀ (m n : Nat) (f g : Frame), m < n → p.calls.frames[m]? = some f →
    p.calls.frames[n]? = some g → f.invocation < g.invocation
  below : ∀ (n : Nat) (f : Frame), p.calls.frames[n]? = some f →
    f.invocation < p.invocations.size

namespace CallStack

variable {s : CallStack} {f g : Frame} {n : Nat}

theorem frame_of_top (top : s.top? = some f) : s.frames[s.depth - 1]? = some f :=
  Array.back?_eq_getElem?.symm.trans top

theorem lt_depth (there : s.frames[n]? = some f) : n < s.depth :=
  (Array.getElem?_eq_some_iff.mp there).1

theorem exists_frame (lt : n < s.depth) : ∃ f, s.frames[n]? = some f :=
  ⟨_, Array.getElem?_eq_getElem lt⟩

theorem depth_add (s : CallStack) (f : Frame) : (s.add f).depth = s.depth + 1 := Array.size_push f

/-- A frame that has been added is on top of the others. -/
theorem frame_add_cases (there : (s.add f).frames[n]? = some g) :
    n = s.depth ∧ g = f ∨ n < s.depth ∧ s.frames[n]? = some g := by
  replace there : (s.frames.push f)[n]? = some g := there
  rw [Array.getElem?_push] at there
  split at there
  · next last => cases there; exact .inl ⟨last, rfl⟩
  · exact .inr ⟨lt_depth there, there⟩

end CallStack

/-- A reference names a closure of the compartment that it names. -/
theorem Process.resolve_eq_ok_iff {p : Process} {ref : ClosureRef} {cl : Closure} :
    p.resolve ref = .ok cl ↔ ∃ c, p.compartments[ref.compartment.toNat]? = some c ∧
      c.closure? ref.closure = some cl := by
  unfold resolve compartment
  cases p.compartments[ref.compartment.toNat]? with
  | none => exact ⟨nofun, nofun⟩
  | some c =>
    refine Compartment.closure_eq_ok_iff.trans ⟨fun found => ⟨c, rfl, found⟩, ?_⟩
    rintro ⟨c', same, found⟩
    cases same
    exact found

/-- Frames of one closure with one invocation. -/
structure Frame.Alike (f f' : Frame) : Prop where
  closure : f'.closure = f.closure
  ownCode : f'.ownCode = f.ownCode
  invocation : f'.invocation = f.invocation

namespace Frame

variable {f f' : Frame}

theorem Alike.refl (f : Frame) : Alike f f := ⟨rfl, rfl, rfl⟩

theorem Continues.alike (c : f.Continues f') : Alike f f' :=
  ⟨c.closure, by unfold ownCode; rw [c.suspended, c.code], c.invocation⟩

theorem alike_interrupt (f : Frame) (vector : Code) : Alike f (f.interrupt vector) := by
  refine ⟨rfl, ?_, rfl⟩
  show (match (Window.mk f.code f.pc :: f.suspended).getLast? with
    | some w => w.code
    | none => vector) = _
  unfold ownCode
  cases f.suspended with
  | nil => rfl
  | cons w rest => rw [List.getLast?_cons_cons]; cases h : (w :: rest).getLast? <;> simp_all

theorem alike_resume (h : f.resume? = some f') : Alike f f' := by
  unfold resume? at h
  split at h
  · next w rest hs =>
    cases h
    refine ⟨rfl, ?_, rfl⟩
    unfold ownCode
    rw [hs]
    cases rest with
    | nil => rfl
    | cons v rest => rw [List.getLast?_cons_cons]; cases h : (v :: rest).getLast? <;> simp_all
  · cases h

end Frame

namespace Process.Linked

variable {p q : Process}

/-- What is linked stays so as long as compartments stay and frames, if they stay, are alike. -/
theorem transfer (l : p.Linked) (compartments : q.compartments = p.compartments)
    (frames : ∀ (n : Nat) (f' : Frame), q.calls.frames[n]? = some f' →
      ∃ f, p.calls.frames[n]? = some f ∧ f.Alike f')
    (invocations : ∀ (n : Nat) (f : Frame), q.calls.frames[n]? = some f →
      f.invocation < q.invocations.size) : q.Linked := by
  refine ⟨by rw [compartments]; exact l.loaded, fun n f' hf' => ?_, fun f' hf' => ?_,
    fun m n f' g' hmn hf' hg' => ?_, invocations⟩
  · obtain ⟨f, hf, alike⟩ := frames n f' hf'
    obtain ⟨c, hc, code⟩ := l.resolved n f hf
    refine ⟨c, ?_, alike.ownCode.trans code⟩
    rw [alike.closure, ← hc, resolve, resolve, compartment, compartment, compartments]
  · obtain ⟨f, hf, alike⟩ := frames 0 f' hf'
    rw [alike.invocation]
    exact l.first f hf
  · obtain ⟨f, hf, alike⟩ := frames m f' hf'
    obtain ⟨g, hg, alike'⟩ := frames n g' hg'
    rw [alike.invocation, alike'.invocation]
    exact l.rising m n f g hmn hf hg

/-- Where the frames and the number of invocations stay, so do the links. -/
theorem keep (l : p.Linked) (compartments : q.compartments = p.compartments)
    (frames : q.calls.frames = p.calls.frames)
    (invocations : p.invocations.size ≤ q.invocations.size) : q.Linked := by
  refine l.transfer compartments (fun n f hf => ⟨f, frames ▸ hf, .refl f⟩) fun n f hf => ?_
  exact Nat.lt_of_lt_of_le (l.below n f (frames ▸ hf)) invocations

theorem modify (l : p.Linked) (index : Nat) {g : Frame → Frame}
    (alike : ∀ f, p.calls.frames[index]? = some f → f.Alike (g f)) :
    { p with calls := p.calls.modify index g }.Linked := by
  have frames : ∀ (n : Nat) (f' : Frame), (p.calls.frames.modify index g)[n]? = some f' →
      ∃ f, p.calls.frames[n]? = some f ∧ f.Alike f' := by
    intro n f' hf'
    rcases getElem?_modify_cases hf' with ⟨rfl, f, hf, rfl⟩ | hf'
    · exact ⟨f, hf, alike f hf⟩
    · exact ⟨f', hf', .refl f'⟩
  refine l.transfer rfl frames fun n f' hf' => ?_
  obtain ⟨f, hf, same⟩ := frames n f' hf'
  rw [same.invocation]
  exact l.below n f hf

theorem setTop (l : p.Linked) {f f' : Frame} (top : p.calls.top? = some f) (alike : f.Alike f') :
    { p with calls := p.calls.modifyTop fun _ => f' }.Linked := by
  refine l.modify _ fun g hg => ?_
  rw [CallStack.frame_of_top top] at hg; cases hg
  exact alike

/-- A new frame on top may have any invocation above those of the frames that are there. -/
theorem add (l : p.Linked) {f : Frame}
    (resolved : ∃ c, p.resolve f.closure = .ok c ∧ f.ownCode = c.code)
    (bottom : p.calls.depth = 0 → f.invocation = 0)
    (above : ∀ (n : Nat) (g : Frame), p.calls.frames[n]? = some g → g.invocation < f.invocation)
    (there : f.invocation < p.invocations.size) : { p with calls := p.calls.add f }.Linked := by
  refine ⟨l.loaded, fun n g hg => ?_, fun g hg => ?_, fun m n g g' hmn hg hg' => ?_,
    fun n g hg => ?_⟩
  · obtain ⟨-, rfl⟩ | ⟨-, hg⟩ := CallStack.frame_add_cases hg
    · exact resolved
    · exact l.resolved n g hg
  · obtain ⟨h0, rfl⟩ | ⟨-, hg⟩ := CallStack.frame_add_cases hg
    · exact bottom h0.symm
    · exact l.first g hg
  · obtain ⟨hn, rfl⟩ | ⟨hn, hg'⟩ := CallStack.frame_add_cases hg'
    · obtain ⟨hm, -⟩ | ⟨-, hg⟩ := CallStack.frame_add_cases hg
      · omega
      · exact above m g hg
    · obtain ⟨hm, -⟩ | ⟨-, hg⟩ := CallStack.frame_add_cases hg
      · omega
      · exact l.rising m n g g' hmn hg hg'
  · obtain ⟨-, rfl⟩ | ⟨-, hg⟩ := CallStack.frame_add_cases hg
    · exact there
    · exact l.below n g hg

/-- No frame has its invocation above that of the frame on top. -/
theorem le_top (l : p.Linked) {f g : Frame} {n : Nat}
    (last : p.calls.frames[p.calls.depth - 1]? = some f) (hg : p.calls.frames[n]? = some g) :
    g.invocation ≤ f.invocation := by
  have hn := CallStack.lt_depth hg
  by_cases h : n = p.calls.depth - 1
  · rw [h, last] at hg; cases hg
    exact Nat.le_refl _
  · exact Nat.le_of_lt (l.rising n (p.calls.depth - 1) g f (by omega) hg last)

/-- The frames below the one on top have their invocations below its own. -/
theorem dropTop (l : p.Linked) {f : Frame} (top : p.calls.top? = some f) :
    { p with
      calls := p.calls.dropTop
      invocations := p.invocations.shrink f.invocation }.Linked := by
  refine l.transfer rfl (fun n g hg => ⟨g, getElem?_of_pop hg, .refl g⟩) fun n g hg => ?_
  have hlt : n < p.calls.frames.size - 1 := by
    have := (Array.getElem?_eq_some_iff.mp hg).1
    rwa [CallStack.dropTop, Array.size_pop] at this
  have hg := getElem?_of_pop hg
  have := l.rising n (p.calls.depth - 1) g f hlt hg (CallStack.frame_of_top top)
  have := l.below n g hg
  show g.invocation < (p.invocations.shrink f.invocation).size
  rw [Array.size_shrink]
  omega

end Process.Linked

theorem Edit.linked {p q : Process} (e : Edit p q) (l : p.Linked) : q.Linked := by
  cases e with
  | report | outcome | objects | object | allocate | value | attach | detach =>
    exact l.keep rfl rfl (Nat.le_refl _)
  | frame top continues _ => exact l.setTop top continues.alike
  | interrupt top _ => exact l.setTop top (Frame.alike_interrupt _ _)
  | resume top _ resumed => exact l.setTop top (Frame.alike_resume resumed)
  | outer => exact l.modify _ fun f _ => ⟨rfl, rfl, rfl⟩
  | stage => exact l.keep rfl rfl (by simp)
  | argue => exact l.keep rfl rfl (by simp)
  | @call f n i c parent top there place outward resolves room =>
    have last := CallStack.frame_of_top top
    refine l.add ⟨c, resolves, rfl⟩ (fun h => ?_) (fun m g hg => ?_)
      (Array.getElem?_eq_some_iff.mp there).1
    · rw [Array.getElem?_eq_none (by unfold CallStack.depth at *; omega)] at last
      cases last
    · exact Nat.lt_of_le_of_lt (l.le_top last hg) place.1
  | leave top => exact l.dropTop top
  | @back f top =>
    unfold CallStack.afterReturn
    split
    · exact (l.dropTop top).modify _ fun f _ => ⟨rfl, rfl, rfl⟩
    · exact l.dropTop top
  | collect => exact l.keep rfl rfl (Nat.le_refl _)

theorem Edits.linked {p q : Process} (es : Edits p q) (l : p.Linked) : q.Linked := by
  induction es with
  | refl => exact l
  | tail _ e ih => exact e.linked ih

/-! ## Requests -/

namespace Process

variable {p q : Process} {i : Instruction}

theorem Linked.new {options : ProcessOptions} {journal : Journal}
    (made : options.newProcess journal = .ok p) : p.Linked := by
  unfold ProcessOptions.newProcess at made
  split at made
  · cases made
  · cases made
    refine ⟨fun n c hc => ?_, fun n f hf => ?_, fun f hf => ?_, fun m n f g _ hf => ?_,
      fun n f hf => ?_⟩
    · simp at hc
    all_goals simp [CallStack.empty] at hf

theorem Linked.clearStacks (l : p.Linked) : p.clearStacks.Linked :=
  l.transfer rfl (fun n f hf => by simp [Process.clearStacks, CallStack.clear] at hf)
    fun n f hf => by simp [Process.clearStacks, CallStack.clear] at hf

theorem mem_of_entryPoint? {c : Compartment} {cl : Closure} (h : c.entryPoint? = some cl) :
    cl ∈ c.closures := by
  unfold Compartment.entryPoint? at h
  rcases Option.or_eq_some_iff.mp h with h | ⟨-, h⟩ <;> exact Array.mem_of_find?_eq_some h

/-- A start changes nothing, or leaves no frame but that of the entry point, if there is room. -/
theorem start_cases (p : Process) : p.start.2 = p ∨
    p.start.2.compartments = p.compartments ∧ p.start.2.calls.maxDepth = p.calls.maxDepth ∧
      (p.start.2.calls.frames = #[] ∨
        ∃ m entry, p.compartments[0]? = some m ∧ m.entryPoint? = some entry ∧
          0 < p.calls.maxDepth ∧
          p.start.2.calls.frames = #[Frame.new ⟨0, entry.id⟩ entry.code 0 none none]) := by
  unfold Process.start
  cases hentry : p.compartments[0]?.bind Compartment.entryPoint? with
  | none => exact .inl rfl
  | some entry =>
    right
    obtain ⟨m, there, enters⟩ := Option.bind_eq_some_iff.mp hentry
    dsimp only
    unfold CallStack.push
    split
    · next calls pushed =>
      split at pushed
      · cases pushed
      · next room =>
        cases pushed
        have free : 0 < p.calls.maxDepth := by
          simpa [CallStack.isFull, CallStack.depth, clearStacks, CallStack.clear, Process.note,
            Nat.pos_iff_ne_zero] using room
        exact ⟨rfl, rfl, .inr ⟨m, entry, there, enters, free, rfl⟩⟩
    · exact ⟨rfl, rfl, .inl rfl⟩

/-- The first frame belongs to the entry point and has the first invocation. -/
theorem Linked.start (l : p.Linked) : p.start.2.Linked := by
  unfold Process.start
  cases hentry : p.compartments[0]?.bind Compartment.entryPoint? with
  | none => exact l
  | some entry =>
    obtain ⟨c, hc, he⟩ := Option.bind_eq_some_iff.mp hentry
    have resolves : p.resolve ⟨0, entry.id⟩ = .ok entry :=
      resolve_eq_ok_iff.mpr ⟨c, hc, (l.loaded 0 c hc).found entry (mem_of_entryPoint? he)⟩
    have cleared : ((p.note (.entered entry.name)).clearStacks).Linked :=
      Linked.clearStacks (l.keep (q := p.note (.entered entry.name)) rfl rfl (Nat.le_refl _))
    have staged : { (p.note (.entered entry.name)).clearStacks with
        invocations := #[Invocation.new ⟨0, entry.id⟩] }.Linked :=
      cleared.keep rfl rfl (Nat.zero_le _)
    simp only [CallStack.push]
    split
    · next calls hcalls =>
      split at hcalls
      · cases hcalls
      · cases hcalls
        exact staged.add ⟨entry, resolves, rfl⟩ (fun _ => rfl)
          (fun n f hf => by simp [Process.clearStacks, CallStack.clear] at hf) Nat.one_pos
    · exact staged

theorem linked_reset (p : Process) : p.reset.Linked := by
  refine ⟨fun n c hc => ?_, fun n f hf => ?_, fun f hf => ?_, fun m n f g _ hf => ?_,
    fun n f hf => ?_⟩
  · simp [Process.reset, Process.note, Process.clearStacks] at hc
  all_goals simp [Process.reset, Process.note, Process.clearStacks, CallStack.clear] at hf

/-- A compartment more changes no closure that a frame belongs to. -/
theorem Linked.load (l : p.Linked) {c : Compartment} (sound : c.Sound) : (p.load c).2.Linked := by
  refine ⟨fun n c' hc' => ?_, fun n f hf => ?_, l.first, l.rising, l.below⟩
  · simp only [Process.load, Array.getElem?_push] at hc'
    split at hc'
    · cases hc'; exact sound
    · exact l.loaded n c' hc'
  · obtain ⟨cl, hcl, code⟩ := l.resolved n f hf
    obtain ⟨c', there, found⟩ := resolve_eq_ok_iff.mp hcl
    have hlt := (Array.getElem?_eq_some_iff.mp there).1
    refine ⟨cl, resolve_eq_ok_iff.mpr ⟨c', ?_, found⟩, code⟩
    show (p.compartments.push c)[f.closure.compartment.toNat]? = some c'
    rw [Array.getElem?_push, if_neg (Nat.ne_of_lt hlt)]
    exact there

theorem Linked.after (l : p.Linked) (s : p.Sound) (r : Request)
    (allowed : r.Allowed Compartment.Loaded) : (p.after r).Linked := by
  cases r with
  | load c => exact l.load (Compartment.Loaded.sound allowed)
  | start => exact l.start
  | run turns => exact (s.steps_run turns).edits.linked l
  | execute i => exact (s.steps_execute i).edits.linked l
  | deliver => exact s.steps_deliver.edits.linked l
  | handle sig => exact (s.steps_handle sig).edits.linked l
  | raise | setRule | setVector | redirect | collect => exact l.keep rfl rfl (Nat.le_refl _)
  | reset => exact linked_reset p
  | abandon limit =>
    exact linked_reset { p with diagnostics := p.diagnostics ++ (p.traceback limit).text }

theorem Reachable.linked (r : p.Reachable Compartment.Loaded) : p.Linked := by
  induction r with
  | new made => exact .new made
  | after before r allowed ih => exact ih.after before.sound r allowed

theorem Executing.linked (s : p.Sound) (l : p.Linked) (x : p.Executing q i) : q.Linked :=
  (x.steps s).edits.linked l

end Process

end ObjectVM
