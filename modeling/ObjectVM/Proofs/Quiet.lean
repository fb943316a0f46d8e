import ObjectVM.Proofs.Unwinding

/-!
# What stays with the frames

Most of what a machine does concerns the running frame alone: the frames below it, the invocations
and the programs stay (`Process.Quiet`), and the running frame stays the activation that it is
(`Frame.GoesOn`). Where frames leave, `Process.Drops` says the same of those that remain. Here is a
law for each of the steps that instructions are made of, and `IsQuiet.bind` puts them together.
-/
namespace ObjectVM

/-! ## Frames that go on -/

/-- The counters of a frame lie in their codes. It runs one code and has set the others aside. -/
structure Frame.Bounded (f : Frame) : Prop where
  pc : f.pc ≤ f.code.size
  windows : ∀ w ∈ f.suspended, w.pc ≤ w.code.size

/-- A frame before and after a step that leaves it there: it is the same activation, perhaps in
other code, if a signal vector begins or ends. -/
structure Frame.GoesOn (f f' : Frame) : Prop extends Alike f f' where
  returnAddress : f'.returnAddress = f.returnAddress
  parent : f'.parent = f.parent
  bounded : f.Bounded → f'.Bounded

namespace Frame

variable {f f' f'' : Frame}

theorem GoesOn.refl (f : Frame) : GoesOn f f := ⟨.refl f, rfl, rfl, id⟩

theorem GoesOn.trans (a : f.GoesOn f') (b : f'.GoesOn f'') : f.GoesOn f'' :=
  ⟨⟨b.closure.trans a.closure, b.ownCode.trans a.ownCode, b.invocation.trans a.invocation⟩,
    b.returnAddress.trans a.returnAddress, b.parent.trans a.parent,
    fun h => b.bounded (a.bounded h)⟩

theorem Continues.goesOn (c : f.Continues f') : f.GoesOn f' := by
  refine ⟨c.alike, c.returnAddress, c.parent, fun h => ⟨?_, ?_⟩⟩
  · rw [c.code]
    exact c.pc h.pc
  · rw [c.suspended]
    exact h.windows

theorem goesOn_interrupt (f : Frame) (vector : Code) : f.GoesOn (f.interrupt vector) := by
  refine ⟨alike_interrupt f vector, rfl, rfl, fun h => ⟨Nat.zero_le _, fun w hw => ?_⟩⟩
  rcases List.mem_cons.mp hw with rfl | hw
  · exact h.pc
  · exact h.windows w hw

theorem goesOn_resume (h : f.resume? = some f') : f.GoesOn f' := by
  have alike := alike_resume h
  unfold resume? at h
  split at h
  · next w rest hs =>
    cases h
    refine ⟨alike, rfl, rfl, fun h => ⟨h.windows w ?_, fun v hv => h.windows v ?_⟩⟩
    all_goals rw [hs]
    · exact List.mem_cons_self
    · exact List.mem_cons_of_mem _ hv
  · cases h

end Frame

/-! ## Processes that keep their frames -/

/-- Whether a run that ends so has left no frame. -/
def Outcome.isFinal : Outcome → Bool
  | .completed | .uncaught _ => true
  | .exited _ | .terminated _ => false

/-- `q` is `p` without its frames from the index `m` up. They have taken their invocations and all
above those with them, and the frame that is now on top goes on. An exception that ends the run has
left no frame. -/
structure Process.Drops (p : Process) (m : Nat) (q : Process) : Prop where
  options : q.options = p.options
  compartments : q.compartments = p.compartments
  maxDepth : q.calls.maxDepth = p.calls.maxDepth
  depth : q.calls.depth = m
  within : m ≤ p.calls.depth
  below : ∀ n, n + 1 < m → q.calls.frames[n]? = p.calls.frames[n]?
  top : ∀ n f, n + 1 = m → p.calls.frames[n]? = some f →
    ∃ f', q.calls.frames[n]? = some f' ∧ f.GoesOn f'
  kept : ∀ n, (∀ l g, m ≤ l → p.calls.frames[l]? = some g → n < g.invocation) →
    q.invocations[n]? = p.invocations[n]?
  cut : ∀ n l g, m ≤ l → p.calls.frames[l]? = some g → g.invocation ≤ n → q.invocations[n]? = none
  halt : ∀ o, o.isFinal = true → q.halt = some o → p.halt = some o ∨ m = 0

/-- No frame comes or goes, and only the running one may have changed. -/
abbrev Process.Quiet (p q : Process) : Prop := p.Drops p.calls.depth q

theorem CallStack.depth_pos {s : CallStack} {f : Frame} (top : s.top? = some f) : 0 < s.depth := by
  have := lt_depth (frame_of_top top)
  omega

namespace Process

variable {p q r : Process} {m n : Nat}

theorem no_frame_above {l : Nat} {g : Frame} (above : p.calls.depth ≤ l) :
    p.calls.frames[l]? ≠ some g :=
  fun there => absurd (CallStack.lt_depth there) (Nat.not_lt.mpr above)

/-- What keeps the frames and the invocations is quiet. -/
theorem quiet_of_same (options : q.options = p.options)
    (compartments : q.compartments = p.compartments) (calls : q.calls = p.calls)
    (invocations : q.invocations = p.invocations)
    (halt : ∀ o, o.isFinal = true → q.halt = some o → p.halt = some o) : p.Quiet q := by
  refine ⟨options, compartments, by rw [calls], by rw [calls], Nat.le_refl _,
    fun n _ => by rw [calls], fun n f _ hf => ⟨f, by rw [calls]; exact hf, .refl f⟩,
    fun n _ => by rw [invocations], fun n l g hl hg => absurd hg (no_frame_above hl),
    fun o final ho => .inl (halt o final ho)⟩

/-- What keeps the outcome as well is quiet. -/
theorem quiet_elsewhere (options : q.options = p.options)
    (compartments : q.compartments = p.compartments) (calls : q.calls = p.calls)
    (invocations : q.invocations = p.invocations) (halt : q.halt = p.halt) : p.Quiet q :=
  quiet_of_same options compartments calls invocations fun _ _ ho => halt ▸ ho

theorem Quiet.refl (p : Process) : p.Quiet p := quiet_elsewhere rfl rfl rfl rfl rfl

/-- A frame that stays is still the activation that it was. -/
theorem Drops.frame {f' : Frame} (d : p.Drops m q) (there : q.calls.frames[n]? = some f') :
    n < m ∧ ∃ f, p.calls.frames[n]? = some f ∧ f.GoesOn f' := by
  have lt : n < m := d.depth ▸ CallStack.lt_depth there
  refine ⟨lt, ?_⟩
  by_cases last : n + 1 = m
  · obtain ⟨f, hf⟩ := CallStack.exists_frame (Nat.lt_of_lt_of_le lt d.within)
    obtain ⟨g, hg, on⟩ := d.top n f last hf
    rw [there] at hg; cases hg
    exact ⟨f, hf, on⟩
  · exact ⟨f', (d.below n (by omega)).symm.trans there, .refl f'⟩

theorem Drops.frame_of {f : Frame} (d : p.Drops m q) (lt : n < m)
    (there : p.calls.frames[n]? = some f) : ∃ f', q.calls.frames[n]? = some f' ∧ f.GoesOn f' := by
  by_cases last : n + 1 = m
  · exact d.top n f last there
  · exact ⟨f, (d.below n (by omega)).trans there, .refl f⟩

/-- What has dropped some frames may drop more of them. -/
theorem Drops.trans (a : p.Drops m q) (b : q.Drops n r) : p.Drops n r := by
  have within : n ≤ m := a.depth ▸ b.within
  refine ⟨b.options.trans a.options, b.compartments.trans a.compartments,
    b.maxDepth.trans a.maxDepth, b.depth, Nat.le_trans within a.within, fun k hk => ?_,
    fun k f hk hf => ?_, fun k above => ?_, fun k l g hl hg low => ?_, fun o final ho => ?_⟩
  · exact (b.below k hk).trans (a.below k (by omega))
  · obtain ⟨f', hf', on⟩ := a.frame_of (by omega) hf
    obtain ⟨f'', hf'', on'⟩ := b.top k f' hk hf'
    exact ⟨f'', hf'', on.trans on'⟩
  · refine (b.kept k fun l g' hl hg' => ?_).trans (a.kept k fun l g hl hg => ?_)
    · obtain ⟨-, g, hg, on⟩ := a.frame hg'
      rw [on.invocation]
      exact above l g hl hg
    · exact above l g (Nat.le_trans within hl) hg
  · by_cases gone : m ≤ l
    -- what is cut once does not come back: the rest keeps what is not there, or cuts it again
    · have none := a.cut k l g gone hg low
      by_cases kept : ∀ l g, n ≤ l → q.calls.frames[l]? = some g → k < g.invocation
      · exact (b.kept k kept).trans none
      · push Not at kept
        obtain ⟨l', g', hl', hg', low'⟩ := kept
        exact b.cut k l' g' hl' hg' low'
    · obtain ⟨g', hg', on⟩ := a.frame_of (by omega) hg
      exact b.cut k l g' hl hg' (on.invocation ▸ low)
  · rcases b.halt o final ho with ho | none
    · exact (a.halt o final ho).imp id fun none => by omega
    · exact .inr none

theorem Quiet.drops (a : p.Quiet q) (b : q.Drops m r) : p.Drops m r := Drops.trans a b

theorem Drops.quiet (a : p.Drops m q) (b : q.Quiet r) : p.Drops m r := by
  have b : q.Drops m r := a.depth ▸ b
  exact a.trans b

theorem Quiet.trans (a : p.Quiet q) (b : q.Quiet r) : p.Quiet r := Drops.quiet a b

theorem Quiet.invocations (a : p.Quiet q) : q.invocations = p.invocations :=
  Array.ext_getElem? fun n => a.kept n fun _ _ hl hg => absurd hg (no_frame_above hl)

/-- The running frame may be exchanged for one in which it goes on. -/
theorem quiet_setTop {f f' : Frame} (top : p.calls.top? = some f) (on : f.GoesOn f') :
    p.Quiet { p with calls := p.calls.modifyTop fun _ => f' } := by
  have frames : ∀ n, (p.calls.modifyTop fun _ => f').frames[n]? =
      if p.calls.depth - 1 = n then p.calls.frames[n]?.map fun _ => f' else p.calls.frames[n]? :=
    fun n => Array.getElem?_modify
  refine ⟨rfl, rfl, rfl, Array.size_modify, Nat.le_refl _, fun n hn => ?_, fun n g hn hg => ?_,
    fun n _ => rfl, fun n l g hl hg => absurd hg (no_frame_above hl), fun o _ ho => .inl ho⟩
  · exact (frames n).trans (if_neg (by omega))
  · have last : p.calls.depth - 1 = n := by omega
    have same := CallStack.frame_of_top top
    rw [last, hg] at same; cases same
    refine ⟨f', (frames n).trans ?_, on⟩
    rw [if_pos last, hg]
    rfl

/-- The frame on top leaves. -/
theorem drops_top {f : Frame} (top : p.calls.top? = some f) : p.Drops (p.calls.depth - 1)
    { p with calls := p.calls.dropTop, invocations := p.invocations.shrink f.invocation } := by
  have last := CallStack.frame_of_top top
  have some := CallStack.depth_pos top
  have only : ∀ {l : Nat} {g : Frame}, p.calls.depth - 1 ≤ l → p.calls.frames[l]? = .some g →
      g = f := fun {l g} hl hg => by
    have := CallStack.lt_depth hg
    rw [show l = p.calls.depth - 1 by omega, last] at hg
    cases hg
    rfl
  refine ⟨rfl, rfl, rfl, Array.size_pop, Nat.sub_le _ _, fun n hn => ?_, fun n g hn hg => ?_,
    fun n above => ?_, fun n l g hl hg low => ?_, fun o _ ho => .inl ho⟩
  · exact Array.getElem?_pop.trans (if_pos (by unfold CallStack.depth at hn; omega))
  · exact ⟨g, Array.getElem?_pop.trans
      ((if_pos (by unfold CallStack.depth at hn some; omega)).trans hg), .refl g⟩
  · exact (getElem?_shrink _ _ _).trans (if_pos (above _ f (Nat.le_refl _) last))
  · exact (getElem?_shrink _ _ _).trans (if_neg (Nat.not_lt.mpr (only hl hg ▸ low)))

end Process

/-! ## Steps that are quiet -/

namespace Exec

/-- Whether it succeeds or fails, it keeps the frames. -/
def IsQuiet {α : Type} (m : Exec α) : Prop := ∀ p : Process, p.Quiet (left (m p))

variable {p : Process} {α β : Type}

/-- Whether the work has succeeded. -/
def succeeded : EStateM.Result Fault Process α → Bool
  | .ok .. => true
  | .error .. => false

theorem eq_ok_left {r : EStateM.Result Fault Process Unit} (h : succeeded r = true) :
    r = .ok () (left r) := by
  cases r with
  | ok _ q => rfl
  | error fault q => cases h

/-- The fault that a result is, if it is one. -/
def fault? : EStateM.Result Fault Process α → Option Fault
  | .ok .. => none
  | .error fault _ => some fault

theorem eq_error_left {r : EStateM.Result Fault Process α} {fault : Fault}
    (failed : fault? r = some fault) : r = .error fault (left r) := by
  cases r with
  | ok a q => cases failed
  | error fault' q =>
    cases failed
    rfl

theorem left_bind {m : Exec α} {k : α → Exec β} : left ((m >>= k) p) =
    match m p with
    | .ok a q => left (k a q)
    | .error _ q => q := by
  show left (EStateM.bind m k p) = _
  unfold EStateM.bind
  cases m p <;> rfl

/-- A quiet step leaves what comes after it to be quiet. -/
theorem quiet_bind {m : Exec α} {k : α → Exec β} (hm : p.Quiet (left (m p)))
    (hk : ∀ a q, m p = .ok a q → q.Quiet (left (k a q))) : p.Quiet (left ((m >>= k) p)) := by
  rw [left_bind]
  cases h : m p with
  | ok a q =>
    rw [h] at hm
    exact hm.trans (hk a q h)
  | error fault q =>
    rw [h] at hm
    exact hm

namespace IsQuiet

theorem bind {m : Exec α} {k : α → Exec β} (hm : IsQuiet m) (hk : ∀ a, IsQuiet (k a)) :
    IsQuiet (m >>= k) := fun p => quiet_bind (hm p) fun a q _ => hk a q

theorem pure (a : α) : IsQuiet (pure a : Exec α) := Process.Quiet.refl

theorem throw (fault : Fault) : IsQuiet (throw fault : Exec α) := Process.Quiet.refl

theorem get_bind {k : Process → Exec α} (hk : ∀ p : Process, p.Quiet (left (k p p))) :
    IsQuiet (get >>= k) := hk

theorem get : IsQuiet (get : Exec Process) := Process.Quiet.refl

end IsQuiet

theorem quiet_look (f : Process → Except Fault α) : IsQuiet (look f) := by
  refine .get_bind fun p => ?_
  cases f p <;> exact .refl p

theorem quiet_lift (r : Except Fault α) : IsQuiet (lift r) := by
  cases r <;> exact Process.Quiet.refl

theorem quiet_liftValue (r : Except ValueError α) : IsQuiet (liftValue r) := by
  cases r <;> exact Process.Quiet.refl

theorem quiet_note (e : Event) : IsQuiet (note e) :=
  fun _ => Process.quiet_elsewhere rfl rfl rfl rfl rfl

/-! ### Frames -/

theorem topFrame_none (none : p.calls.top? = none) : topFrame p = .error .frameNotFound p := by
  unfold topFrame
  rw [get_bind, none]
  rfl

/-- After a look at the running frame the rest may rely on it. -/
theorem quiet_topFrame_bind {k : Frame → Exec α}
    (hk : ∀ (p : Process) (f : Frame), p.calls.top? = some f → p.Quiet (left (k f p))) :
    IsQuiet (topFrame >>= k) := by
  intro p
  rw [left_bind]
  cases top : p.calls.top? with
  | some f =>
    rw [topFrame_eq top]
    exact hk p f top
  | none =>
    rw [topFrame_none top]
    exact .refl p

theorem quiet_topFrame : IsQuiet topFrame := by
  intro p
  cases top : p.calls.top? with
  | some f => rw [topFrame_eq top]; exact .refl p
  | none => rw [topFrame_none top]; exact .refl p

theorem quiet_changeFrame {g : Frame → Frame} (on : ∀ f : Frame, f.GoesOn (g f)) :
    IsQuiet (topFrame >>= fun f => setTopFrame (g f)) :=
  quiet_topFrame_bind fun _ f top => Process.quiet_setTop top (on f)

theorem quiet_updateFrame {g : Frame → Except Fault Frame}
    (on : ∀ f f', g f = .ok f' → f.GoesOn f') : IsQuiet (updateFrame g) := by
  refine quiet_topFrame_bind fun p f top => ?_
  rw [left_bind]
  cases changed : g f with
  | ok f' => exact Process.quiet_setTop top (on f f' changed)
  | error fault => exact .refl p

/-- Any change of the running frame that is a move under some heap lets it go on. -/
theorem quiet_move {h : Heap} {g : Frame → Except Fault Frame} (moves : Moves h g) :
    IsQuiet (updateFrame g) := quiet_updateFrame fun f f' e => (moves.continues f f' e).goesOn

theorem goesOn_values (f : Frame) (vs : List Value) : f.GoesOn { f with values := vs } :=
  (continues_values f vs).goesOn

theorem goesOn_variables (f : Frame) (visible hidden : KeyMap ObjectId) :
    f.GoesOn { f with visible, hidden } := (continues_variables f visible hidden).goesOn

theorem goesOn_setException (f : Frame) (e : Option ObjectId) : f.GoesOn (f.setException e) :=
  ⟨⟨rfl, rfl, rfl⟩, rfl, rfl, fun h => ⟨h.pc, h.windows⟩⟩

/-! ### Objects and handles -/

theorem quiet_pushObject (id : ObjectId) : IsQuiet (pushObject id) :=
  fun _ => Process.quiet_elsewhere rfl rfl rfl rfl rfl

theorem quiet_popObject : IsQuiet popObject := by
  refine .get_bind fun p => ?_
  cases p.objects with
  | nil => exact .refl p
  | cons => exact Process.quiet_elsewhere rfl rfl rfl rfl rfl

theorem quiet_topObject : IsQuiet topObject := by
  refine .get_bind fun p => ?_
  cases p.objects <;> exact .refl p

theorem quiet_object (id : ObjectId) : IsQuiet (object id) := quiet_look _

theorem quiet_putObject (id : ObjectId) (o : Object) : IsQuiet (putObject id o) :=
  fun _ => Process.quiet_elsewhere rfl rfl rfl rfl rfl

theorem quiet_mutableObject (id : ObjectId) : IsQuiet (mutableObject id) := by
  refine (quiet_object id).bind fun o => ?_
  split
  · exact .throw _
  · exact .pure _

theorem quiet_newObject : IsQuiet newObject := by
  refine .get_bind fun p => ?_
  split
  · exact .refl p
  · exact Process.quiet_elsewhere rfl rfl rfl rfl rfl

theorem quiet_checkDeletable (id : ObjectId) : IsQuiet (checkDeletable id) := by
  refine (quiet_object id).bind fun o => ?_
  split
  · exact .throw _
  · exact .pure _

theorem quiet_setValue (id : ObjectId) (v : Value) : IsQuiet (setValue id v) := by
  refine (quiet_object id).bind fun o => ?_
  cases o.handle with
  | some key =>
    refine .get_bind fun p => ?_
    split
    · exact Process.quiet_elsewhere rfl rfl rfl rfl rfl
    · exact .refl p
  | none =>
    refine .get_bind fun p => ?_
    split
    · exact .refl p
    · exact Process.quiet_elsewhere rfl rfl rfl rfl rfl

theorem quiet_newObjectWith (v : Value) : IsQuiet (newObjectWith v) :=
  quiet_newObject.bind fun id => (quiet_setValue id v).bind fun _ => .pure id

/-! ### Values -/

theorem quiet_pushValue (v : Value) : IsQuiet (pushValue v) :=
  quiet_changeFrame fun f => goesOn_values f _

theorem quiet_popValue : IsQuiet popValue := by
  refine quiet_topFrame_bind fun p f top => ?_
  unfold Frame.popValue
  cases f.values with
  | nil => exact .refl p
  | cons v rest => exact Process.quiet_setTop top (goesOn_values f rest)

theorem quiet_topValue : IsQuiet topValue := quiet_topFrame.bind fun _ => quiet_lift _

theorem quiet_setTopValue (v : Value) : IsQuiet (setTopValue v) := by
  refine quiet_updateFrame fun f f' e => ?_
  unfold Frame.setTopValue at e
  split at e
  · cases e
    exact goesOn_values f _
  · cases e

theorem quiet_popOperands (n : Nat) : IsQuiet (popOperands n) := by
  induction n with
  | zero => exact .pure _
  | succ n ih => exact quiet_popValue.bind fun v => ih.bind fun ws => .pure _

/-! ### Invocations -/

theorem quiet_ownInvocation : IsQuiet ownInvocation := by
  refine quiet_topFrame.bind fun f => .get_bind fun p => ?_
  cases p.invocations[f.invocation]? <;> exact .refl p

/-! ## Instructions that keep the frames -/

theorem quiet_swapObjects : IsQuiet swapObjects := by
  refine .get_bind fun p => ?_
  rcases p.objects with _ | ⟨b, _ | ⟨a, rest⟩⟩
  · exact .refl p
  · exact .refl p
  · exact Process.quiet_elsewhere rfl rfl rfl rfl rfl

theorem quiet_compareObjects (same : Bool) : IsQuiet (compareObjects same) :=
  quiet_popObject.bind fun _ => quiet_popObject.bind fun _ => quiet_pushValue _

theorem quiet_setFlag (flag : ObjectFlags) (on : Bool) : IsQuiet (setFlag flag on) :=
  quiet_topObject.bind fun id => (quiet_object id).bind fun _ => quiet_putObject id _

theorem quiet_runObject (op : ObjectOp) (i : Instruction) : IsQuiet (runObject op i) := by
  cases op with
  | new => exact quiet_newObject.bind quiet_pushObject
  | pop => exact quiet_popObject.bind fun _ => .pure _
  | swap => exact quiet_swapObjects
  | same | different => exact quiet_compareObjects _
  | setClosure =>
    exact quiet_topFrame.bind fun f => quiet_topObject.bind fun id =>
      (quiet_mutableObject id).bind fun o => quiet_putObject id _
  | setPinned | setIndelible | setUncallable | setImmutable => exact quiet_setFlag _ _

theorem quiet_loadVisible (key : UInt64) : IsQuiet (loadVisible key) :=
  (quiet_look _).bind quiet_pushObject

theorem quiet_lookVariable (key : UInt64) (find : Frame → Except Fault ObjectId) :
    IsQuiet (lookVariable key find) := quiet_topFrame.bind fun _ => quiet_look _

theorem quiet_runVariable {op : VariableOp} (inner : op ≠ .storeOuter) (i : Instruction) :
    IsQuiet (runVariable op i) := by
  have change : ∀ g : Frame → Frame, (∀ f, ∃ visible hidden, g f = { f with visible, hidden }) →
      IsQuiet (topFrame >>= fun f => setTopFrame (g f)) := fun g hg =>
    quiet_changeFrame fun f => by
      obtain ⟨visible, hidden, same⟩ := hg f
      rw [same]
      exact goesOn_variables f visible hidden
  cases op with
  | load => exact quiet_loadVisible _
  | store => exact quiet_popObject.bind fun id => change _ fun f => ⟨_, _, rfl⟩
  | storeOuter => exact absurd rfl inner
  | loadHidden => exact (quiet_lookVariable _ _).bind quiet_pushObject
  | storeHidden => exact quiet_popObject.bind fun id => change _ fun f => ⟨_, _, rfl⟩
  | delete | deleteHidden =>
    exact (quiet_lookVariable _ _).bind fun id => (quiet_checkDeletable id).bind fun _ =>
      change _ fun f => ⟨_, _, rfl⟩
  | loadEither => exact quiet_popValue.bind fun _ => quiet_loadVisible _

theorem quiet_readName (source : NameSource) (i : Instruction) : IsQuiet (readName source i) := by
  cases source with
  | literal => exact quiet_look _
  | computed => exact quiet_popValue.bind fun _ => quiet_liftValue _

theorem quiet_findAttribute (o : Object) (name : String) : IsQuiet (findAttribute o name) := by
  unfold findAttribute
  split
  · exact .pure _
  · exact .throw _

theorem quiet_runAttribute (op : AttributeOp) (name : String) : IsQuiet (runAttribute op name) := by
  cases op with
  | get =>
    exact quiet_popObject.bind fun id => (quiet_object id).bind fun o =>
      (quiet_findAttribute o name).bind quiet_pushObject
  | set =>
    exact quiet_popObject.bind fun _ => quiet_topObject.bind fun id =>
      (quiet_mutableObject id).bind fun _ => quiet_putObject id _
  | delete =>
    exact quiet_topObject.bind fun id => (quiet_mutableObject id).bind fun o =>
      (quiet_findAttribute o name).bind fun a => (quiet_checkDeletable a).bind fun _ =>
        quiet_putObject id _
  | has =>
    exact quiet_topObject.bind fun id => (quiet_object id).bind fun _ => quiet_pushValue _

theorem quiet_mapM {α β : Type} {f : α → Exec β} (each : ∀ a, IsQuiet (f a)) (l : List α) :
    IsQuiet (l.mapM f) := by
  induction l with
  | nil => rw [List.mapM_nil]; exact .pure _
  | cons a l ih =>
    rw [List.mapM_cons]
    exact (each a).bind fun _ => ih.bind fun _ => .pure _

theorem quiet_setAttributes : IsQuiet setAttributes :=
  quiet_topValue.bind fun _ => (quiet_liftValue _).bind fun _ =>
    (quiet_mapM (fun _ => (quiet_look _).bind fun _ => .pure _) _).bind fun _ =>
      quiet_topObject.bind fun id => (quiet_mutableObject id).bind fun _ => quiet_putObject id _

theorem quiet_assign (id : ObjectId) (v : Value) : IsQuiet (assign id v) :=
  (quiet_mutableObject id).bind fun _ => quiet_setValue id v

theorem quiet_copyValue (f : Value → Value) : IsQuiet (copyValue f) :=
  quiet_popObject.bind fun _ => quiet_topObject.bind fun target => (quiet_look _).bind fun v =>
    quiet_assign target (f v)

theorem quiet_clearHandle : IsQuiet clearHandle := by
  refine quiet_topObject.bind fun id => (quiet_mutableObject id).bind fun o => ?_
  cases o.handle with
  | none => exact .pure _
  | some key =>
    refine (quiet_putObject id _).bind fun _ => .get_bind fun p => ?_
    cases p.pool.erase key with
    | ok erased => exact Process.quiet_elsewhere rfl rfl rfl rfl rfl
    | error e => exact .refl p

theorem quiet_objectTruthy : IsQuiet objectTruthy := by
  refine quiet_topObject.bind fun id => (quiet_object id).bind fun o => ?_
  cases o.handle with
  | some key => exact (quiet_look _).bind fun _ => quiet_pushValue _
  | none => exact quiet_pushValue _

theorem quiet_runHandle (op : HandleOp) (i : Instruction) : IsQuiet (runHandle op i) := by
  cases op with
  | get => exact quiet_topObject.bind fun _ => (quiet_look _).bind quiet_pushValue
  | set => exact quiet_popValue.bind fun v => quiet_topObject.bind fun id => quiet_assign id v
  | getOf => exact (quiet_look _).bind fun _ => (quiet_look _).bind quiet_pushValue
  | setOf => exact quiet_popValue.bind fun v => (quiet_look _).bind fun id => quiet_assign id v
  | clear => exact quiet_clearHandle
  | copy | copyText => exact quiet_copyValue _
  | truthy => exact quiet_objectTruthy

theorem quiet_perform (a : Action) : IsQuiet (perform a) := by
  cases a with
  | compute n f =>
    exact (quiet_popOperands n).bind fun _ => quiet_topValue.bind fun _ =>
      (quiet_liftValue _).bind quiet_setTopValue
  | read n f =>
    exact (quiet_popOperands n).bind fun _ => quiet_topValue.bind fun _ =>
      (quiet_liftValue _).bind quiet_pushObject
  | store n f =>
    exact quiet_popObject.bind fun _ => (quiet_popOperands n).bind fun _ =>
      quiet_topValue.bind fun _ => (quiet_liftValue _).bind quiet_setTopValue
  | exchange f =>
    refine quiet_topFrame.bind fun _ => (quiet_lift _).bind fun _ =>
      (quiet_liftValue _).bind fun ab => quiet_updateFrame fun f f' e => ?_
    unfold Frame.setTopTwoValues at e
    split at e
    · cases e
      exact goesOn_values f _
    · cases e

theorem quiet_runStack (op : StackOp) : IsQuiet (runStack op) := by
  cases op with
  | pop => exact quiet_popValue.bind fun _ => .pure _
  | dup => exact quiet_topValue.bind quiet_pushValue
  | swap => exact quiet_move (moves_swapValues (.empty 0))

theorem quiet_floatLiteral (key : UInt64) : IsQuiet (floatLiteral key) :=
  (quiet_look _).bind fun _ => .pure _

theorem quiet_runConstant (op : ConstantOp) (i : Instruction) : IsQuiet (runConstant op i) := by
  cases op with
  | int | bool | array | map => exact quiet_pushValue _
  | dec1 | dec2 => exact (quiet_floatLiteral _).bind fun _ => quiet_pushValue _
  | text => exact (quiet_look _).bind fun _ => quiet_pushValue _

theorem quiet_write (s : String) : IsQuiet (write s) := by
  refine .get_bind fun p => ?_
  cases p.output.write s with
  | ok written => exact Process.quiet_elsewhere rfl rfl rfl rfl rfl
  | error reason => exact .refl p

theorem quiet_collect (p : Process) : p.Quiet p.collect.2 :=
  Process.quiet_elsewhere rfl rfl rfl rfl rfl

theorem quiet_applyRules (p : Process) : p.Quiet p.applyRules := by
  unfold Process.applyRules
  split
  · exact quiet_collect p
  · exact .refl p

theorem quiet_runRuntime (op : RuntimeOp) (i : Instruction) : IsQuiet (runRuntime op i) := by
  cases op with
  | collect => exact quiet_collect
  | debug => exact fun p => Process.quiet_elsewhere rfl rfl rfl rfl rfl
  | print => exact quiet_popObject.bind fun _ => IsQuiet.get.bind fun _ => quiet_write _

theorem quiet_jump (i : Instruction) : IsQuiet (jump i) :=
  quiet_move (moves_jump (.empty 0) i.offset)

end Exec

end ObjectVM
