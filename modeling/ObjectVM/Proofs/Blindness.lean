import ObjectVM.Proofs.Shifts

/-!
# Instructions that do not see where they stand

Most instructions neither look at nor change the place where their frame stands: its code, its
counter and the windows set aside. Nor do they look at signals, output and reports. So in a process
that differs in these things only they do the same (`Exec.IsBlind`): they give the same result, and
the processes that are left differ in the same things only (`Process.bare`). Signals, output and
places are left as they are (`Process.Rests`).

`Exec.blind_execute` says so of every instruction that does not move control, printing apart, and
`Exec.IsBlind.bind` puts the laws for the steps together.
-/
namespace ObjectVM

/-- Whether an opcode is blind: it does not move control, does not print, and passes over no
instructions. -/
def Op.isBlind : Op → Bool
  | .control .stage | .control .loadException | .control .clearException => true
  | .control _ | .argument .takeNamed | .runtime .print => false
  | _ => true

/-! ## What is not seen -/

/-- Where a frame stands. -/
structure Site where
  code : Code
  pc : Nat
  suspended : List Window

namespace Frame

/-- Where the frame stands. -/
def site (f : Frame) : Site := ⟨f.code, f.pc, f.suspended⟩

/-- The frame without its place. -/
def bare (f : Frame) : Frame := { f with code := #[], pc := 0, suspended := [] }

@[simp] theorem bare_bare (f : Frame) : f.bare.bare = f.bare := rfl

@[simp] theorem visible_bare (f : Frame) : f.bare.visible = f.visible := rfl

@[simp] theorem parent_bare (f : Frame) : f.bare.parent = f.parent := rfl

@[simp] theorem values_bare (f : Frame) : f.bare.values = f.values := rfl

@[simp] theorem invocation_bare (f : Frame) : f.bare.invocation = f.invocation := rfl

/-- A frame is its place and all the rest. -/
theorem eq_of_bare {f g : Frame} (rest : f.bare = g.bare) (site : f.site = g.site) : f = g := by
  cases f
  cases g
  simp_all [bare, Frame.site]

end Frame

namespace CallStack

/-- The frames without their places. -/
def bare (s : CallStack) : CallStack := { s with frames := s.frames.map Frame.bare }

/-- Where the frames stand. -/
def sites (s : CallStack) : Array Site := s.frames.map Frame.site

variable {s : CallStack}

@[simp] theorem bare_bare (s : CallStack) : s.bare.bare = s.bare := by
  simp [bare, Function.comp_def]

@[simp] theorem depth_bare (s : CallStack) : s.bare.depth = s.depth := by simp [bare, depth]

@[simp] theorem get?_bare (s : CallStack) (n : Nat) :
    s.bare.get? n = (s.get? n).map Frame.bare := by simp [bare, get?]

@[simp] theorem top?_bare (s : CallStack) : s.bare.top? = s.top?.map Frame.bare := by
  simp [bare, top?]

theorem bare_modify {n : Nat} {g g' : Frame → Frame}
    (same : ∀ f, s.frames[n]? = some f → (g f).bare = (g' f.bare).bare) :
    (s.modify n g).bare = (s.bare.modify n g').bare := by
  simp only [bare, modify, CallStack.mk.injEq, and_true]
  refine Array.ext_getElem? fun k => ?_
  simp only [Array.getElem?_map, Array.getElem?_modify]
  split
  · next at_ =>
    subst at_
    cases there : s.frames[n]? with
    | none => rfl
    | some f => simp [same f there]
  · cases s.frames[k]? <;> rfl

theorem sites_modify {n : Nat} {g : Frame → Frame}
    (same : ∀ f, s.frames[n]? = some f → (g f).site = f.site) : (s.modify n g).sites = s.sites := by
  simp only [sites, modify]
  refine Array.ext_getElem? fun k => ?_
  simp only [Array.getElem?_map, Array.getElem?_modify]
  split
  · next at_ =>
    subst at_
    cases there : s.frames[n]? with
    | none => rfl
    | some f => simp [same f there]
  · rfl

/-- Variables are looked up without regard to places. -/
theorem visibleAlong_bare (key : UInt64) (links : Nat) : ∀ index,
    s.bare.visibleAlong key index links = s.visibleAlong key index links := by
  induction links with
  | zero => intro index; rfl
  | succ links ih =>
    intro index
    simp only [visibleAlong, get?_bare]
    cases s.get? index with
    | none => rfl
    | some f =>
      simp only [Option.map_some, Frame.visible_bare, Frame.parent_bare]
      cases f.visible.get? key with
      | some id => rfl
      | none =>
        cases f.parent with
        | none => rfl
        | some parent => exact ih parent

theorem getVisible_bare (index : Nat) (key : UInt64) :
    s.bare.getVisible index key = s.getVisible index key := by
  simp only [getVisible, get?_bare, visibleFrom, depth_bare, visibleAlong_bare]
  cases s.get? index <;> rfl

theorem follow_bare (n : Nat) : ∀ index, s.bare.follow index n = s.follow index n := by
  induction n with
  | zero => intro index; rfl
  | succ n ih =>
    intro index
    simp only [follow, get?_bare]
    cases s.get? index with
    | none => rfl
    | some f =>
      simp only [Option.map_some, Option.bind_some, Frame.parent_bare]
      cases f.parent with
      | none => rfl
      | some parent => exact ih parent

theorem ancestor_bare (index n : Nat) : s.bare.ancestor index n = s.ancestor index n := by
  simp only [ancestor, get?_bare, Option.isSome_map, follow_bare]

end CallStack

namespace Process

/-- The process without the places of its frames, its signals, output and reports. -/
def bare (p : Process) : Process :=
  { p with
    calls := p.calls.bare
    signals := .empty
    output := .fresh
    diagnostics := ""
    journal := .new none }

/-- Signals, output and the places of the frames rest. -/
structure Rests (p q : Process) : Prop where
  sites : q.calls.sites = p.calls.sites
  signals : q.signals = p.signals
  output : q.output = p.output

variable {p q r : Process}

@[simp] theorem bare_bare (p : Process) : p.bare.bare = p.bare := by simp [bare]

@[simp] theorem objects_bare (p : Process) : p.bare.objects = p.objects := rfl

@[simp] theorem pool_bare (p : Process) : p.bare.pool = p.pool := rfl

@[simp] theorem invocations_bare (p : Process) : p.bare.invocations = p.invocations := rfl

theorem Rests.refl (p : Process) : p.Rests p := ⟨rfl, rfl, rfl⟩

theorem Rests.trans (a : p.Rests q) (b : q.Rests r) : p.Rests r :=
  ⟨b.sites.trans a.sites, b.signals.trans a.signals, b.output.trans a.output⟩

/-! ## Looks that are blind -/

@[simp] theorem top?_bare (p : Process) : p.bare.calls.top? = p.calls.top?.map Frame.bare :=
  p.calls.top?_bare

theorem currentCompartment_bare (p : Process) :
    p.bare.currentCompartment = p.currentCompartment := by
  simp only [currentCompartment, top?_bare]
  cases p.calls.top? <;> rfl

theorem stringLiteral_bare (p : Process) (key : UInt64) :
    p.bare.stringLiteral key = p.stringLiteral key := by
  simp only [stringLiteral, currentCompartment_bare]

theorem named_bare (p : Process) (key : UInt64) : p.bare.named key = p.named key := by
  funext fault
  cases fault <;> simp only [named, nameOf, stringLiteral_bare]

theorem visible_bare (p : Process) (key : UInt64) : p.bare.visible key = p.visible key := by
  simp only [visible, named_bare]
  show (if p.calls.bare.depth = 0 then _ else
    (p.calls.bare.getVisible (p.calls.bare.depth - 1) key).mapError _) = _
  rw [CallStack.depth_bare, CallStack.getVisible_bare]

theorem roots_bare (p : Process) : p.bare.roots = p.roots := by
  show p.objects ++ (p.calls.frames.map Frame.bare).toList.flatMap Frame.objectIds ++ _ = _
  rw [Array.toList_map, List.flatMap_map]
  rfl

end Process

/-! ## Steps that are blind -/

namespace Exec

variable {p : Process} {α β : Type}

/-- A result without what is not seen. -/
def bared : EStateM.Result Fault Process α → EStateM.Result Fault Process α
  | .ok a q => .ok a q.bare
  | .error fault q => .error fault q.bare

/-- A result in `p` and one in `p.bare` are the same but for what is not seen, which rests. -/
structure Sees (p : Process) (r r' : EStateM.Result Fault Process α) : Prop where
  same : bared r = bared r'
  rests : p.Rests (left r)

/-- Work that does the same whatever is not seen. -/
def IsBlind (m : Exec α) : Prop := ∀ p, Sees p (m p) (m p.bare)

/-- What differs only in what is not seen makes no difference. -/
theorem IsBlind.same {m : Exec α} (blind : IsBlind m) {q : Process} (alike : p.bare = q.bare) :
    bared (m p) = bared (m q) := by
  rw [(blind p).same, (blind q).same, alike]

theorem Sees.ok (a : α) {q q' : Process} (same : q.bare = q'.bare) (rests : p.Rests q) :
    Sees p (.ok a q) (.ok a q') := ⟨by rw [bared, same]; rfl, rests⟩

theorem Sees.error (fault : Fault) {q q' : Process} (same : q.bare = q'.bare) (rests : p.Rests q) :
    Sees p (.error fault q : EStateM.Result Fault Process α) (.error fault q') :=
  ⟨by rw [bared, same]; rfl, rests⟩

/-- Work that sees the same, followed by blind work. -/
theorem Sees.bind {m m' : Exec α} {k : α → Exec β} {p' : Process} (hm : Sees p (m p) (m' p'))
    (hk : ∀ a, IsBlind (k a)) : Sees p ((m >>= k) p) ((m' >>= k) p') := by
  obtain ⟨same, rests⟩ := hm
  show Sees p (EStateM.bind m k p) (EStateM.bind m' k p')
  unfold EStateM.bind
  cases hm : m p with
  | ok a q =>
    cases hm' : m' p' with
    | ok a' q' =>
      rw [hm, hm'] at same
      rw [hm] at rests
      simp only [bared, EStateM.Result.ok.injEq] at same
      obtain ⟨rfl, alike⟩ := same
      exact ⟨(hk a).same alike, rests.trans (hk a q).rests⟩
    | error fault' q' =>
      rw [hm, hm'] at same
      cases same
  | error fault q =>
    cases hm' : m' p' with
    | ok a' q' =>
      rw [hm, hm'] at same
      cases same
    | error fault' q' =>
      rw [hm, hm'] at same
      rw [hm] at rests
      simp only [bared, EStateM.Result.error.injEq] at same
      exact ⟨by simp only [bared, same.1, same.2], rests⟩

namespace IsBlind

theorem bind {m : Exec α} {k : α → Exec β} (hm : IsBlind m) (hk : ∀ a, IsBlind (k a)) :
    IsBlind (m >>= k) := fun p => (hm p).bind hk

theorem pure (a : α) : IsBlind (pure a : Exec α) := fun p => .ok a p.bare_bare.symm (.refl p)

theorem throw (fault : Fault) : IsBlind (throw fault : Exec α) :=
  fun p => .error fault p.bare_bare.symm (.refl p)

theorem get_bind {k : Process → Exec α} (hk : ∀ p : Process, Sees p (k p p) (k p.bare p.bare)) :
    IsBlind (get >>= k) := hk

/-- A change of what is seen that looks at that only. -/
theorem modify {g : Process → Process} (same : ∀ p : Process, (g p).bare = (g p.bare).bare)
    (rests : ∀ p : Process, p.Rests (g p)) : IsBlind (modify g : Exec Unit) :=
  fun p => .ok () (same p) (rests p)

end IsBlind

theorem blind_look {f : Process → Except Fault α} (same : ∀ p : Process, f p.bare = f p) :
    IsBlind (look f) := by
  refine .get_bind fun p => ?_
  rw [same p]
  cases f p with
  | ok a => exact IsBlind.pure a p
  | error fault => exact IsBlind.throw fault p

theorem blind_lift (r : Except Fault α) : IsBlind (lift r) := by
  cases r with
  | ok a => exact .pure a
  | error fault => exact .throw fault

theorem blind_liftValue (r : Except ValueError α) : IsBlind (liftValue r) := by
  cases r with
  | ok a => exact .pure a
  | error e => exact .throw _

/-! ### Frames -/

/-- After a look at the running frame the rest may rely on it, but not on its place. -/
theorem blind_topFrame_bind {k : Frame → Exec α}
    (hk : ∀ (p : Process) (f : Frame), p.calls.top? = some f →
      Sees p (k f p) (k f.bare p.bare)) : IsBlind (topFrame >>= k) := by
  intro p
  have bare := p.top?_bare
  cases top : p.calls.top? with
  | some f =>
    rw [top] at bare
    rw [bind_ok (topFrame_eq top), bind_ok (topFrame_eq bare)]
    exact hk p f top
  | none =>
    rw [top] at bare
    rw [bind_error (topFrame_none top), bind_error (topFrame_none bare)]
    exact IsBlind.throw _ p

theorem sees_setTopFrame {f g g' : Frame} (top : p.calls.top? = some f) (site : g.site = f.site)
    (same : g.bare = g'.bare) : Sees p (setTopFrame g p) (setTopFrame g' p.bare) := by
  refine .ok () ?_ ⟨CallStack.sites_modify fun f' there => ?_, rfl, rfl⟩
  · have calls : (p.calls.modifyTop fun _ => g).bare =
        (p.calls.bare.modifyTop fun _ => g').bare := by
      unfold CallStack.modifyTop
      rw [CallStack.depth_bare]
      exact CallStack.bare_modify fun _ _ => same
    simp only [Process.bare, calls]
  · rw [CallStack.frame_of_top top] at there
    cases there
    exact site

/-- A change of the running frame that neither looks at its place nor moves it. -/
structure Stands (g : Frame → Except Fault Frame) : Prop where
  same : ∀ f, (g f).map Frame.bare = (g f.bare).map Frame.bare
  site : ∀ f f', g f = .ok f' → f'.site = f.site

theorem blind_updateFrame {g : Frame → Except Fault Frame} (stands : Stands g) :
    IsBlind (updateFrame g) := by
  refine blind_topFrame_bind fun p f top => ?_
  have same := stands.same f
  cases changed : g f with
  | ok f' =>
    cases changed' : g f.bare with
    | ok f'' =>
      rw [changed, changed'] at same
      exact sees_setTopFrame top (stands.site f f' changed) (Except.ok.inj same)
    | error fault =>
      rw [changed, changed'] at same
      cases same
  | error fault =>
    cases changed' : g f.bare with
    | ok f'' =>
      rw [changed, changed'] at same
      cases same
    | error fault' =>
      rw [changed, changed'] at same
      cases same
      exact IsBlind.throw fault p

/-- A change of the running frame that cannot fail. -/
theorem blind_changeFrame {g : Frame → Frame} (same : ∀ f, (g f).bare = (g f.bare).bare)
    (site : ∀ f, (g f).site = f.site) : IsBlind (topFrame >>= fun f => setTopFrame (g f)) :=
  blind_topFrame_bind fun _ f top => sees_setTopFrame top (site f) (same f)

/-! ### Objects and handles -/

theorem blind_pushObject (id : ObjectId) : IsBlind (pushObject id) :=
  .modify (fun p => by simp [Process.bare]) fun _ => ⟨rfl, rfl, rfl⟩

theorem blind_popObject : IsBlind popObject := by
  refine .get_bind fun p => ?_
  rw [p.objects_bare]
  cases p.objects with
  | nil => exact IsBlind.throw _ p
  | cons id rest => exact .ok id (by simp [Process.bare]) ⟨rfl, rfl, rfl⟩

theorem blind_topObject : IsBlind topObject := by
  refine .get_bind fun p => ?_
  rw [p.objects_bare]
  cases p.objects with
  | nil => exact IsBlind.throw _ p
  | cons id rest => exact IsBlind.pure id p

theorem blind_object (id : ObjectId) : IsBlind (object id) := blind_look fun _ => rfl

theorem blind_putObject (id : ObjectId) (o : Object) : IsBlind (putObject id o) :=
  .modify (fun p => by simp [Process.bare]) fun _ => ⟨rfl, rfl, rfl⟩

theorem blind_mutableObject (id : ObjectId) : IsBlind (mutableObject id) := by
  refine (blind_object id).bind fun o => ?_
  split
  · exact .throw _
  · exact .pure _

theorem blind_newObject : IsBlind newObject := by
  refine .get_bind fun p => ?_
  show Sees p _ ((if p.heap.isFull then _ else _ : Exec ObjectId) p.bare)
  split
  · exact IsBlind.throw _ p
  · exact .ok _ (by simp [Process.bare]) ⟨rfl, rfl, rfl⟩

theorem blind_checkDeletable (id : ObjectId) : IsBlind (checkDeletable id) := by
  refine (blind_object id).bind fun o => ?_
  split
  · exact .throw _
  · exact .pure _

theorem blind_setValue (id : ObjectId) (v : Value) : IsBlind (setValue id v) := by
  refine (blind_object id).bind fun o => ?_
  cases o.handle with
  | some key =>
    refine .get_bind fun p => ?_
    show Sees p _ ((if p.pool.contains key then _ else _ : Exec Unit) p.bare)
    split
    · exact .ok () (by simp [Process.bare]) ⟨rfl, rfl, rfl⟩
    · exact IsBlind.throw _ p
  | none =>
    refine .get_bind fun p => ?_
    show Sees p _ ((if p.pool.isFull then _ else _ : Exec Unit) p.bare)
    split
    · exact IsBlind.throw _ p
    · exact .ok () (by simp [Process.bare]) ⟨rfl, rfl, rfl⟩

theorem blind_newObjectWith (v : Value) : IsBlind (newObjectWith v) :=
  blind_newObject.bind fun id => (blind_setValue id v).bind fun _ => .pure id

/-! ### Values -/

theorem blind_pushValue (v : Value) : IsBlind (pushValue v) :=
  blind_changeFrame (fun _ => rfl) fun _ => rfl

theorem blind_popValue : IsBlind popValue := by
  refine blind_topFrame_bind fun p f top => ?_
  cases values : f.values with
  | nil =>
    have none : f.popValue = .error .valueStackEmpty := by simp [Frame.popValue, values]
    have none' : f.bare.popValue = .error .valueStackEmpty := by
      simp [Frame.popValue, Frame.bare, values]
    rw [none, none']
    exact IsBlind.throw _ p
  | cons v rest =>
    have popped : f.popValue = .ok (v, { f with values := rest }) := by
      simp [Frame.popValue, values]
    have popped' : f.bare.popValue = .ok (v, { f.bare with values := rest }) := by
      simp [Frame.popValue, Frame.bare, values]
    rw [popped, popped']
    show Sees p ((setTopFrame { f with values := rest } >>= fun _ => pure v) p)
      ((setTopFrame { f.bare with values := rest } >>= fun _ => pure v) p.bare)
    exact Sees.bind (sees_setTopFrame top rfl rfl) fun _ => .pure v

theorem blind_topFrame_lift {g : Frame → Except Fault α} (same : ∀ f, g f.bare = g f) :
    IsBlind (topFrame >>= fun f => lift (g f)) := by
  refine blind_topFrame_bind fun p f _ => ?_
  rw [same]
  exact blind_lift (g f) p

theorem blind_topValue : IsBlind topValue := blind_topFrame_lift fun _ => rfl

/-- A change of the values alone stands. -/
theorem stands_values {g : Frame → Except Fault Frame} (values : ∀ f : Frame,
    (∃ vs, g f = .ok { f with values := vs } ∧ g f.bare = .ok { f.bare with values := vs }) ∨
      ∃ fault, g f = .error fault ∧ g f.bare = .error fault) : Stands g := by
  refine ⟨fun f => ?_, fun f f' e => ?_⟩
  · rcases values f with ⟨vs, changed, changed'⟩ | ⟨fault, failed, failed'⟩
    · rw [changed, changed']
      rfl
    · rw [failed, failed']
  · rcases values f with ⟨vs, changed, -⟩ | ⟨fault, failed, -⟩
    · rw [changed] at e
      cases e
      rfl
    · rw [failed] at e
      cases e

theorem blind_setTopValue (v : Value) : IsBlind (setTopValue v) := by
  refine blind_updateFrame (stands_values fun f => ?_)
  unfold Frame.setTopValue
  rw [f.values_bare]
  cases f.values with
  | nil => exact .inr ⟨_, rfl, rfl⟩
  | cons _ rest => exact .inl ⟨v :: rest, rfl, rfl⟩

theorem blind_popOperands (n : Nat) : IsBlind (popOperands n) := by
  induction n with
  | zero => exact .pure _
  | succ n ih => exact blind_popValue.bind fun v => ih.bind fun ws => .pure _

/-! ### Invocations -/

theorem blind_ownInvocation : IsBlind ownInvocation := by
  refine blind_topFrame_bind fun p f _ => ?_
  rw [get_bind, get_bind, p.invocations_bare, f.invocation_bare]
  cases p.invocations[f.invocation]? with
  | some i => exact IsBlind.pure _ p
  | none => exact IsBlind.throw _ p

theorem blind_stagedInvocation : IsBlind stagedInvocation := by
  refine blind_topFrame_bind fun p f _ => ?_
  simp only [get_bind, p.invocations_bare, f.invocation_bare]
  cases p.invocations[p.invocations.size - 1]? with
  | none => exact IsBlind.throw _ p
  | some i =>
    have blind : IsBlind (if f.invocation < p.invocations.size - 1 then
        pure (p.invocations.size - 1, i) else throw .invocationNotFound) := by
      split
      · exact .pure _
      · exact .throw _
    exact blind p

theorem blind_putInvocation (index : Nat) (i : Invocation) : IsBlind (putInvocation index i) :=
  .modify (fun p => by simp [Process.bare]) fun _ => ⟨rfl, rfl, rfl⟩

theorem blind_updateStaged (f : Invocation → Invocation) : IsBlind (updateStaged f) :=
  blind_stagedInvocation.bind fun _ => blind_putInvocation _ _

theorem blind_takeOwn (f : Invocation → Except Fault (α × Invocation)) : IsBlind (takeOwn f) :=
  blind_ownInvocation.bind fun _ => (blind_lift _).bind fun _ =>
    (blind_putInvocation _ _).bind fun _ => .pure _

/-! ## Instructions that are blind -/

theorem blind_swapObjects : IsBlind swapObjects := by
  refine .get_bind fun p => ?_
  rw [p.objects_bare]
  rcases p.objects with _ | ⟨b, _ | ⟨a, rest⟩⟩
  · exact IsBlind.throw _ p
  · exact IsBlind.throw _ p
  · exact .ok () (by simp [Process.bare]) ⟨rfl, rfl, rfl⟩

theorem blind_setFlag (flag : ObjectFlags) (on : Bool) : IsBlind (setFlag flag on) :=
  blind_topObject.bind fun id => (blind_object id).bind fun _ => blind_putObject id _

theorem blind_compareObjects (same : Bool) : IsBlind (compareObjects same) :=
  blind_popObject.bind fun _ => blind_popObject.bind fun _ => blind_pushValue _

theorem blind_setClosure (closure : UInt64) : IsBlind (setClosure closure) := by
  refine blind_topFrame_bind fun p f _ => ?_
  have blind : ∀ compartment, IsBlind (do
      let id ← topObject
      let o ← mutableObject id
      putObject id { o with closure := some ⟨compartment, closure⟩ }) := fun _ =>
    blind_topObject.bind fun id => (blind_mutableObject id).bind fun _ => blind_putObject id _
  exact blind f.closure.compartment p

theorem blind_runObject (op : ObjectOp) (i : Instruction) : IsBlind (runObject op i) := by
  cases op with
  | new => exact blind_newObject.bind blind_pushObject
  | pop => exact blind_popObject.bind fun _ => .pure _
  | swap => exact blind_swapObjects
  | same | different => exact blind_compareObjects _
  | setClosure => exact blind_setClosure _
  | setPinned | setIndelible | setUncallable | setImmutable => exact blind_setFlag _ _

theorem blind_loadVisible (key : UInt64) : IsBlind (loadVisible key) :=
  (blind_look fun p => p.visible_bare key).bind blind_pushObject

theorem blind_lookVariable {key : UInt64} {find : Frame → Except Fault ObjectId}
    (same : ∀ f, find f.bare = find f) : IsBlind (lookVariable key find) := by
  refine blind_topFrame_bind fun p f _ => ?_
  rw [same]
  exact blind_look (fun p => by rw [p.named_bare]) p

theorem blind_storeOuter (key : UInt64) (links : Nat) : IsBlind (storeOuter key links) := by
  refine blind_popObject.bind fun id => blind_topFrame_bind fun p f top => ?_
  refine Sees.bind (blind_look (fun p => ?_) p) fun index => .get_bind fun p => ?_
  · show p.calls.bare.ancestor (p.calls.bare.depth - 1) links = _
    rw [CallStack.depth_bare, CallStack.ancestor_bare]
  · have there : p.bare.calls.get? index = (p.calls.get? index).map Frame.bare :=
      p.calls.get?_bare index
    rw [there]
    cases p.calls.get? index with
    | none => exact IsBlind.throw _ p
    | some g =>
      refine .ok () ?_ ⟨CallStack.sites_modify fun _ _ => rfl, rfl, rfl⟩
      have calls : (p.calls.modify index (·.setVisible key id)).bare =
          (p.calls.bare.modify index (·.setVisible key id)).bare :=
        CallStack.bare_modify fun _ _ => rfl
      simp only [Process.bare, calls]

theorem blind_runVariable (op : VariableOp) (i : Instruction) : IsBlind (runVariable op i) := by
  have change : ∀ {g : Frame → Frame}, (∀ f, (g f).bare = (g f.bare).bare) →
      (∀ f, (g f).site = f.site) → IsBlind (topFrame >>= fun f => setTopFrame (g f)) :=
    blind_changeFrame
  cases op with
  | load => exact blind_loadVisible _
  | store => exact blind_popObject.bind fun id => change (fun _ => rfl) fun _ => rfl
  | storeOuter => exact blind_storeOuter _ _
  | loadHidden => exact (blind_lookVariable fun _ => rfl).bind blind_pushObject
  | storeHidden => exact blind_popObject.bind fun id => change (fun _ => rfl) fun _ => rfl
  | delete | deleteHidden =>
    exact (blind_lookVariable fun _ => rfl).bind fun id => (blind_checkDeletable id).bind fun _ =>
      change (fun _ => rfl) fun _ => rfl
  | loadEither => exact blind_popValue.bind fun _ => blind_loadVisible _

theorem blind_readName (source : NameSource) (i : Instruction) : IsBlind (readName source i) := by
  cases source with
  | literal => exact blind_look fun p => p.stringLiteral_bare _
  | computed => exact blind_popValue.bind fun _ => blind_liftValue _

theorem blind_findAttribute (o : Object) (name : String) : IsBlind (findAttribute o name) := by
  unfold findAttribute
  split
  · exact .pure _
  · exact .throw _

theorem blind_runAttribute (op : AttributeOp) (name : String) : IsBlind (runAttribute op name) := by
  cases op with
  | get =>
    exact blind_popObject.bind fun id => (blind_object id).bind fun o =>
      (blind_findAttribute o name).bind blind_pushObject
  | set =>
    exact blind_popObject.bind fun _ => blind_topObject.bind fun id =>
      (blind_mutableObject id).bind fun _ => blind_putObject id _
  | delete =>
    exact blind_topObject.bind fun id => (blind_mutableObject id).bind fun o =>
      (blind_findAttribute o name).bind fun a => (blind_checkDeletable a).bind fun _ =>
        blind_putObject id _
  | has =>
    exact blind_topObject.bind fun id => (blind_object id).bind fun _ => blind_pushValue _

theorem blind_mapM {f : α → Exec β} (each : ∀ a, IsBlind (f a)) (l : List α) :
    IsBlind (l.mapM f) := by
  induction l with
  | nil =>
    rw [List.mapM_nil]
    exact .pure _
  | cons a l ih =>
    rw [List.mapM_cons]
    exact (each a).bind fun _ => ih.bind fun _ => .pure _

theorem blind_setAttributes : IsBlind setAttributes :=
  blind_topValue.bind fun _ => (blind_liftValue _).bind fun _ =>
    (blind_mapM (fun _ =>
      (blind_look fun p => p.stringLiteral_bare _).bind fun _ => .pure _) _).bind
      fun _ => blind_topObject.bind fun id => (blind_mutableObject id).bind fun _ =>
        blind_putObject id _

theorem blind_valueOf (id : ObjectId) : IsBlind (look (·.valueOf id)) := blind_look fun _ => rfl

theorem blind_assign (id : ObjectId) (v : Value) : IsBlind (assign id v) :=
  (blind_mutableObject id).bind fun _ => blind_setValue id v

theorem blind_copyValue (f : Value → Value) : IsBlind (copyValue f) :=
  blind_popObject.bind fun _ => blind_topObject.bind fun target => (blind_valueOf _).bind fun v =>
    blind_assign target (f v)

theorem blind_clearHandle : IsBlind clearHandle := by
  refine blind_topObject.bind fun id => (blind_mutableObject id).bind fun o => ?_
  cases o.handle with
  | none => exact .pure _
  | some key =>
    refine (blind_putObject id _).bind fun _ => .get_bind fun p => ?_
    rw [p.pool_bare]
    cases p.pool.erase key with
    | ok erased => exact .ok () (by simp [Process.bare]) ⟨rfl, rfl, rfl⟩
    | error e => exact IsBlind.throw _ p

theorem blind_objectTruthy : IsBlind objectTruthy := by
  refine blind_topObject.bind fun id => (blind_object id).bind fun o => ?_
  cases o.handle with
  | some key => exact (blind_look fun _ => rfl).bind fun _ => blind_pushValue _
  | none => exact blind_pushValue _

theorem blind_runHandle (op : HandleOp) (i : Instruction) : IsBlind (runHandle op i) := by
  have visible : ∀ key, IsBlind (look (·.visible key)) := fun key =>
    blind_look fun p => p.visible_bare key
  cases op with
  | get => exact blind_topObject.bind fun _ => (blind_valueOf _).bind blind_pushValue
  | set => exact blind_popValue.bind fun v => blind_topObject.bind fun id => blind_assign id v
  | getOf => exact (visible _).bind fun _ => (blind_valueOf _).bind blind_pushValue
  | setOf => exact blind_popValue.bind fun v => (visible _).bind fun id => blind_assign id v
  | clear => exact blind_clearHandle
  | copy | copyText => exact blind_copyValue _
  | truthy => exact blind_objectTruthy

theorem blind_perform (a : Action) : IsBlind (perform a) := by
  cases a with
  | compute n f =>
    exact (blind_popOperands n).bind fun _ => blind_topValue.bind fun _ =>
      (blind_liftValue _).bind blind_setTopValue
  | read n f =>
    exact (blind_popOperands n).bind fun _ => blind_topValue.bind fun _ =>
      (blind_liftValue _).bind blind_pushObject
  | store n f =>
    exact blind_popObject.bind fun _ => (blind_popOperands n).bind fun _ =>
      blind_topValue.bind fun _ => (blind_liftValue _).bind blind_setTopValue
  | exchange f =>
    refine blind_topFrame_bind fun p frame _ => ?_
    rw [show frame.bare.topTwoValues = frame.topTwoValues from rfl]
    refine Sees.bind (blind_lift frame.topTwoValues p) fun ab => (blind_liftValue _).bind fun ab' =>
      blind_updateFrame (stands_values fun frame => ?_)
    unfold Frame.setTopTwoValues
    rw [frame.values_bare]
    rcases frame.values with _ | ⟨b, _ | ⟨a, rest⟩⟩
    · exact .inr ⟨_, rfl, rfl⟩
    · exact .inr ⟨_, rfl, rfl⟩
    · exact .inl ⟨ab'.2 :: ab'.1 :: rest, rfl, rfl⟩

theorem blind_runStack (op : StackOp) : IsBlind (runStack op) := by
  cases op with
  | pop => exact blind_popValue.bind fun _ => .pure _
  | dup => exact blind_topValue.bind blind_pushValue
  | swap =>
    refine blind_updateFrame (stands_values fun f => ?_)
    unfold Frame.swapValues
    rw [f.values_bare]
    rcases f.values with _ | ⟨b, _ | ⟨a, rest⟩⟩
    · exact .inr ⟨_, rfl, rfl⟩
    · exact .inr ⟨_, rfl, rfl⟩
    · exact .inl ⟨a :: b :: rest, rfl, rfl⟩

theorem blind_floatLiteral (key : UInt64) : IsBlind (floatLiteral key) :=
  (blind_look fun p => by rw [p.currentCompartment_bare]).bind fun _ => .pure _

theorem blind_runConstant (op : ConstantOp) (i : Instruction) : IsBlind (runConstant op i) := by
  cases op with
  | int | bool | array | map => exact blind_pushValue _
  | dec1 | dec2 => exact (blind_floatLiteral _).bind fun _ => blind_pushValue _
  | text => exact (blind_look fun p => p.stringLiteral_bare _).bind fun _ => blind_pushValue _

theorem blind_runArgument {op : ArgumentOp} (steady : op ≠ .takeNamed) (i : Instruction) :
    IsBlind (runArgument op i) := by
  cases op with
  | put | putNamed => exact blind_popObject.bind fun _ => blind_updateStaged _
  | putAll | putAllNamed =>
    exact blind_popObject.bind fun _ => (blind_valueOf _).bind fun _ =>
      (blind_liftValue _).bind fun _ => blind_updateStaged _
  | take => exact (blind_takeOwn _).bind blind_pushObject
  | takeNamed => exact absurd rfl steady
  | takeAll | takeAllNamed =>
    exact (blind_takeOwn _).bind fun _ => (blind_newObjectWith _).bind blind_pushObject
  | hasMore => exact blind_ownInvocation.bind fun _ => blind_pushValue _

theorem blind_stageCall : IsBlind stageCall := by
  refine blind_topObject.bind fun id => (blind_object id).bind fun o => ?_
  split
  · exact (blind_look fun _ => rfl).bind fun _ =>
      .modify (fun p => by simp [Process.bare]) fun _ => ⟨rfl, rfl, rfl⟩
  · exact .throw _

theorem blind_collect : IsBlind (modify (·.collect.2) : Exec Unit) := by
  refine .modify (fun p => ?_) fun _ => ⟨rfl, rfl, rfl⟩
  have heap : p.bare.collect.2.heap = p.collect.2.heap := by
    show (p.heap.collect p.bare.roots p.handleEdges).2 = _
    rw [p.roots_bare]
    rfl
  have pool : p.bare.collect.2.pool = p.collect.2.pool := by
    show Process.eraseHandles p.pool (p.heap.collect p.bare.roots p.handleEdges).1.orphans = _
    rw [p.roots_bare]
    rfl
  show ({ p with
      heap := p.collect.2.heap
      pool := p.collect.2.pool
      journal := p.collect.2.journal } : Process).bare =
    ({ p.bare with
      heap := p.bare.collect.2.heap
      pool := p.bare.collect.2.pool
      journal := p.bare.collect.2.journal } : Process).bare
  rw [heap, pool]
  simp [Process.bare]

theorem blind_execute {i : Instruction} (blind : i.op.isBlind = true) : IsBlind (execute i) := by
  unfold execute
  cases hop : i.op with
  | object op => exact blind_runObject op i
  | «variable» op => exact blind_runVariable op i
  | «attribute» op source => exact (blind_readName source i).bind (blind_runAttribute op)
  | setAttributes => exact blind_setAttributes
  | handle op => exact blind_runHandle op i
  | control op =>
    rw [hop] at blind
    cases op with
    | stage => exact blind_stageCall
    | loadException =>
      refine blind_topFrame_bind fun p f _ => ?_
      rw [show f.bare.exception = f.exception from rfl]
      cases f.exception with
      | some id => exact blind_pushObject id p
      | none => exact IsBlind.throw _ p
    | clearException => exact blind_changeFrame (fun _ => rfl) fun _ => rfl
    | _ => cases blind
  | argument op =>
    rw [hop] at blind
    exact blind_runArgument (by rintro rfl; cases blind) i
  | runtime op =>
    rw [hop] at blind
    cases op with
    | collect => exact blind_collect
    | debug => exact .modify (fun p => by simp [Process.bare]) fun _ => ⟨rfl, rfl, rfl⟩
    | print => cases blind
  | stack op => exact blind_runStack op
  | constant op => exact blind_runConstant op i
  | value op => exact blind_perform op.action

end Exec

end ObjectVM
