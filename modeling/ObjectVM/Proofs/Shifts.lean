import ObjectVM.Proofs.Quiet

/-!
# What an instruction does to frames and invocations

An instruction keeps all but the running frame, or it is one of the few that do more
(`Process.Shift`): it binds a variable of a frame outward, changes one invocation, stages a call,
makes one, returns, or hands an exception outward. `shift_execute` says so of every instruction,
whether it succeeds or fails, in every process.
-/
namespace ObjectVM

namespace Exec

variable {p : Process}

/-! ## Exceptions -/

theorem left_look {α : Type} (f : Process → Except Fault α) : left (look f p) = p := by
  unfold look
  rw [get_bind]
  cases f p <;> rfl

theorem left_asked (f : Frame) (search : Bool) :
    left ((if search then catchTarget? f else pure none : Exec (Option Nat)) p) = p := by
  unfold catchTarget?
  split
  · split
    · rfl
    · rw [left_bind]
      have looked := left_look (p := p) fun p => p.resolve f.closure
      split
      · next h => rw [h] at looked; exact looked
      · next h => rw [h] at looked; exact looked
  · rfl

end Exec

/-- Where no frame is left, the run may end in any way. -/
theorem Process.Drops.ended {p q r : Process} (d : p.Drops 0 q) (options : r.options = q.options)
    (compartments : r.compartments = q.compartments) (calls : r.calls = q.calls)
    (invocations : r.invocations = q.invocations) : p.Drops 0 r :=
  ⟨options ▸ d.options, compartments ▸ d.compartments, calls ▸ d.maxDepth, calls ▸ d.depth,
    d.within, calls ▸ d.below, calls ▸ d.top, invocations ▸ d.kept, invocations ▸ d.cut,
    fun _ _ _ => .inr rfl⟩

namespace Exec

variable {p : Process}

/-- An exception that a frame does not catch comes to the caller. -/
theorem handOver_pass {f caller : Frame} {e : ObjectId} {trace : Option Traceback} {depth : Nat}
    (top : p.calls.top? = some f) (below : p.calls.dropTop.top? = some caller) :
    handOver e trace depth f none p = unwind e true (trace.or (some p.fullTraceback)) depth
      { p with
        calls := p.calls.dropTop.modifyTop fun _ => caller.setException (some e)
        invocations := p.invocations.shrink f.invocation
        objects := e :: p.objects } := by
  refine (bind_ok rfl).trans ((bind_ok (popFrame_eq top)).trans ((bind_ok rfl).trans ?_))
  simp only [below]
  rfl

/-- An exception that no frame has caught ends the run. -/
theorem handOver_last {f : Frame} {e : ObjectId} {trace : Option Traceback} {depth : Nat}
    (top : p.calls.top? = some f) (below : p.calls.dropTop.top? = none) :
    handOver e trace depth f none p = .ok ()
      { p with
        calls := p.calls.dropTop
        invocations := p.invocations.shrink f.invocation
        journal := p.journal.record (.uncaught e)
        halt := some (.uncaught e)
        uncaught := trace.or (some p.fullTraceback) } := by
  refine (bind_ok rfl).trans ((bind_ok (popFrame_eq top)).trans ((bind_ok rfl).trans ?_))
  simp only [below]
  rfl

/-- A frame catches the exception and goes on, or leaves; then the exception goes on from its
caller. -/
theorem drops_handOver {f : Frame} (top : p.calls.top? = some f) (e : ObjectId)
    (trace : Option Traceback) {depth : Nat} (target : Option Nat)
    (outward : ∀ (p : Process) (search : Bool) (trace : Option Traceback),
      ∃ m, p.Drops m (left (unwind e search trace depth p))) :
    ∃ m, p.Drops m (left (handOver e trace depth f target p)) := by
  cases target with
  | some target =>
    have caught := Process.quiet_setTop top (goesOn_setException f (some e))
    refine ⟨_, quiet_bind caught fun _ q _ => ?_⟩
    exact ((quiet_move (moves_goTo (.empty 0) target)).bind fun _ => quiet_note _) q
  | none =>
    have gone := Process.drops_top top
    cases below : p.calls.dropTop.top? with
    | some caller =>
      rw [handOver_pass top below]
      have handed := Process.quiet_setTop (p := { p with
          calls := p.calls.dropTop
          invocations := p.invocations.shrink f.invocation }) below
        (goesOn_setException caller (some e))
      obtain ⟨m, rest⟩ := outward { p with
        calls := p.calls.dropTop.modifyTop fun _ => caller.setException (some e)
        invocations := p.invocations.shrink f.invocation
        objects := e :: p.objects } true (trace.or (some p.fullTraceback))
      refine ⟨m, gone.trans (handed.drops (Process.Quiet.drops ?_ rest))⟩
      exact Process.quiet_elsewhere rfl rfl rfl rfl rfl
    | none =>
      rw [handOver_last top below]
      have empty : p.calls.depth - 1 = 0 := by
        refine Nat.eq_zero_of_not_pos fun some => ?_
        obtain ⟨caller, there⟩ := CallStack.exists_top (s := p.calls.dropTop) (gone.depth ▸ some)
        rw [below] at there
        cases there
      rw [empty] at gone
      exact ⟨0, gone.ended rfl rfl rfl rfl⟩

/-- An exception drops the frames that it leaves, and the frame that it comes to goes on. -/
theorem drops_unwind (e : ObjectId) (depth : Nat) : ∀ (p : Process) (search : Bool)
    (trace : Option Traceback), ∃ m, p.Drops m (left (unwind e search trace depth p)) := by
  -- on the number of frames: what one frame hands over, its caller gets with one frame less
  induction depth with
  | zero => exact fun p search trace => ⟨_, Process.Quiet.refl p⟩
  | succ depth ih =>
    intro p search trace
    rw [unwind_succ, left_bind]
    cases top : p.calls.top? with
    | none =>
      rw [topFrame_none top]
      exact ⟨_, Process.Quiet.refl p⟩
    | some f =>
      rw [topFrame_eq top]
      have asked := left_asked (p := p) f search
      show ∃ m, p.Drops m (left ((_ >>= handOver e trace depth f) p))
      rw [left_bind]
      split
      · next target q ha =>
        rw [ha] at asked
        obtain rfl : q = p := asked
        exact drops_handOver top e trace target ih
      · next fault q ha =>
        rw [ha] at asked
        obtain rfl : q = p := asked
        exact ⟨_, Process.Quiet.refl q⟩

end Exec

/-! ## Instructions that do more -/

/-- A variable bound in a frame outward: the index of the frame, the variable, and the object. -/
structure OuterBinding where
  frame : Nat
  key : UInt64
  id : ObjectId
  deriving DecidableEq

/-- Whether the opcode puts arguments into a staged call. The others look at those of the running
frame. -/
def ArgumentOp.isPut : ArgumentOp → Bool
  | .put | .putNamed | .putAll | .putAllNamed => true
  | .take | .takeNamed | .takeAll | .takeAllNamed | .hasMore => false

namespace Process

/-- Index of the frame some links outward from the running one, if there is such a frame. -/
def outward? (p : Process) (links : Nat) : Option Nat :=
  (p.calls.ancestor (p.calls.depth - 1) links).toOption.filter (p.calls.get? · |>.isSome)

/-- What an instruction binds outward when it is executed. -/
def binds (p : Process) (i : Instruction) : Option OuterBinding :=
  match i.op, p.objects with
  | .variable .storeOuter, id :: _ =>
    (p.outward? i.second.toNat).map fun index => ⟨index, i.first, id⟩
  | _, _ => none

/-- The process with a variable bound outward. -/
def bindOuter (p : Process) (b : OuterBinding) : Process :=
  { p with calls := p.calls.modify b.frame (·.setVisible b.key b.id) }

/-- The process with an invocation changed. -/
def setInvocation (p : Process) (n : Nat) (j : Invocation) : Process :=
  { p with invocations := p.invocations.setIfInBounds n j }

/-- What an instruction changes, apart from the running frame: nothing, a variable of a frame
outward, an invocation, or it stages a call or makes one. -/
inductive Act (p : Process) (i : Instruction) : Process → Prop where
  | keep (inner : p.binds i = none) : Act p i p
  | bind {b : OuterBinding} (binds : p.binds i = some b) : Act p i (p.bindOuter b)
  | put {a : ArgumentOp} {f : Frame} {n : Nat} {j j' : Invocation} (op : i.op = .argument a)
    (puts : a.isPut = true) (top : p.calls.top? = some f) (above : f.invocation < n)
    (last : n + 1 = p.invocations.size) (there : p.invocations[n]? = some j)
    (callee : j'.callee = j.callee) : Act p i (p.setInvocation n j')
  | take {a : ArgumentOp} {f : Frame} {j j' : Invocation} (op : i.op = .argument a)
    (takes : a.isPut = false) (top : p.calls.top? = some f)
    (there : p.invocations[f.invocation]? = some j) (callee : j'.callee = j.callee) :
    Act p i (p.setInvocation f.invocation j')
  | stage {ref : ClosureRef} {c : Closure} (op : i.op = .control .stage)
    (resolves : p.resolve ref = .ok c) :
    Act p i { p with invocations := p.invocations.push (.new ref) }
  | call {f : Frame} {n : Nat} {j : Invocation} {c : Closure} {parent : Option Nat}
    (op : i.op = .control .invoke) (top : p.calls.top? = some f) (above : f.invocation < n)
    (last : n + 1 = p.invocations.size) (there : p.invocations[n]? = some j)
    (outward : p.lexicalParent j.callee = .ok parent) (resolves : p.resolve j.callee = .ok c)
    (room : p.calls.isFull = false) :
    Act p i { p with calls := p.calls.add (.new j.callee c.code n (some f.currentIndex) parent) }

/-- What executing an instruction in `p` may lead to: it acts, and then frames may leave, or the
running frame returns. -/
inductive Shift (p : Process) (i : Instruction) (q : Process) : Prop where
  | acts {m : Nat} {r : Process} (act : p.Act i r) (drops : r.Drops m q)
  | back {f : Frame} (op : i.op = .control .return) (top : p.calls.top? = some f)
    (returned : q = (p.afterReturn f).applyRules)

variable {p : Process} {i : Instruction}

/-- Outward lie the frames that the links lead to. -/
theorem outward?_eq_some_iff {links index : Nat} : p.outward? links = some index ↔
    p.calls.ancestor (p.calls.depth - 1) links = .ok index ∧
      ∃ f, p.calls.get? index = some f := by
  unfold outward?
  rw [Option.filter_eq_some_iff, Option.isSome_iff_exists]
  refine and_congr_left fun _ => ?_
  cases p.calls.ancestor (p.calls.depth - 1) links with
  | ok index' => exact ⟨fun h => by cases h; rfl, fun h => by cases h; rfl⟩
  | error fault => exact ⟨nofun, nofun⟩

theorem binds_eq_none (inner : i.op ≠ .variable .storeOuter) : p.binds i = none := by
  unfold binds
  split
  · next h _ => exact absurd h inner
  · rfl

/-- What keeps the frames is the least that an instruction does. -/
theorem Shift.quiet {q : Process} (inner : i.op ≠ .variable .storeOuter) (quiet : p.Quiet q) :
    p.Shift i q := .acts (.keep (binds_eq_none inner)) quiet

end Process

namespace Exec

variable {p : Process} {i : Instruction}

theorem left_bind_ok {α β : Type} {m : Exec α} {k : α → Exec β} {a : α} {q : Process}
    (h : m p = .ok a q) : left ((m >>= k) p) = left (k a q) := by rw [left_bind, h]

theorem left_bind_error {α β : Type} {m : Exec α} {k : α → Exec β} {fault : Fault} {q : Process}
    (h : m p = .error fault q) : left ((m >>= k) p) = q := by rw [left_bind, h]

theorem look_error {α : Type} {f : Process → Except Fault α} {fault : Fault}
    (h : f p = .error fault) : look f p = .error fault p := by
  unfold look
  rw [get_bind, h]
  rfl

theorem popObject_nil (h : p.objects = []) : popObject p = .error .objectStackEmpty p := by
  unfold popObject
  rw [get_bind, h]
  rfl

theorem topObject_nil (h : p.objects = []) : topObject p = .error .objectStackEmpty p := by
  unfold topObject
  rw [get_bind, h]
  rfl

theorem topObject_cons {id : ObjectId} {rest : List ObjectId} (h : p.objects = id :: rest) :
    topObject p = .ok id p := by
  unfold topObject
  rw [get_bind, h]
  rfl

/-! ### Variables outward -/

theorem shift_storeOuter (op : i.op = .variable .storeOuter) :
    p.Shift i (left (storeOuter i.first i.second.toNat p)) := by
  unfold storeOuter
  cases ho : p.objects with
  | nil =>
    rw [left_bind_error (popObject_nil ho)]
    exact .acts (.keep (by unfold Process.binds; rw [op, ho])) (Process.Quiet.refl p)
  | cons id rest =>
    have popped : p.Quiet { p with objects := rest } :=
      Process.quiet_elsewhere rfl rfl rfl rfl rfl
    have binds : p.binds i =
        (p.outward? i.second.toNat).map fun index => ⟨index, i.first, id⟩ := by
      unfold Process.binds
      rw [op, ho]
    -- the handler looks for the frame step by step; where a step fails, nothing is bound
    have nowhere : (∀ index g, p.calls.ancestor (p.calls.depth - 1) i.second.toNat = .ok index →
        p.calls.get? index ≠ some g) → p.binds i = none := by
      intro missing
      rw [binds, Option.map_eq_none_iff, Option.eq_none_iff_forall_ne_some]
      intro index found
      obtain ⟨outward, g, there⟩ := Process.outward?_eq_some_iff.mp found
      exact missing index g outward there
    rw [left_bind_ok (popObject_eq ho)]
    cases top : p.calls.top? with
    | none =>
      have missing : p.calls.get? (p.calls.depth - 1) = none :=
        Array.back?_eq_getElem?.symm.trans top
      rw [left_bind_error (topFrame_none (p := { p with objects := rest }) top)]
      refine .acts (.keep (nowhere fun index g outward => ?_)) popped
      rw [CallStack.ancestor, missing] at outward
      cases outward
    | some f =>
      rw [left_bind_ok (topFrame_eq (p := { p with objects := rest }) top)]
      cases outward : p.calls.ancestor (p.calls.depth - 1) i.second.toNat with
      | error fault =>
        rw [left_bind_error (look_error (p := { p with objects := rest }) outward)]
        refine .acts (.keep (nowhere fun index g outward' => ?_)) popped
        rw [outward] at outward'
        cases outward'
      | ok index =>
        rw [left_bind_ok (look_eq (p := { p with objects := rest }) outward), get_bind]
        cases there : p.calls.get? index with
        | none =>
          refine .acts (.keep (nowhere fun index' g outward' there' => ?_)) popped
          rw [outward] at outward'; cases outward'
          rw [there] at there'; cases there'
        | some g =>
          rw [Process.outward?_eq_some_iff.mpr ⟨outward, g, there⟩] at binds
          exact .acts (.bind binds) (Process.quiet_elsewhere rfl rfl rfl rfl rfl)

/-! ### Arguments -/

theorem ownInvocation_eq {f : Frame} {j : Invocation} (top : p.calls.top? = some f)
    (there : p.invocations[f.invocation]? = some j) :
    ownInvocation p = .ok (f.invocation, j) p := by
  refine (bind_ok (topFrame_eq top)).trans ?_
  rw [get_bind, there]
  rfl

theorem ownInvocation_none {f : Frame} (top : p.calls.top? = some f)
    (missing : p.invocations[f.invocation]? = none) :
    ownInvocation p = .error .invocationNotFound p := by
  refine (bind_ok (topFrame_eq top)).trans ?_
  rw [get_bind, missing]
  rfl

theorem stagedInvocation_eq {f : Frame} {n : Nat} {j : Invocation} (top : p.calls.top? = some f)
    (above : f.invocation < n) (last : n + 1 = p.invocations.size)
    (there : p.invocations[n]? = some j) : stagedInvocation p = .ok (n, j) p := by
  obtain rfl : n = p.invocations.size - 1 := by omega
  refine (bind_ok (topFrame_eq top)).trans ?_
  rw [get_bind, get_bind, there]
  exact congrFun (if_pos above) p

/-- Where a frame has no call staged, none is found. -/
theorem stagedInvocation_none {f : Frame} (top : p.calls.top? = some f)
    (low : p.invocations.size ≤ f.invocation + 1) :
    stagedInvocation p = .error .invocationNotFound p := by
  refine (bind_ok (topFrame_eq top)).trans ?_
  rw [get_bind, get_bind]
  cases p.invocations[p.invocations.size - 1]? with
  | none => rfl
  | some j => exact congrFun (if_neg (by omega)) p

theorem bind_error {α β : Type} {m : Exec α} {k : α → Exec β} {fault : Fault} {q : Process}
    (h : m p = .error fault q) : (m >>= k) p = .error fault q := by
  show EStateM.bind m k p = _
  unfold EStateM.bind
  rw [h]

/-- A call is staged or not. -/
theorem stagedInvocation_cases (p : Process) : (∃ fault, stagedInvocation p = .error fault p) ∨
    ∃ f n j, p.calls.top? = some f ∧ f.invocation < n ∧ n + 1 = p.invocations.size ∧
      p.invocations[n]? = some j ∧ stagedInvocation p = .ok (n, j) p := by
  cases top : p.calls.top? with
  | none => exact .inl ⟨_, bind_error (topFrame_none top)⟩
  | some f =>
    by_cases low : p.invocations.size ≤ f.invocation + 1
    · exact .inl ⟨_, stagedInvocation_none top low⟩
    · obtain ⟨j, there⟩ : ∃ j, p.invocations[p.invocations.size - 1]? = some j :=
        ⟨_, Array.getElem?_eq_getElem (by omega)⟩
      exact .inr ⟨f, _, j, rfl, by omega, by omega, there,
        stagedInvocation_eq top (by omega) (by omega) there⟩

theorem ownInvocation_cases (p : Process) : (∃ fault, ownInvocation p = .error fault p) ∨
    ∃ f j, p.calls.top? = some f ∧ p.invocations[f.invocation]? = some j ∧
      ownInvocation p = .ok (f.invocation, j) p := by
  cases top : p.calls.top? with
  | none => exact .inl ⟨_, bind_error (topFrame_none top)⟩
  | some f =>
    cases there : p.invocations[f.invocation]? with
    | none => exact .inl ⟨_, ownInvocation_none top there⟩
    | some j => exact .inr ⟨f, j, rfl, there, ownInvocation_eq top there⟩

theorem left_updateStaged {f : Frame} {n : Nat} {j : Invocation} (top : p.calls.top? = some f)
    (above : f.invocation < n) (last : n + 1 = p.invocations.size)
    (there : p.invocations[n]? = some j) (g : Invocation → Invocation) :
    left (updateStaged g p) = p.setInvocation n (g j) :=
  left_bind_ok (stagedInvocation_eq top above last there)

/-- To change the call staged last is all that `updateStaged` does. -/
theorem updateStaged_cases (g : Invocation → Invocation) (p : Process) :
    left (updateStaged g p) = p ∨ ∃ f n j, p.calls.top? = some f ∧ f.invocation < n ∧
      n + 1 = p.invocations.size ∧ p.invocations[n]? = some j ∧
        left (updateStaged g p) = p.setInvocation n (g j) := by
  rcases stagedInvocation_cases p with ⟨fault, none⟩ | ⟨f, n, j, top, above, last, there, -⟩
  · exact .inl (left_bind_error none)
  · exact .inr ⟨f, n, j, top, above, last, there, left_updateStaged top above last there g⟩

theorem takeOwn_eq {α : Type} {f : Frame} {j j' : Invocation} {a : α}
    {take : Invocation → Except Fault (α × Invocation)} (top : p.calls.top? = some f)
    (there : p.invocations[f.invocation]? = some j) (taken : take j = .ok (a, j')) :
    takeOwn take p = .ok a (p.setInvocation f.invocation j') := by
  have lifted : lift (take j) p = .ok (a, j') p := by rw [taken]; rfl
  exact (bind_ok (ownInvocation_eq top there)).trans (bind_ok lifted)

theorem takeOwn_error {α : Type} {f : Frame} {j : Invocation} {fault : Fault}
    {take : Invocation → Except Fault (α × Invocation)} (top : p.calls.top? = some f)
    (there : p.invocations[f.invocation]? = some j) (failed : take j = .error fault) :
    takeOwn take p = .error fault p := by
  have lifted : lift (take j) p = .error fault p := by rw [failed]; rfl
  exact (bind_ok (ownInvocation_eq top there)).trans (bind_error lifted)

/-- What is taken comes out of the running frame's invocation. -/
theorem takeOwn_cases {α : Type} (take : Invocation → Except Fault (α × Invocation))
    (p : Process) : (∃ fault, takeOwn take p = .error fault p) ∨
      ∃ f j a j', p.calls.top? = some f ∧ p.invocations[f.invocation]? = some j ∧
        take j = .ok (a, j') ∧ takeOwn take p = .ok a (p.setInvocation f.invocation j') := by
  rcases ownInvocation_cases p with ⟨fault, none⟩ | ⟨f, j, top, there, -⟩
  · exact .inl ⟨fault, bind_error none⟩
  · cases taken : take j with
    | error fault => exact .inl ⟨fault, takeOwn_error top there taken⟩
    | ok aj => exact .inr ⟨f, j, aj.1, aj.2, top, there, taken, takeOwn_eq top there taken⟩

variable {a : ArgumentOp}

/-- An opcode that puts arguments changes the call staged last, once its operand has been popped. -/
theorem shift_put (op : i.op = .argument a) (puts : a.isPut = true) (objects : List ObjectId)
    {g : Invocation → Invocation} (callee : ∀ j, (g j).callee = j.callee) :
    p.Shift i (left (updateStaged g { p with objects })) := by
  rcases updateStaged_cases g { p with objects } with
    same | ⟨f, n, j, top, above, last, there, changed⟩
  · rw [same]
    exact .quiet (by rw [op]; nofun) (Process.quiet_elsewhere rfl rfl rfl rfl rfl)
  · rw [changed]
    exact .acts (.put op puts top above last there (callee j))
      (Process.quiet_elsewhere rfl rfl rfl rfl rfl)

/-- An opcode that takes arguments changes the running frame's invocation, and goes on quietly. -/
theorem shift_take {α : Type} (op : i.op = .argument a) (takes : a.isPut = false)
    {take : Invocation → Except Fault (α × Invocation)} {k : α → Exec Unit}
    (callee : ∀ j a j', take j = .ok (a, j') → j'.callee = j.callee) (quiet : ∀ a, IsQuiet (k a)) :
    p.Shift i (left ((takeOwn take >>= k) p)) := by
  rcases takeOwn_cases take p with ⟨fault, none⟩ | ⟨f, j, a, j', top, there, taken, changed⟩
  · rw [left_bind_error none]
    exact .quiet (by rw [op]; nofun) (.refl p)
  · rw [left_bind_ok changed]
    exact .acts (.take op takes top there (callee j a j' taken)) (quiet a _)

theorem shift_runArgument (op : i.op = .argument a) : p.Shift i (left (runArgument a i p)) := by
  have keep : ∀ {q}, p.Quiet q → p.Shift i q := Process.Shift.quiet (by rw [op]; nofun)
  -- an opcode that puts arguments first pops its operand
  have popped : ∀ {k : ObjectId → Exec Unit},
      (∀ id objects, p.Shift i (left (k id { p with objects }))) →
        p.Shift i (left ((popObject >>= k) p)) := by
    intro k next
    cases ho : p.objects with
    | nil =>
      rw [left_bind_error (popObject_nil ho)]
      exact keep (.refl p)
    | cons id rest =>
      rw [left_bind_ok (popObject_eq ho)]
      exact next id rest
  have read : ∀ {id : ObjectId} {objects : List ObjectId} {k : Value → Exec Unit},
      (∀ v, p.Shift i (left (k v { p with objects }))) →
        p.Shift i (left ((look (·.valueOf id) >>= k) { p with objects })) := by
    intro id objects k next
    cases hv : Process.valueOf { p with objects } id with
    | error fault =>
      rw [left_bind_error (look_error hv)]
      exact keep (Process.quiet_elsewhere rfl rfl rfl rfl rfl)
    | ok v =>
      rw [left_bind_ok (look_eq hv)]
      exact next v
  cases a with
  | put => exact popped fun id objects => shift_put op rfl objects fun _ => rfl
  | putNamed => exact popped fun id objects => shift_put op rfl objects fun _ => rfl
  | putAll =>
    refine popped fun id objects => read fun v => ?_
    rw [left_bind]
    cases v.asArray "putargs" with
    | error e => exact keep (Process.quiet_elsewhere rfl rfl rfl rfl rfl)
    | ok items => exact shift_put op rfl objects fun _ => rfl
  | putAllNamed =>
    refine popped fun id objects => read fun v => ?_
    rw [left_bind]
    cases v.asMap "putkwargs" with
    | error e => exact keep (Process.quiet_elsewhere rfl rfl rfl rfl rfl)
    | ok entries => exact shift_put op rfl objects fun _ => rfl
  | take =>
    exact shift_take op rfl (takes_next (.empty 0)).callee quiet_pushObject
  | takeNamed =>
    show p.Shift i (left (takeNamed i.first i.second p))
    unfold takeNamed
    rcases ownInvocation_cases p with ⟨fault, none⟩ | ⟨f, j, top, there, found⟩
    · rw [left_bind_error none]
      exact keep (.refl p)
    · rw [left_bind_ok found]
      dsimp only
      split
      · exact shift_take op rfl (takes_named (.empty 0) i.first).callee fun id =>
          (quiet_pushObject id).bind fun _ => quiet_move (moves_skip (.empty 0) i.second)
      · exact keep (.refl p)
  | takeAll =>
    refine shift_take op rfl (takes_remaining (.empty 0)).callee fun _ => ?_
    exact (quiet_newObjectWith _).bind quiet_pushObject
  | takeAllNamed =>
    refine shift_take op rfl (takes_allNamed (.empty 0)).callee fun _ => ?_
    exact (quiet_newObjectWith _).bind quiet_pushObject
  | hasMore => exact keep (quiet_ownInvocation.bind (fun _ => quiet_pushValue _) p)

/-! ### Control -/

theorem shift_stageCall (op : i.op = .control .stage) : p.Shift i (left (stageCall p)) := by
  have keep : ∀ {q}, p.Quiet q → p.Shift i q := Process.Shift.quiet (by rw [op]; nofun)
  unfold stageCall object
  cases ho : p.objects with
  | nil =>
    refine keep ?_
    rw [left_bind_error (topObject_nil ho)]
    exact .refl p
  | cons id rest =>
    rw [left_bind_ok (topObject_cons ho)]
    cases hobj : p.object id with
    | error fault =>
      rw [left_bind_error (look_error hobj)]
      exact keep (.refl p)
    | ok o =>
      rw [left_bind_ok (look_eq hobj)]
      cases (if o.hasFlag .uncallable then none else o.closure) with
      | none => exact keep (.refl p)
      | some ref =>
        dsimp only
        cases resolves : p.resolve ref with
        | error fault =>
          rw [left_bind_error (look_error resolves)]
          exact keep (.refl p)
        | ok c =>
          rw [left_bind_ok (look_eq resolves)]
          exact .acts (.stage op resolves) (Process.Quiet.refl _)

/-- A frame is made if there is room for it. -/
theorem pushFrame_eq {ref : ClosureRef} {n : Nat} {address parent : Option Nat} {c : Closure}
    (outward : p.lexicalParent ref = .ok parent) (resolves : p.resolve ref = .ok c) :
    pushFrame ref n address p =
      if p.calls.isFull then
        .error (.callStackOverflow p.calls.maxDepth)
          (p.note (.called c.name ref (p.calls.depth + 1)))
      else
        .ok () { p.note (.called c.name ref (p.calls.depth + 1)) with
          calls := p.calls.add (.new ref c.code n address parent) } := by
  refine (bind_ok (look_eq outward)).trans ((bind_ok (look_eq resolves)).trans ?_)
  refine (bind_ok rfl).trans ((bind_ok rfl).trans ((bind_ok rfl).trans ?_))
  show (if p.calls.isFull then _ else _ : Exec Unit) _ = _
  split <;> rfl

/-- The call staged last is made for its callee. -/
theorem makeCall_eq {f : Frame} {n : Nat} {j : Invocation} (top : p.calls.top? = some f)
    (above : f.invocation < n) (last : n + 1 = p.invocations.size)
    (there : p.invocations[n]? = some j) :
    makeCall p = pushFrame j.callee n (some f.currentIndex) p :=
  (bind_ok (stagedInvocation_eq top above last there)).trans (bind_ok (topFrame_eq top))

theorem shift_makeCall (op : i.op = .control .invoke) : p.Shift i (left (makeCall p)) := by
  have keep : ∀ {q}, p.Quiet q → p.Shift i q := Process.Shift.quiet (by rw [op]; nofun)
  rcases stagedInvocation_cases p with ⟨fault, none⟩ | ⟨f, n, j, top, above, last, there, -⟩
  · unfold makeCall
    rw [left_bind_error none]
    exact keep (.refl p)
  · rw [makeCall_eq top above last there]
    cases outward : p.lexicalParent j.callee with
    | error fault =>
      unfold pushFrame
      rw [left_bind_error (look_error outward)]
      exact keep (.refl p)
    | ok parent =>
      cases resolves : p.resolve j.callee with
      | error fault =>
        unfold pushFrame
        rw [left_bind_ok (look_eq outward), left_bind_error (look_error resolves)]
        exact keep (.refl p)
      | ok c =>
        rw [pushFrame_eq outward resolves]
        split
        · exact keep (Process.quiet_elsewhere rfl rfl rfl rfl rfl)
        · next room =>
          have room := Bool.eq_false_iff.mpr room
          exact .acts (.call op top above last there outward resolves room)
            (Process.quiet_elsewhere rfl rfl rfl rfl rfl)

theorem shift_return (op : i.op = .control .return) : p.Shift i (left (returnFromFrame p)) := by
  cases top : p.calls.top? with
  | some f =>
    rw [returnFromFrame_eq top]
    exact .back op top rfl
  | none =>
    refine .quiet (by rw [op]; nofun) ?_
    unfold returnFromFrame popFrame
    rw [left_bind_error (bind_error (topFrame_none top))]
    exact .refl p

theorem shift_raise (op : i.op = .control .raise) :
    p.Shift i (left (runControl .raise i p)) := by
  have inner : p.binds i = none := Process.binds_eq_none (by rw [op]; nofun)
  show p.Shift i (left ((popObject >>= _) p))
  cases ho : p.objects with
  | nil =>
    rw [left_bind_error (popObject_nil ho)]
    exact .acts (.keep inner) (Process.Quiet.refl p)
  | cons e rest =>
    rw [left_bind_ok (popObject_eq ho)]
    obtain ⟨m, drops⟩ := drops_unwind e p.calls.depth { p with objects := rest } (i.first != 0) none
    refine .acts (.keep inner) (Process.Quiet.drops ?_ drops)
    exact Process.quiet_elsewhere rfl rfl rfl rfl rfl

theorem quiet_exit (status : UInt64) : IsQuiet (exit status) :=
  (quiet_note _).bind fun _ => fun p =>
    Process.quiet_of_same rfl rfl rfl rfl fun o final ho => by cases ho; cases final

theorem shift_runControl {op : ControlOp} (hop : i.op = .control op) :
    p.Shift i (left (runControl op i p)) := by
  have keep : ∀ {m : Exec Unit}, IsQuiet m → p.Shift i (left (m p)) := fun quiet =>
    .quiet (by rw [hop]; nofun) (quiet p)
  cases op with
  | stage => exact shift_stageCall hop
  | invoke => exact shift_makeCall hop
  | «return» => exact shift_return hop
  | jump => exact keep (quiet_jump i)
  | jumpIf =>
    refine keep (quiet_topValue.bind fun v => ?_)
    split
    · exact quiet_jump i
    · exact .pure _
  | jumpTo => exact keep (quiet_move (moves_goTo (.empty 0) _))
  | raise => exact shift_raise hop
  | loadException =>
    refine keep (quiet_topFrame.bind fun f => ?_)
    cases f.exception with
    | some id => exact quiet_pushObject id
    | none => exact .throw _
  | clearException => exact keep (quiet_changeFrame fun f => goesOn_setException f none)
  | jumpException =>
    refine keep (quiet_topFrame.bind fun f => ?_)
    split
    · exact quiet_jump i
    · exact .pure _
  | exit => exact keep (quiet_exit _)

/-- What an instruction does to frames and invocations, whether it succeeds or fails. -/
theorem shift_execute (p : Process) (i : Instruction) : p.Shift i (left (execute i p)) := by
  have keep : ∀ {m : Exec Unit}, i.op ≠ .variable .storeOuter → IsQuiet m →
      p.Shift i (left (m p)) := fun inner quiet => .quiet inner (quiet p)
  unfold execute
  cases hop : i.op with
  | object op => exact keep (by rw [hop]; nofun) (quiet_runObject op i)
  | «variable» op =>
    by_cases outer : op = .storeOuter
    · subst outer
      exact shift_storeOuter hop
    · refine keep (fun same => outer ?_) (quiet_runVariable outer i)
      rw [hop] at same
      exact Op.variable.inj same
  | «attribute» op source =>
    exact keep (by rw [hop]; nofun) ((quiet_readName source i).bind (quiet_runAttribute op))
  | setAttributes => exact keep (by rw [hop]; nofun) quiet_setAttributes
  | handle op => exact keep (by rw [hop]; nofun) (quiet_runHandle op i)
  | control op => exact shift_runControl hop
  | argument op => exact shift_runArgument hop
  | runtime op => exact keep (by rw [hop]; nofun) (quiet_runRuntime op i)
  | stack op => exact keep (by rw [hop]; nofun) (quiet_runStack op)
  | constant op => exact keep (by rw [hop]; nofun) (quiet_runConstant op i)
  | value op => exact keep (by rw [hop]; nofun) (quiet_perform op.action)

end Exec

end ObjectVM
