import ObjectVM.Proofs.Pace

/-!
# A caller while it waits

A call is staged, then made, and ends when the frame made for it returns. Meanwhile that frame and
the calls nested in it execute whatever they do, and the machine collects and handles signals. The
caller waits unchanged (`Process.Awaits`): only bindings of its visible variables are made from
frames that have it outward, and the invocations below the call's stay. The return gives it back
control right behind its call, with the invocation stack as it was before the call was staged
(`callers_wait`).
-/
namespace ObjectVM

namespace Process

/-! ## Calls -/

/-- The frame at `k` runs and stages a call, whose invocation comes to `n`. -/
structure Stages (p : Process) (k n : Nat) (q : Process) : Prop where
  running : p.calls.depth = k + 1
  before : p.invocations.size = n
  executes : ∃ i, p.next? = some i ∧ i.op = .control .stage ∧ q = p.fetched.after (.execute i)
  after : q.invocations.size = n + 1

/-- The frame at `k` has the call at `n` staged, whether it runs or waits for another call. -/
structure Pending (k n : Nat) (p : Process) : Prop where
  running : k < p.calls.depth
  staged : n < p.invocations.size
  above : ∀ g, p.calls.frames[k + 1]? = some g → n < g.invocation

/-- The frame at `k` runs and makes the call at `n`, which is the last that is staged. -/
structure Makes (p : Process) (k n : Nat) (q : Process) : Prop where
  running : p.calls.depth = k + 1
  last : p.invocations.size = n + 1
  executes : ∃ i, p.next? = some i ∧ i.op = .control .invoke ∧ q = p.fetched.after (.execute i)
  made : q.calls.depth = k + 2

/-- The frame for a call of the frame at `k` is there. -/
def CalledFrom (k : Nat) (p : Process) : Prop := k + 1 < p.calls.depth

/-- In `p` the frame at `k` stages a call at `n`, and in `a` it has it staged still. `sent` is what
has been executed since. -/
def Prepares (p : Process) (k n : Nat) (sent : Log) (a : Process) : Prop :=
  ∃ q, p.Stages k n q ∧ Runs (Pending k n) q sent a

/-- In `a` the frame at `k` makes the call at `n`, and in `p` the call has not ended. `log` is what
has been executed since. -/
def Enters (a : Process) (k n : Nat) (log : Log) (p : Process) : Prop :=
  ∃ q, a.Makes k n q ∧ Runs (CalledFrom k) q log p

/-- The running frame returns, by an instruction or because its code has ended. -/
inductive Returns (p : Process) : Process → Prop where
  | instruction {i : Instruction} (next : p.next? = some i) (op : i.op = .control .return) :
    Returns p (p.fetched.after (.execute i))
  | ended {f : Frame} (top : p.calls.top? = some f) (ended : f.canExecute = false)
    (own : f.suspended = []) : Returns p (Exec.left (Exec.finishCode f p))

/-- What an instruction binds in the frame at `k` from a frame that has it outward. -/
def bindingsAt (p : Process) (i : Instruction) (k : Nat) : List (UInt64 × ObjectId) :=
  ((p.binds i).toList.filter (·.frame = k)).map fun b => (b.key, b.id)

/-- What a log binds in the frame at `k` from outside, in order. -/
def Log.bindings (log : Log) (k : Nat) : List (UInt64 × ObjectId) :=
  log.flatMap fun e => e.1.bindingsAt e.2 k

end Process

/-- The frame with visible variables bound one after another. -/
def Frame.bindAll (f : Frame) (bindings : List (UInt64 × ObjectId)) : Frame :=
  { f with visible := f.visible.insertAll bindings }

/-- The frame at `k`, which has made the call at `n` in `a`, waits in `p`. -/
structure Process.Awaits (k n : Nat) (a : Process) (log : Log) (p : Process) : Prop where
  frame : ∃ f, a.fetched.calls.frames[k]? = some f ∧
    p.calls.frames[k]? = some (f.bindAll (log.bindings k))
  invocations : ∀ m, m < n → p.invocations[m]? = a.invocations[m]?

/-- How the frame at `k` fares while the call at `n` lasts, which it has made in `a`. It waits right
behind the instruction that makes the call. Bindings in it come from frames that have it outward. To
return gives it back control, and the invocation stack as it was before the call was staged. -/
structure Process.Isolated (k n : Nat) (a : Process) (log : Log) (p : Process) : Prop
    extends Awaits k n a log p where
  behind : ∃ f i, a.fetched.calls.frames[k]? = some f ∧ f.code[f.currentIndex]? = some i ∧
    f.pc = f.currentIndex + 1 ∧ i.op = .control .invoke
  own : ∀ f, p.calls.frames[k]? = some f → f.invocation < n
  outward : ∀ e ∈ log, e.1.bindingsAt e.2 k ≠ [] →
    ∃ links, e.1.calls.ancestor (e.1.calls.depth - 1) links = .ok k
  resumes : ∀ r, p.calls.depth = k + 2 → p.Returns r →
    r.calls.depth = k + 1 ∧ r.calls.top? = p.calls.frames[k]?
  restores : ∀ r, p.calls.depth = k + 2 → p.Returns r →
    r.invocations.size = n ∧ (∀ m, m < n → r.invocations[m]? = a.invocations[m]?) ∧
      ∀ (p₀ : Process) (sent : Log), p₀.Prepares k n sent a →
        r.invocations.size = p₀.invocations.size

/-! ## What a step leaves alone -/

theorem KeyMap.insertAll_append {α : Type} (m : KeyMap α) (l l' : List (UInt64 × α)) :
    m.insertAll (l ++ l') = (m.insertAll l).insertAll l' := List.foldl_append

theorem Frame.bindAll_append (f : Frame) (l l' : List (UInt64 × ObjectId)) :
    f.bindAll (l ++ l') = (f.bindAll l).bindAll l' :=
  congrArg (fun visible => { f with visible }) (KeyMap.insertAll_append _ _ _)

/-- `f'` is the activation that `f` is, whatever it has done since. -/
structure Frame.SameCall (f f' : Frame) : Prop extends Alike f f' where
  returnAddress : f'.returnAddress = f.returnAddress
  parent : f'.parent = f.parent

namespace Frame

variable {f f' f'' : Frame}

theorem SameCall.refl (f : Frame) : f.SameCall f := ⟨.refl f, rfl, rfl⟩

theorem SameCall.trans (a : f.SameCall f') (b : f'.SameCall f'') : f.SameCall f'' :=
  ⟨⟨b.closure.trans a.closure, b.ownCode.trans a.ownCode, b.invocation.trans a.invocation⟩,
    b.returnAddress.trans a.returnAddress, b.parent.trans a.parent⟩

theorem sameCall_bindAll (f : Frame) (bindings : List (UInt64 × ObjectId)) :
    f.SameCall (f.bindAll bindings) := ⟨⟨rfl, rfl, rfl⟩, rfl, rfl⟩

theorem GoesOn.sameCall (on : f.GoesOn f') : f.SameCall f' :=
  ⟨on.toAlike, on.returnAddress, on.parent⟩

end Frame

namespace Process

variable {p q r : Process} {i : Instruction} {f g : Frame} {k l m n : Nat}
  {label : Option (Process × Instruction)}

/-- Outward is where the links of the running frame lead. -/
theorem exists_outward_of_bindingsAt {e : UInt64 × ObjectId} (mem : e ∈ p.bindingsAt i k) :
    ∃ links, p.calls.ancestor (p.calls.depth - 1) links = .ok k := by
  obtain ⟨b, listed, -⟩ := List.mem_map.mp mem
  obtain ⟨made, here⟩ := List.mem_filter.mp listed
  have binds : p.binds i = some b := Option.mem_toList.mp made
  obtain rfl : b.frame = k := by simpa using here
  unfold Process.binds at binds
  split at binds
  · obtain ⟨index, found, rfl⟩ := Option.map_eq_some_iff.mp binds
    exact ⟨_, (outward?_eq_some_iff.mp found).1⟩
  · cases binds

theorem bindingsAt_eq_nil (inner : p.binds i = none) : p.bindingsAt i k = [] := by
  unfold bindingsAt
  rw [inner]
  rfl

/-- An instruction acts on a frame only by binding variables in it. -/
theorem Act.frame (a : p.Act i r) (there : p.calls.frames[k]? = some f) :
    r.calls.frames[k]? = some (f.bindAll (p.bindingsAt i k)) := by
  have keep : p.binds i = none → p.calls.frames[k]? = some (f.bindAll (p.bindingsAt i k)) :=
    fun inner => by
      rw [bindingsAt_eq_nil inner]
      exact there
  cases a with
  | keep inner => exact keep inner
  | @bind b binds =>
    show (p.calls.frames.modify b.frame _)[k]? = _
    unfold bindingsAt
    rw [Array.getElem?_modify, binds, there]
    by_cases here : b.frame = k
    · simp [here, Frame.bindAll, KeyMap.insertAll, Frame.setVisible]
    · simp [here, Frame.bindAll, KeyMap.insertAll]
  | put op | take op | stage op => exact keep (binds_eq_none (by rw [op]; nofun))
  | call op =>
    show (p.calls.frames.push _)[k]? = _
    refine (Array.getElem?_push.trans (if_neg (Nat.ne_of_lt (CallStack.lt_depth there)))).trans ?_
    exact keep (binds_eq_none (by rw [op]; nofun))

/-- To return changes no frame below but the counter of the caller. -/
theorem sameCall_afterReturn (there : p.calls.frames[k]? = some g)
    (stays : k < (p.calls.afterReturn f).depth) :
    ∃ g', (p.calls.afterReturn f).frames[k]? = some g' ∧ g.SameCall g' := by
  obtain ⟨g', there'⟩ := CallStack.exists_frame stays
  refine ⟨g', there', ?_⟩
  unfold CallStack.afterReturn at there'
  split at there'
  · replace there' : (p.calls.frames.pop.modify _ _)[k]? = some g' := there'
    rcases getElem?_modify_cases there' with ⟨-, caller, hc, rfl⟩ | there'
    · rw [getElem?_of_pop hc] at there
      cases there
      exact ⟨⟨rfl, rfl, rfl⟩, rfl, rfl⟩
    · rw [getElem?_of_pop there'] at there
      cases there
      exact .refl g
  · rw [getElem?_of_pop there'] at there
    cases there
    exact .refl g

theorem Drops.sameCall (d : p.Drops m q) (there : p.calls.frames[k]? = some g)
    (stays : k < q.calls.depth) : ∃ g', q.calls.frames[k]? = some g' ∧ g.SameCall g' := by
  obtain ⟨g', there', on⟩ := d.frame_of (d.depth ▸ stays) there
  exact ⟨g', there', on.sameCall⟩

/-- A frame that returns leaves those below as the calls that they are. -/
theorem sameCall_back (there : p.calls.frames[k]? = some g)
    (stays : k < (p.afterReturn f).applyRules.calls.depth) :
    ∃ g', (p.afterReturn f).applyRules.calls.frames[k]? = some g' ∧ g.SameCall g' := by
  have quiet := Exec.quiet_applyRules (p.afterReturn f)
  obtain ⟨g₁, h₁, same₁⟩ := sameCall_afterReturn (f := f) there (quiet.depth ▸ stays)
  obtain ⟨g₂, h₂, same₂⟩ := quiet.sameCall h₁ stays
  exact ⟨g₂, h₂, same₁.trans same₂⟩

/-- A frame that is there before and after an instruction is the same call. -/
theorem Shift.sameCall (s : p.Shift i q) (there : p.calls.frames[k]? = some g)
    (stays : k < q.calls.depth) : ∃ g', q.calls.frames[k]? = some g' ∧ g.SameCall g' := by
  cases s with
  | acts act drops =>
    obtain ⟨g', there', same⟩ := drops.sameCall (act.frame there) stays
    exact ⟨g', there', (g.sameCall_bindAll _).trans same⟩
  | back _ _ returned =>
    subst returned
    exact sameCall_back there stays

/-- And before and after a step. -/
theorem Step.sameCall (s : p.Step label q) (there : p.calls.frames[k]? = some g)
    (stays : k < q.calls.depth) : ∃ g', q.calls.frames[k]? = some g' ∧ g.SameCall g' := by
  rcases s.cases with ⟨i, -, -, rfl⟩ | ⟨-, quiet⟩ | ⟨-, f, -, -, -, rfl⟩
  · obtain ⟨g₁, h₁, on⟩ := p.quiet_fetched.frame_of (CallStack.lt_depth there) there
    obtain ⟨g₂, h₂, same⟩ := (Exec.shift_execute p.fetched i).sameCall h₁ stays
    exact ⟨g₂, h₂, on.sameCall.trans same⟩
  · exact quiet.sameCall there stays
  · exact sameCall_back there stays

/-- A frame that waits stays as it is, apart from what is bound in it from outside. -/
theorem Paced.step_frame (c : p.Paced) (s : p.Step label q) (waits : CalledFrom k p)
    (still : CalledFrom k q) (there : p.calls.frames[k]? = some f) :
    q.calls.frames[k]? = some (f.bindAll (Log.bindings label.toList k)) := by
  rcases c.step_cases s with ⟨i, r, m, rfl, next, act, drops⟩ | ⟨rfl, m, drops⟩
  · have fetched : p.fetched.calls.frames[k]? = some f :=
      (p.quiet_fetched.below k waits).trans there
    refine (drops.below k (drops.depth ▸ still)).trans ((act.frame fetched).trans ?_)
    simp [Log.bindings]
  · exact (drops.below k (drops.depth ▸ still)).trans there

/-- The frame at `l` loses none of the invocations up to its own, and the others' instructions
change none of them. Its own it may take arguments from. -/
theorem CallsMatch.act_invocation (c : p.CallsMatch) (a : p.Act i r)
    (there : p.calls.frames[l]? = some g) (low : m ≤ g.invocation)
    (alone : m < g.invocation ∨ l + 1 < p.calls.depth ∨
      ∀ a, i.op = .argument a → a.isPut = true) :
    r.invocations[m]? = p.invocations[m]? := by
  have owned := c.owned there
  have set : ∀ {n : Nat} {j : Invocation}, n ≠ m →
      (p.invocations.setIfInBounds n j)[m]? = p.invocations[m]? := fun other =>
    Array.getElem?_setIfInBounds_ne other
  cases a with
  | keep | bind | call => rfl
  | put _ _ top above _ there' =>
    have := c.le_top top there
    exact set (by omega)
  | @take a f _ _ op takes top _ _ =>
    refine set fun same => ?_
    rcases alone with lower | inner | puts
    · have := c.le_top top there
      omega
    · have := c.rising l _ g f (by omega) there (CallStack.frame_of_top top)
      omega
    · rw [puts a op] at takes
      cases takes
  | stage =>
    show (p.invocations.push _)[m]? = _
    rw [Array.getElem?_push, if_neg (by omega)]

/-- The frame at `l` keeps its invocation and those below in a step that leaves it there, unless it
takes arguments itself. -/
theorem CallsMatch.step_invocation (c : p.CallsMatch) (paced : p.Paced) (s : p.Step label q)
    (there : p.calls.frames[l]? = some g) (stays : l < q.calls.depth) (low : m ≤ g.invocation)
    (alone : m < g.invocation ∨ l + 1 < p.calls.depth ∨
      ∀ e ∈ label, ∀ a, e.2.op = .argument a → a.isPut = true) :
    q.invocations[m]? = p.invocations[m]? := by
  have drop : ∀ {r : Process} {g : Frame} {n : Nat}, r.CallsMatch → r.Drops n q →
      r.calls.frames[l]? = some g → m ≤ g.invocation →
        q.invocations[m]? = r.invocations[m]? := fun {r g n} c d hg low => by
    refine d.kept m fun l' g' hl' hg' => ?_
    have := c.rising l l' g g' (by rw [d.depth] at stays; omega) hg hg'
    omega
  have lt := CallStack.lt_depth there
  rcases paced.step_cases s with ⟨i, r, n, rfl, next, act, drops⟩ | ⟨-, n, drops⟩
  · have quiet := p.quiet_fetched
    have fetched := c.quiet quiet
    obtain ⟨f, top, -⟩ := next?_eq_some_iff.mp next
    have acted := fetched.act (quiet.depth.symm ▸ CallStack.depth_pos top) act
    obtain ⟨g', hg', on⟩ := quiet.frame_of lt there
    have low' : m ≤ g'.invocation := on.invocation ▸ low
    refine (drop acted drops (act.frame hg') low').trans
      ((fetched.act_invocation act hg' low' ?_).trans (congrArg (·[m]?) quiet.invocations))
    rw [on.invocation, quiet.depth]
    exact alone.imp_right (Or.imp_right fun puts => puts (p.fetched, i) rfl)
  · exact drop c drops there low

/-! ## While a call lasts -/

/-- The frame at `k + 1` has been made for the call at `n`. -/
structure Inside (k n : Nat) (p : Process) : Prop where
  matched : p.CallsMatch
  paced : p.Paced
  called : CalledFrom k p
  callee : ∃ g, p.calls.frames[k + 1]? = some g ∧ g.invocation = n

theorem Inside.step (c : Inside k n p) (s : p.Step label q) (still : CalledFrom k q) :
    Inside k n q := by
  obtain ⟨g, hg, place⟩ := c.callee
  obtain ⟨g', hg', same⟩ := s.sameCall hg still
  exact ⟨c.matched.step s, c.paced.step s, still, g', hg', same.invocation.trans place⟩

theorem Awaits.step {a : Process} {log : Log} (w : Awaits k n a log p) (c : Inside k n p)
    (s : p.Step label q) (still : CalledFrom k q) : Awaits k n a (log ++ label.toList) q := by
  obtain ⟨f, start, now⟩ := w.frame
  refine ⟨⟨f, start, ?_⟩, fun m hm => ?_⟩
  · rw [c.paced.step_frame s c.called still now, ← Frame.bindAll_append]
    unfold Log.bindings
    rw [List.flatMap_append]
  · obtain ⟨g, hg, rfl⟩ := c.callee
    exact (c.matched.step_invocation c.paced s hg still (Nat.le_of_lt hm) (.inl hm)).trans
      (w.invocations m hm)

/-! ## Beginning and end -/

/-- An instruction that is executed is a step, in which it acts and then frames leave. -/
theorem Paced.executes {o : Op} (c : p.Paced)
    (executes : ∃ i, p.next? = some i ∧ i.op = o ∧ q = p.fetched.after (.execute i)) :
    ∃ i r m, i.op = o ∧ p.Step (some (p.fetched, i)) q ∧ p.fetched.Act i r ∧ r.Drops m q := by
  obtain ⟨i, next, op, rfl⟩ := executes
  obtain ⟨r, m, act, drops⟩ := (c.quiet p.quiet_fetched).acts (Exec.shift_execute p.fetched i)
  exact ⟨i, r, m, op, .instruction next, act, drops⟩

/-- To make a call is to add the frame for it. -/
theorem Makes.inside {a : Process} (c : a.CallsMatch) (paced : a.Paced) (s : a.Makes k n q) :
    Inside k n q ∧ Awaits k n a [] q := by
  obtain ⟨i, r, m, op, step, act, drops⟩ := paced.executes s.executes
  have quiet := a.quiet_fetched
  have depth : a.fetched.calls.depth = k + 1 := quiet.depth.trans s.running
  have called : CalledFrom k q := by
    unfold CalledFrom
    rw [s.made]
    exact Nat.lt_succ_self _
  have invocations : a.fetched.invocations = a.invocations := quiet.invocations
  obtain rfl : m = k + 2 := drops.depth.symm.trans s.made
  obtain ⟨f, there⟩ := CallStack.exists_frame (s := a.fetched.calls) (n := k) (by omega)
  have frame := drops.below k (Nat.lt_succ_self _)
  rw [act.frame there, bindingsAt_eq_nil (binds_eq_none (by rw [op]; nofun))] at frame
  have grown := drops.within
  -- only a call adds a frame
  cases act with
  | keep | put | take | stage =>
    have : k + 2 ≤ a.fetched.calls.depth := grown
    omega
  | bind =>
    have : k + 2 ≤ a.fetched.calls.depth := Nat.le_trans grown (Nat.le_of_eq Array.size_modify)
    omega
  | @call f' n' j cl parent _ _ _ last there' =>
    obtain rfl : n' = n := by
      rw [invocations, s.last] at last
      exact Nat.succ.inj last
    have made : (a.fetched.calls.frames.push
        (Frame.new j.callee cl.code n' (some f'.currentIndex) parent))[k + 1]? =
          some (Frame.new j.callee cl.code n' (some f'.currentIndex) parent) :=
      depth ▸ Array.getElem?_push_size
    obtain ⟨g, hg, on⟩ := drops.frame_of (Nat.lt_succ_self _) made
    refine ⟨⟨c.step step, paced.step step, called, g, hg, on.invocation⟩, ⟨f, there, frame⟩,
      fun m' hm' => ?_⟩
    refine (drops.kept m' fun l g' hl hg' => absurd hg' (no_frame_above ?_)).trans
      (congrArg (·[m']?) invocations)
    rw [CallStack.depth_add, depth]
    exact hl

/-- While a call lasts, its caller waits. -/
theorem Enters.inside {a : Process} {log : Log} (c : a.CallsMatch) (paced : a.Paced)
    (enters : a.Enters k n log p) : Inside k n p ∧ Awaits k n a log p := by
  obtain ⟨q, makes, runs⟩ := enters
  induction runs with
  | refl => exact makes.inside c paced
  | step before s still ih =>
    obtain ⟨inside, waits⟩ := ih
    exact ⟨inside.step s still, waits.step inside s still⟩

/-- What a frame that returns leaves is what lies below it. -/
theorem Returns.leaves (c : p.Paced) (ret : p.Returns q) : p.Drops (p.calls.depth - 1) q ∧
    ∀ n, n + 1 < p.calls.depth → q.calls.frames[n]? = p.calls.frames[n]? := by
  have leave : ∀ {r : Process} {f : Frame}, r.Paced → r.calls.top? = some f → ∀ n,
      n + 1 < r.calls.depth →
        (r.afterReturn f).applyRules.calls.frames[n]? = r.calls.frames[n]? := by
    intro r f paced top n lt
    rw [paced.calls_back top]
    exact Array.getElem?_pop.trans (if_pos (by unfold CallStack.depth at lt; omega))
  cases ret with
  | @instruction i next op =>
    have quiet := p.quiet_fetched
    have paced := c.quiet quiet
    obtain ⟨f, top, here⟩ := next?_eq_some_iff.mp next
    have top' := top?_fetched top here
    have ran : p.fetched.after (.execute i) =
        (p.fetched.afterReturn { f with pc := f.pc + 1 }).applyRules := by
      show Exec.left (Exec.execute i p.fetched) = _
      rw [execute_return op, Exec.returnFromFrame_eq top']
      rfl
    rw [ran]
    refine ⟨quiet.drops (quiet.depth ▸ paced.back top'), fun n lt => ?_⟩
    exact (leave paced top' n (quiet.depth.symm ▸ lt)).trans (quiet.below n lt)
  | @ended f top ended own =>
    have ran : Exec.left (Exec.finishCode f p) = (p.afterReturn f).applyRules := by
      have none : f.resume? = none := by unfold Frame.resume?; rw [own]
      unfold Exec.finishCode
      rw [none]
      dsimp only
      rw [Exec.returnFromFrame_eq top]
      rfl
    rw [ran]
    exact ⟨c.back top, leave c top⟩

/-- The frame that makes a call waits right behind the instruction that does. -/
theorem Makes.behind {a : Process} (s : a.Makes k n q) : ∃ f i,
    a.fetched.calls.frames[k]? = some f ∧ f.code[f.currentIndex]? = some i ∧
      f.pc = f.currentIndex + 1 ∧ i.op = .control .invoke := by
  obtain ⟨i, next, op, -⟩ := s.executes
  obtain ⟨f, top, here⟩ := next?_eq_some_iff.mp next
  have last := CallStack.frame_of_top (top?_fetched top here)
  rw [a.quiet_fetched.depth, s.running] at last
  exact ⟨_, i, last, here, rfl, op⟩

/-- The invocation stack is cut where the call's own invocation has been. -/
theorem Inside.restores (c : Inside k n p) (last : p.calls.depth = k + 2) (ret : p.Returns r) :
    r.invocations.size = n ∧ ∀ m, m < n → r.invocations[m]? = p.invocations[m]? := by
  obtain ⟨drops, -⟩ := ret.leaves c.paced
  rw [last, show k + 2 - 1 = k + 1 from rfl] at drops
  obtain ⟨g, hg, rfl⟩ := c.callee
  have only : ∀ l g', k + 1 ≤ l → p.calls.frames[l]? = some g' → g' = g := fun l g' hl hg' => by
    have lt := CallStack.lt_depth hg'
    rw [show l = k + 1 by omega, hg] at hg'
    cases hg'
    rfl
  have kept : ∀ m, m < g.invocation → r.invocations[m]? = p.invocations[m]? := fun m hm =>
    drops.kept m fun l g' hl hg' => by rw [only l g' hl hg']; exact hm
  refine ⟨Nat.le_antisymm ?_ (Nat.le_of_not_lt fun small => ?_), kept⟩
  · exact Array.getElem?_eq_none_iff.mp (drops.cut _ _ g (Nat.le_refl _) hg (Nat.le_refl _))
  · have gone := kept _ small
    have fits := c.matched.owned hg
    rw [Array.getElem?_eq_none (Nat.le_refl _),
      Array.getElem?_eq_getElem (Nat.lt_trans small fits)] at gone
    cases gone

end Process

/-- In a process that runs programs, every caller waits unchanged while its call lasts, and gets
back control right behind it. -/
theorem callers_wait {a : Process} (d : a.Driven) : a.Paced ∧
    ∀ k n log p, a.Enters k n log p → Process.Isolated k n a log p := by
  have paced := d.paced
  refine ⟨paced, fun k n log p enters => ?_⟩
  obtain ⟨inside, waits⟩ := enters.inside d.callsMatch paced
  obtain ⟨q, makes, -⟩ := enters
  refine ⟨waits, makes.behind, fun f hf => ?_, fun e _ binds => ?_, fun r last ret => ?_,
    fun r last ret => ?_⟩
  · obtain ⟨g, hg, rfl⟩ := inside.callee
    exact inside.matched.rising k (k + 1) f g (Nat.lt_succ_self k) hf hg
  · obtain ⟨b, mem⟩ := List.exists_mem_of_ne_nil _ binds
    exact Process.exists_outward_of_bindingsAt mem
  · obtain ⟨drops, frames⟩ := ret.leaves inside.paced
    have depth : r.calls.depth = k + 1 := by rw [drops.depth, last]; rfl
    refine ⟨depth, Array.back?_eq_getElem?.trans ?_⟩
    show r.calls.frames[r.calls.depth - 1]? = _
    rw [depth]
    exact frames k (by omega)
  · obtain ⟨size, below⟩ := inside.restores last ret
    refine ⟨size, fun m hm => (below m hm).trans (waits.invocations m hm), ?_⟩
    rintro p₀ sent ⟨q, stages, -⟩
    exact size.trans stages.before.symm

/-- A program whose inner closure makes an object and binds it in the frame around it. -/
def binding : Compartment :=
  (Compartment.new "binding").withClosures
    #[.new Compartment.mainName 0 none
        #[.ofOp (.object .new), ⟨.object .setClosure, 1, 0⟩, .ofOp (.control .stage),
          .ofOp (.control .invoke), ⟨.variable .load, 7, 0⟩],
      .new "inner" 1 (some 0)
        #[.ofOp (.object .new), ⟨.variable .storeOuter, 7, 1⟩, .ofOp (.control .return)]]

/-- The program where its inner closure has been called. -/
def bindingCalled : Process := (Process.ranFor binding 3).fetched.after
  (.execute (.ofOp (.control .invoke)))

theorem callers_wait_binding : (Process.ranFor binding 3).Driven ∧
    (Process.ranFor binding 3).Enters 0 1 (bindingCalled.ahead 2).1 (bindingCalled.ahead 2).2 ∧
    (bindingCalled.ahead 2).1.bindings 0 = [(7, ⟨1, 0⟩)] ∧
    ((bindingCalled.ahead 3).2.calls.top?.map fun f => (f.pc, f.visible.get? 7)) =
      some (4, some ⟨1, 0⟩) ∧
    (Process.ranFor binding 3).Paced ∧
    Process.Isolated 0 1 (Process.ranFor binding 3) (bindingCalled.ahead 2).1
      (bindingCalled.ahead 2).2 := by
  have driven : (Process.ranFor binding 3).Driven :=
    Process.driven_ranFor ⟨"binding", #[], #[], _, rfl⟩ 3
  have makes : (Process.ranFor binding 3).Makes 0 1 bindingCalled :=
    ⟨by decide +kernel, by decide +kernel, ⟨_, by decide +kernel, rfl, rfl⟩, by decide +kernel⟩
  have called : ∀ m < 2, Process.CalledFrom 0 (bindingCalled.ahead (m + 1)).2 := by
    unfold Process.CalledFrom
    decide +kernel
  have enters : (Process.ranFor binding 3).Enters 0 1 _ _ := ⟨_, makes, .of_ahead 2 called⟩
  exact ⟨driven, enters, by decide +kernel, by decide +kernel, (callers_wait driven).1,
    (callers_wait driven).2 0 1 _ _ enters⟩

end ObjectVM
