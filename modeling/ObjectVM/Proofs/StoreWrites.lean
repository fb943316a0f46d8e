import ObjectVM.Proofs.Spending

/-!
# How the stores are written

Most instructions leave the heap and the pool alone (`Exec.IsAloof`). Of the others, one that writes
to an object asks it first whether it is open to change, unless it sets a flag. A relation between
processes that each single write keeps to (`WriteLaw`) holds between a process and what an
instruction leaves of it (`WriteLaw.execute`), so each property that is kept is proved of single
writes only. Left out are the instructions whose writes differ: those that set or delete attributes,
the one that opens an object to change, and those that may collect.

What reclaims objects besides is said once (`Process.Swept`), and with it what becomes of the stores
whatever happens to a process (`Process.Happens.stores`).
-/
namespace ObjectVM

/-! ## Work that leaves the stores alone -/

namespace Exec

variable {α β : Type} {p : Process}

/-- Whether it succeeds or fails, it leaves the heap and the pool alone. -/
def IsAloof (m : Exec α) : Prop :=
  ∀ p : Process, (left (m p)).heap = p.heap ∧ (left (m p)).pool = p.pool

theorem IsSparing.aloof {m : Exec α} (sparing : IsSparing m) : IsAloof m := by
  intro p
  have spares := sparing p
  cases ran : m p with
  | ok a q =>
    rw [ran] at spares
    exact spares
  | error fault q =>
    rw [ran] at spares
    exact ⟨spares.heap, spares.pool⟩

theorem IsAloof.bind {m : Exec α} {k : α → Exec β} (hm : IsAloof m) (hk : ∀ a, IsAloof (k a)) :
    IsAloof (m >>= k) := by
  intro p
  have first := hm p
  rw [left_bind]
  cases ran : m p with
  | ok a q =>
    rw [ran] at first
    exact ⟨(hk a q).1.trans first.1, (hk a q).2.trans first.2⟩
  | error fault q =>
    rw [ran] at first
    exact first

theorem IsAloof.get_bind {k : Process → Exec α}
    (hk : ∀ p : Process, (left (k p p)).heap = p.heap ∧ (left (k p p)).pool = p.pool) :
    IsAloof (get >>= k) := hk

theorem aloof_note (e : Event) : IsAloof (note e) := (spends_note e).isSparing.aloof

theorem aloof_setTopFrame (f : Frame) : IsAloof (setTopFrame f) := (sparing_setTopFrame f).aloof

theorem aloof_updateFrame (g : Frame → Except Fault Frame) : IsAloof (updateFrame g) :=
  (sparing_updateFrame g).aloof

theorem aloof_popFrame : IsAloof popFrame :=
  (spends_topFrame.isSparing.aloof).bind fun _ =>
    IsAloof.bind (fun _ => ⟨rfl, rfl⟩) fun f => (Spends.pure f).isSparing.aloof

theorem aloof_catchTarget? (f : Frame) : IsAloof (catchTarget? f) := by
  unfold catchTarget?
  split
  · exact (Spends.pure _).isSparing.aloof
  · exact ((spends_look _).bind fun _ => .pure _).isSparing.aloof

/-- An exception leaves the stores alone, wherever it goes. -/
theorem aloof_unwind (e : ObjectId) (depth : Nat) : ∀ (search : Bool) (trace : Option Traceback),
    IsAloof (unwind e search trace depth) := by
  -- on the frames that the exception may come to
  induction depth with
  | zero => exact fun _ _ => (Spends.throw _).isSparing.aloof
  | succ depth ih =>
    intro search trace
    rw [unwind_succ]
    refine (spends_topFrame.isSparing.aloof).bind fun f => IsAloof.bind ?_ fun target => ?_
    · split
      · exact aloof_catchTarget? f
      · exact (Spends.pure _).isSparing.aloof
    · cases target with
      | some target =>
        exact (aloof_setTopFrame _).bind fun _ => (aloof_updateFrame _).bind fun _ => aloof_note _
      | none =>
        refine .get_bind fun p => ?_
        refine (aloof_popFrame.bind fun _ => .get_bind fun q => ?_) p
        cases q.calls.top? with
        | some caller =>
          exact ((aloof_setTopFrame _).bind fun _ =>
            ((sparing_pushObject e).aloof).bind fun _ => ih true _) q
        | none => exact ((aloof_note _).bind fun _ _ => ⟨rfl, rfl⟩) q

theorem aloof_handleSignal (s : Signal) : IsAloof (handleSignal s) := by
  refine .get_bind fun p => ?_
  have vectored : ∀ vector, IsAloof (do
      note (.signalVectored s)
      setTopFrame ((← topFrame).interrupt vector)) := fun vector =>
    (aloof_note _).bind fun _ => (sparing_changeFrame (·.interrupt vector)).aloof
  cases p.vectors s with
  | some vector =>
    cases s.category with
    | timer => exact aloof_note _ p
    | execution | termination | operation => exact vectored vector p
  | none =>
    cases s.category with
    | timer => exact aloof_note _ p
    | termination => exact ((aloof_note _).bind fun _ _ => ⟨rfl, rfl⟩) p
    | execution | operation =>
      exact ((aloof_note _).bind fun _ => (Spends.throw _).isSparing.aloof) p

theorem aloof_deliverSignals : IsAloof deliverSignals := by
  have handled : ∀ waiting : List Signal, IsAloof (waiting.forM handleSignal) := by
    intro waiting
    induction waiting with
    | nil => exact (Spends.pure ()).isSparing.aloof
    | cons s waiting ih => exact (aloof_handleSignal s).bind fun _ => ih
  exact .get_bind fun p => handled p.signals.waiting { p with signals := .empty }

theorem aloof_takeOwn (take : Invocation → Except Fault (α × Invocation)) :
    IsAloof (takeOwn take) :=
  spends_ownInvocation.isSparing.aloof.bind fun _ => (spends_lift _).isSparing.aloof.bind fun _ =>
    (sparing_putInvocation _ _).aloof.bind fun _ => (Spends.pure _).isSparing.aloof

theorem aloof_takeNamed (key skipped : UInt64) : IsAloof (takeNamed key skipped) := by
  refine spends_ownInvocation.isSparing.aloof.bind fun own => ?_
  show IsAloof (if own.2.named.contains key then _ else _)
  split
  · exact (aloof_takeOwn _).bind fun id => (sparing_pushObject id).aloof.bind fun _ =>
      aloof_updateFrame _
  · exact (Spends.pure ()).isSparing.aloof

end Exec

/-! ## Single writes -/

/-- `R` relates a process to what it is after a write to the stores, if the write is to an object
that is open to change, or sets a flag and does not open the object. -/
structure WriteLaw (R : Process → Process → Prop) : Prop where
  trans : ∀ {p q r}, R p q → R q r → R p r
  same : ∀ {p q : Process}, q.heap = p.heap → q.pool = p.pool → R p q
  callable : ∀ {p : Process} {id : ObjectId} {o : Object}, p.heap.get? id = some o →
    o.hasFlag .immutable = false → ∀ closure : Option ClosureRef,
      R p { p with heap := p.heap.put id { o with closure } }
  flag : ∀ {p : Process} {id : ObjectId} {o : Object}, p.heap.get? id = some o →
    ∀ {flag : ObjectFlags} {on : Bool}, on = true ∨ flag.contains .immutable = false →
      R p { p with heap := p.heap.put id (o.setFlag flag on) }
  allocate : ∀ {p : Process}, Stores p.heap p.pool → p.heap.isFull = false →
    R p { p with heap := p.heap.allocate.2 }
  replace : ∀ {p : Process} {id : ObjectId} {o : Object} {key : HandleKey},
    Stores p.heap p.pool → p.heap.get? id = some o → o.hasFlag .immutable = false →
      o.handle = some key → ∀ v, R p { p with pool := p.pool.replace key v }
  attach : ∀ {p : Process} {id : ObjectId} {o : Object}, Stores p.heap p.pool →
    p.heap.get? id = some o → o.hasFlag .immutable = false → p.pool.isFull = false → ∀ v,
      R p { p with
        pool := (p.pool.allocate v).2
        heap := p.heap.put id { o with handle := some (p.pool.allocate v).1 } }
  detach : ∀ {p : Process} {id : ObjectId} {o : Object} {key : HandleKey},
    Stores p.heap p.pool → p.heap.get? id = some o → o.hasFlag .immutable = false →
      o.handle = some key →
      R p { p with heap := p.heap.put id { o with handle := none }, pool := p.pool.without key }

/-- Whether an instruction sets or deletes attributes. -/
def Op.EditsAttributes : Op → Prop
  | .attribute .set _ | .attribute .delete _ | .setAttributes => True
  | _ => False

namespace Exec

variable {α β : Type} {R : Process → Process → Prop} {p : Process}

/-- Whether it succeeds or fails, the process is related to what is left of it. -/
def Obeys (R : Process → Process → Prop) (m : Exec α) : Prop :=
  ∀ p : Process, Stores p.heap p.pool → R p (left (m p))

end Exec

namespace WriteLaw

open Exec

variable {α β : Type} {R : Process → Process → Prop} {p : Process} {id : ObjectId} {o : Object}

theorem refl (law : WriteLaw R) (p : Process) : R p p := law.same rfl rfl

theorem aloof (law : WriteLaw R) {m : Exec α} (aloof : IsAloof m) : Obeys R m :=
  fun p _ => law.same (aloof p).1 (aloof p).2

theorem sparing (law : WriteLaw R) {m : Exec α} (sparing : IsSparing m) : Obeys R m :=
  law.aloof sparing.aloof

/-- Behind work that leaves the stores alone, the rest may rely on them. -/
theorem behind (law : WriteLaw R) {m : Exec α} {k : α → Exec β} (hm : IsAloof m)
    (hk : ∀ (a : α) (q : Process), q.heap = p.heap → q.pool = p.pool → R q (left (k a q))) :
    R p (left ((m >>= k) p)) := by
  have first := hm p
  rw [left_bind]
  cases ran : m p with
  | ok a q =>
    rw [ran] at first
    exact law.trans (law.same first.1 first.2) (hk a q first.1 first.2)
  | error fault q =>
    rw [ran] at first
    exact law.same first.1 first.2

/-- Work that obeys the law may come behind work that leaves the stores alone. -/
theorem aloof_bind (law : WriteLaw R) {m : Exec α} {k : α → Exec β} (hm : IsAloof m)
    (hk : ∀ a, Obeys R (k a)) : Obeys R (m >>= k) := by
  intro p stores
  refine law.behind hm fun a q heap pool => hk a q ?_
  rw [heap, pool]
  exact stores

theorem spends_bind (law : WriteLaw R) {m : Exec α} {k : α → Exec β} (hm : Spends m)
    (hk : ∀ a, Obeys R (k a)) : Obeys R (m >>= k) := law.aloof_bind hm.isSparing.aloof hk

/-- Work that leaves the stores alone may come behind. -/
theorem bind_aloof (law : WriteLaw R) {m : Exec α} {k : α → Exec β} (hm : R p (left (m p)))
    (hk : ∀ a, IsAloof (k a)) : R p (left ((m >>= k) p)) := by
  rw [left_bind]
  cases ran : m p with
  | ok a q =>
    rw [ran] at hm
    exact law.trans hm (law.same (hk a q).1 (hk a q).2)
  | error fault q =>
    rw [ran] at hm
    exact hm

/-! ### Instructions that write -/

/-- What is done with an object that has been looked up may rely on its being there. -/
theorem object_bind (law : WriteLaw R) {k : Object → Exec β}
    (hk : ∀ (p : Process) (o : Object), Stores p.heap p.pool → p.heap.get? id = some o →
      R p (left (k o p))) : Obeys R (object id >>= k) := by
  intro p stores
  cases get : p.heap.get? id with
  | none =>
    rw [left_bind_error (object_missing get)]
    exact law.refl p
  | some o =>
    rw [left_bind_ok (object_found get)]
    exact hk p o stores get

/-- What is done with an object that is open to change may rely on that. -/
theorem mutableObject_bind (law : WriteLaw R) {k : Object → Exec β}
    (hk : ∀ (p : Process) (o : Object), Stores p.heap p.pool → p.heap.get? id = some o →
      o.hasFlag .immutable = false → R p (left (k o p))) : Obeys R (mutableObject id >>= k) := by
  intro p stores
  cases get : p.heap.get? id with
  | none =>
    have missing : mutableObject id p = .error (.heap (.objectNotFound id)) p :=
      bind_error (object_missing get)
    rw [left_bind_error missing]
    exact law.refl p
  | some o =>
    rcases mutableObject_cases get with ⟨-, refused⟩ | ⟨opened, found⟩
    · rw [left_bind_error refused]
      exact law.refl p
    · rw [left_bind_ok found]
      exact hk p o stores get opened

theorem setValue (law : WriteLaw R) (stores : Stores p.heap p.pool)
    (get : p.heap.get? id = some o) (opened : o.hasFlag .immutable = false) (v : Value) :
    R p (left (setValue id v p)) := by
  unfold Exec.setValue
  rw [left_bind_ok (object_found get)]
  cases has : o.handle with
  | some key =>
    show R p (left ((if p.pool.contains key then _ else _ : Exec Unit) p))
    split
    · exact law.replace stores get opened has v
    · exact law.refl p
  | none =>
    show R p (left ((if p.pool.isFull then _ else _ : Exec Unit) p))
    split
    · exact law.refl p
    · next room => exact law.attach stores get opened (Bool.eq_false_iff.mpr room) v

theorem assign (law : WriteLaw R) (id : ObjectId) (v : Value) : Obeys R (assign id v) :=
  law.mutableObject_bind fun _ _ stores get opened => law.setValue stores get opened v

theorem copyValue (law : WriteLaw R) (f : Value → Value) : Obeys R (copyValue f) :=
  law.spends_bind spends_popObject fun _ => law.spends_bind spends_topObject fun target =>
    law.spends_bind (spends_look _) fun v => law.assign target (f v)

theorem clearHandle (law : WriteLaw R) : Obeys R clearHandle := by
  intro p stores
  rcases clearHandle_cases stores with ⟨_, failed⟩ | none | ⟨_, _, _, get, opened, has, cleared⟩
  · rw [failed]
    exact law.refl p
  · rw [none]
    exact law.refl p
  · rw [cleared]
    exact law.detach stores get opened has

theorem newObject (law : WriteLaw R) : Obeys R newObject := by
  intro p stores
  cases room : p.heap.isFull with
  | true =>
    rw [newObject_full room]
    exact law.refl p
  | false =>
    rw [newObject_eq room]
    exact law.allocate stores room

/-- An object that is new is open to change, so it may be given a value. -/
theorem newObjectWith (law : WriteLaw R) (v : Value) : Obeys R (newObjectWith v) := by
  intro p stores
  unfold Exec.newObjectWith
  cases room : p.heap.isFull with
  | true =>
    rw [left_bind_error (newObject_full room)]
    exact law.refl p
  | false =>
    have blank : p.heap.allocate.2.get? p.heap.allocate.1 = some .blank := by
      rw [Heap.get?_allocate stores.heapBooks room, if_pos rfl]
    have given := law.setValue (p := { p with heap := p.heap.allocate.2 })
      (stores.allocate room) blank (by decide) v
    rw [left_bind_ok (newObject_eq room)]
    exact law.trans (law.allocate stores room)
      (law.bind_aloof given fun _ => (Spends.pure _).isSparing.aloof)

theorem setFlag (law : WriteLaw R) {flag : ObjectFlags} {on : Bool}
    (kept : on = true ∨ flag.contains .immutable = false) : Obeys R (setFlag flag on) :=
  law.spends_bind spends_topObject fun _ => law.object_bind fun _ _ _ get => law.flag get kept

theorem setClosure (law : WriteLaw R) (closure : UInt64) : Obeys R (setClosure closure) :=
  law.spends_bind spends_topFrame fun _ => law.spends_bind spends_topObject fun _ =>
    law.mutableObject_bind fun _ _ _ get opened => law.callable get opened _

/-! ### Families of instructions -/

theorem runObject (law : WriteLaw R) {op : ObjectOp} {i : Instruction}
    (kept : op = .setImmutable → i.first ≠ 0) : Obeys R (runObject op i) := by
  cases op with
  | new =>
    exact fun p stores => law.bind_aloof (law.newObject p stores) fun id =>
      (sparing_pushObject id).aloof
  | pop => exact law.sparing (spends_popObject.bind fun _ => .pure ()).isSparing
  | swap => exact law.sparing sparing_swapObjects
  | same | different => exact law.sparing (sparing_compareObjects _)
  | setClosure => exact law.setClosure _
  | setPinned | setIndelible | setUncallable => exact law.setFlag (.inr (by decide))
  | setImmutable => exact law.setFlag (.inl (by simpa using kept rfl))

/-- To read attributes writes nothing. -/
theorem runAttribute (law : WriteLaw R) {op : AttributeOp} (name : String) (set : op ≠ .set)
    (delete : op ≠ .delete) : Obeys R (runAttribute op name) := by
  cases op with
  | get => exact law.sparing (sparing_getAttribute name)
  | has => exact law.sparing (sparing_hasAttribute name)
  | set => exact absurd rfl set
  | delete => exact absurd rfl delete

theorem runHandle (law : WriteLaw R) (op : HandleOp) (i : Instruction) :
    Obeys R (runHandle op i) := by
  cases op with
  | get => exact law.sparing (sparing_readHandle (.inl rfl) i)
  | getOf => exact law.sparing (sparing_readHandle (.inr (.inl rfl)) i)
  | truthy => exact law.sparing (sparing_readHandle (.inr (.inr rfl)) i)
  | set =>
    exact law.spends_bind spends_popValue fun v => law.spends_bind spends_topObject fun id =>
      law.assign id v
  | setOf =>
    exact law.spends_bind spends_popValue fun v => law.spends_bind (spends_look _) fun id =>
      law.assign id v
  | clear => exact law.clearHandle
  | copy | copyText => exact law.copyValue _

theorem runControl (law : WriteLaw R) {op : ControlOp} (stays : op ≠ .return) (i : Instruction) :
    Obeys R (runControl op i) := by
  by_cases raises : op = .raise
  · rw [raises]
    exact law.spends_bind spends_popObject fun e => law.aloof
      (IsAloof.get_bind fun p => aloof_unwind e p.calls.depth (i.first != 0) none p)
  · exact law.sparing (sparing_runControl stays raises i)

/-- Arguments that are taken all at once go into an object that is new. -/
theorem takeMade (law : WriteLaw R) (take : Invocation → Except Fault (α × Invocation))
    (value : α → Value) :
    Obeys R (takeOwn take >>= fun a => Exec.newObjectWith (value a) >>= pushObject) :=
  law.aloof_bind (aloof_takeOwn take) fun a p stores =>
    law.bind_aloof (law.newObjectWith (value a) p stores) fun id => (sparing_pushObject id).aloof

theorem runArgument (law : WriteLaw R) (op : ArgumentOp) (i : Instruction) :
    Obeys R (runArgument op i) := by
  cases op with
  | put | putNamed | putAll | putAllNamed => exact law.sparing (sparing_put _ rfl i)
  | take => exact law.sparing (sparing_take (k := pushObject) _ (fun _ _ => ⟨_, rfl, rfl, rfl⟩))
  | hasMore => exact law.sparing (sparing_hasMore i)
  | takeNamed => exact law.aloof (aloof_takeNamed _ _)
  | takeAll => exact law.takeMade _ _
  | takeAllNamed => exact law.takeMade _ _

theorem runRuntime (law : WriteLaw R) {op : RuntimeOp} (inner : op ≠ .collect) (i : Instruction) :
    Obeys R (runRuntime op i) := by
  cases op with
  | collect => exact absurd rfl inner
  | debug => exact law.sparing (sparing_modify fun _ => ⟨rfl, rfl⟩)
  | print => exact law.sparing (sparing_print _)

/-- An instruction that may not collect, opens nothing to change and leaves attributes alone keeps
to the law. -/
theorem execute (law : WriteLaw R) {i : Instruction} (stays : i.op ≠ .control .return)
    (inner : i.op ≠ .runtime .collect) (kept : i.op = .object .setImmutable → i.first ≠ 0)
    (apart : ¬ i.op.EditsAttributes) : Obeys R (execute i) := by
  unfold Exec.execute
  cases hop : i.op with
  | object op => exact law.runObject fun same => kept (by rw [hop, same])
  | «variable» op => exact law.sparing (sparing_runVariable op i)
  | «attribute» op source =>
    rw [hop] at apart
    refine law.spends_bind (spends_readName source i) fun name => law.runAttribute name ?_ ?_
    · rintro rfl
      exact apart trivial
    · rintro rfl
      exact apart trivial
  | setAttributes =>
    rw [hop] at apart
    exact absurd trivial apart
  | handle op => exact law.runHandle op i
  | control op => exact law.runControl (fun same => stays (by rw [hop, same])) i
  | argument op => exact law.runArgument op i
  | runtime op => exact law.runRuntime (fun same => inner (by rw [hop, same])) i
  | stack op => exact law.sparing (sparing_runStack op)
  | constant op => exact law.sparing (sparing_runConstant op i)
  | value op => exact law.sparing (sparing_perform op.action)

end WriteLaw

/-! ## What becomes of the stores -/

/-- The stores of `q` are those of `p`, or what a collection has left of them. -/
inductive Process.Swept (p : Process) : Process → Prop where
  | same {q : Process} (heap : q.heap = p.heap) (pool : q.pool = p.pool) : Swept p q
  | collected {r : Process} (heap : r.heap = p.heap) (pool : r.pool = p.pool) : Swept p r.collect.2

/-- A return leaves the stores alone before it asks the collection rules. -/
theorem Exec.swept_returnFromFrame (p : Process) : p.Swept (left (returnFromFrame p)) := by
  cases top : p.calls.top? with
  | none =>
    have stuck : returnFromFrame p = .error .frameNotFound p :=
      bind_error (bind_error (topFrame_none top))
    rw [stuck]
    exact .same rfl rfl
  | some f =>
    rw [returnFromFrame_eq top]
    unfold Process.applyRules
    split
    · exact .collected (r := p.afterReturn f) rfl rfl
    · exact .same rfl rfl

/-- What a return and the instruction that collects leave. -/
theorem Exec.swept_execute {i : Instruction}
    (sweeps : i.op = .control .return ∨ i.op = .runtime .collect) (p : Process) :
    p.Swept (left (execute i p)) := by
  rcases sweeps with back | collects
  · rw [Process.execute_return back]
    exact swept_returnFromFrame p
  · have ran : execute i p = .ok () p.collect.2 := by
      unfold execute
      rw [collects]
      rfl
    rw [ran]
    exact .collected rfl rfl

namespace Process

variable {p q : Process} {label : Option (Process × Instruction)}

theorem heap_start (p : Process) : p.start.2.heap = p.heap ∧ p.start.2.pool = p.pool := by
  unfold Process.start
  split
  · exact ⟨rfl, rfl⟩
  · dsimp only
    split <;> exact ⟨rfl, rfl⟩

/-- No object lives in a process that has been reset. -/
theorem contains_reset (p : Process) (id : ObjectId) : p.reset.heap.contains id = false := by
  show (Heap.empty p.options.heapCapacity).contains id = false
  rw [Heap.contains, Heap.get?_empty]
  rfl

theorem stores_fetched (p : Process) : p.fetched.heap = p.heap ∧ p.fetched.pool = p.pool := by
  rcases p.fetched_cases with same | ⟨f, i, journal, -, -, same⟩ <;>
  · rw [same]
    exact ⟨rfl, rfl⟩

theorem swept_between {r : Request} (between : r.Between) : p.Swept (p.after r) := by
  cases r with
  | deliver =>
    exact .same (Exec.aloof_deliverSignals p).1 (Exec.aloof_deliverSignals p).2
  | handle s => exact .same (Exec.aloof_handleSignal s p).1 (Exec.aloof_handleSignal s p).2
  | collect => exact .collected rfl rfl
  | raise | setRule | setVector | redirect => exact .same rfl rfl
  | load | start | run | execute | reset | abandon => exact between.elim

/-- Whatever happens, an instruction is executed on the stores as they are, or they are swept, or
nothing lives in them any more. -/
theorem Happens.stores (h : p.Happens label q) (s : p.Sound) :
    (∃ r i, label = some (r, i) ∧ r.Sound ∧ r.heap = p.heap ∧ r.pool = p.pool ∧
        q = r.after (.execute i)) ∨
      label = none ∧ (p.Swept q ∨ ∀ id, q.heap.contains id = false) := by
  cases h with
  | step st =>
    cases st with
    | instruction => exact .inl ⟨_, _, rfl, s.fetched, p.stores_fetched.1, p.stores_fetched.2, rfl⟩
    | @ended f =>
      refine .inr ⟨rfl, .inl ?_⟩
      unfold Exec.finishCode
      cases f.resume? with
      | some f' => exact .same rfl rfl
      | none => exact Exec.swept_returnFromFrame p
    | between r between => exact .inr ⟨rfl, .inl (swept_between between)⟩
    | noted | answered => exact .inr ⟨rfl, .inl (.same rfl rfl)⟩
  | asked i => exact .inl ⟨p, i, rfl, s, rfl, rfl, rfl⟩
  | request r silent =>
    refine .inr ⟨rfl, ?_⟩
    cases r with
    | deliver | handle | raise | collect | setRule | setVector | redirect =>
      exact .inl (swept_between trivial)
    | load => exact .inl (.same rfl rfl)
    | start => exact .inl (.same p.heap_start.1 p.heap_start.2)
    | reset => exact .inr (p.contains_reset)
    | abandon limit => exact .inr (contains_reset _)
    | run | execute => exact silent.elim

end Process

end ObjectVM
