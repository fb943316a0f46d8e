import ObjectVM.Proofs.StoreWrites

/-!
# Immutable objects and the stores

An object that is immutable is sealed: under its id there is an object that holds what it holds, and
the value in its handle is what it is (`Process.Seals`). An instruction that writes to the stores
asks the object to which it writes whether it is open to change. Since no handle is shared, what
becomes of an open object and of its value leaves the sealed ones alone, and so does an object that
is new (`Process.writeLaw_guards`).

Two things break a seal, and so the law for instructions (`Exec.obeys_execute`) leaves them out:
to clear the flag, and to collect, which reclaims objects.
-/
namespace ObjectVM

/-- What an object holds: its attributes, its closure, its handle, and the value in that. -/
structure Contents where
  attributes : KeyMap ObjectId
  closure : Option ClosureRef
  handle : Option HandleKey
  value : Option Value
  deriving DecidableEq

namespace Process

/-- What an object of `p` holds. -/
def contentsOf (p : Process) (o : Object) : Contents :=
  ⟨o.attributes, o.closure, o.handle, o.handle.bind p.pool.get?⟩

/-- What the object that `id` names holds, if there is one. -/
def contents? (p : Process) (id : ObjectId) : Option Contents := (p.heap.get? id).map p.contentsOf

/-- Under `id` there is an immutable object that holds `c`. -/
def Seals (p : Process) (id : ObjectId) (c : Contents) : Prop :=
  ∃ o, p.heap.get? id = some o ∧ o.hasFlag .immutable = true ∧ p.contentsOf o = c

/-- Whatever is sealed in `p` is sealed in `q`. -/
def Guards (p q : Process) : Prop := ∀ id c, p.Seals id c → q.Seals id c

variable {p q r : Process} {id : ObjectId} {o o' : Object} {key : HandleKey} {c : Contents}

theorem Seals.contents (seals : p.Seals id c) : p.contents? id = some c := by
  obtain ⟨o, get, -, holds⟩ := seals
  rw [contents?, get, Option.map_some, holds]

theorem Guards.trans (a : p.Guards q) (b : q.Guards r) : p.Guards r :=
  fun id c seals => b id c (a id c seals)

/-- An immutable object stays sealed where it stays immutable and the same but for its other flags,
with its value under its key. -/
theorem guards_of
    (kept : ∀ id o, p.heap.get? id = some o → o.hasFlag .immutable = true →
      ∃ o', q.heap.get? id = some o' ∧ o'.hasFlag .immutable = true ∧
        { o' with flags := o.flags } = o)
    (values : ∀ id o key, p.heap.get? id = some o → o.hasFlag .immutable = true →
      o.handle = some key → q.pool.get? key = p.pool.get? key) : p.Guards q := by
  rintro id c ⟨o, get, closed, rfl⟩
  obtain ⟨o', get', closed', same⟩ := kept id o get closed
  refine ⟨o', get', closed', ?_⟩
  rw [← same] at get closed ⊢
  unfold contentsOf
  dsimp only
  cases has : o'.handle with
  | none => rfl
  | some key =>
    have value := values id _ key get closed has
    simp only [Option.bind_some, value]

theorem guards_of_same (heap : q.heap = p.heap) (pool : q.pool = p.pool) : p.Guards q := by
  refine guards_of (fun id o get closed => ⟨o, ?_, closed, rfl⟩) fun id o key _ _ _ => ?_
  · rwa [heap]
  · rw [pool]

/-! ## Writes to the stores -/

/-- An object that is open to change is not the one that is sealed. -/
theorem get?_put_open {j : ObjectId} (get : p.heap.get? j = some o)
    (opened : o.hasFlag .immutable = false) (new : Object) {o' : Object}
    (get' : p.heap.get? id = some o') (closed : o'.hasFlag .immutable = true) :
    (p.heap.put j new).get? id = some o' := by
  rw [Heap.get?_put get, if_neg, get']
  rintro rfl
  rw [get] at get'
  cases get'
  rw [opened] at closed
  cases closed

theorem guards_put (get : p.heap.get? id = some o) (opened : o.hasFlag .immutable = false)
    (new : Object) : p.Guards { p with heap := p.heap.put id new } :=
  guards_of (fun _ o' get' closed => ⟨o', get?_put_open get opened new get' closed, closed, rfl⟩)
    fun _ _ _ _ _ _ => rfl

theorem guards_replace (stores : Stores p.heap p.pool) (get : p.heap.get? id = some o)
    (opened : o.hasFlag .immutable = false) (has : o.handle = some key) (v : Value) :
    p.Guards { p with pool := p.pool.replace key v } := by
  refine guards_of (fun _ o' get' closed => ⟨o', get', closed, rfl⟩)
    fun id' o' key' get' closed has' => ?_
  obtain ⟨w, value⟩ := Pool.contains_iff.mp (stores.held id o key get has)
  show (p.pool.replace key v).get? key' = p.pool.get? key'
  rw [Pool.get?_replace value, if_neg]
  rintro rfl
  rw [stores.unshared id id' o o' _ get get' has has', get'] at get
  cases get
  rw [opened] at closed
  cases closed

theorem guards_attach (stores : Stores p.heap p.pool) (get : p.heap.get? id = some o)
    (opened : o.hasFlag .immutable = false) (room : p.pool.isFull = false) (v : Value) :
    p.Guards { p with
      pool := (p.pool.allocate v).2
      heap := p.heap.put id { o with handle := some (p.pool.allocate v).1 } } := by
  refine guards_of
    (fun _ o' get' closed => ⟨o', get?_put_open get opened _ get' closed, closed, rfl⟩)
    fun id' o' key' get' _ has' => ?_
  show (p.pool.allocate v).2.get? key' = p.pool.get? key'
  rw [Pool.get?_allocate stores.poolBooks room, if_neg]
  rintro rfl
  have held := stores.held id' o' _ get' has'
  rw [Pool.contains, Pool.get?_allocate_fresh stores.poolBooks room] at held
  cases held

theorem guards_detach (stores : Stores p.heap p.pool) (get : p.heap.get? id = some o)
    (opened : o.hasFlag .immutable = false) (has : o.handle = some key) :
    p.Guards { p with
      heap := p.heap.put id { o with handle := none }
      pool := p.pool.without key } := by
  refine guards_of
    (fun _ o' get' closed => ⟨o', get?_put_open get opened _ get' closed, closed, rfl⟩)
    fun id' o' key' get' closed has' => ?_
  obtain ⟨w, value⟩ := Pool.contains_iff.mp (stores.held id o key get has)
  show (p.pool.without key).get? key' = p.pool.get? key'
  rw [Pool.get?_without value, if_neg]
  rintro rfl
  rw [stores.unshared id id' o o' _ get get' has has', get'] at get
  cases get
  rw [opened] at closed
  cases closed

theorem guards_allocate (stores : Stores p.heap p.pool) (room : p.heap.isFull = false) :
    p.Guards { p with heap := p.heap.allocate.2 } := by
  refine guards_of (fun id o get closed => ⟨o, ?_, closed, rfl⟩) fun _ _ _ _ _ _ => rfl
  show p.heap.allocate.2.get? id = some o
  rw [Heap.get?_allocate stores.heapBooks room, if_neg, get]
  rintro rfl
  rw [Heap.get?_allocate_fresh stores.heapBooks room] at get
  cases get

/-- A flag may be set or cleared where that leaves immutable objects immutable. -/
theorem guards_setFlag (get : p.heap.get? id = some o) {flag : ObjectFlags} {on : Bool}
    (kept : o.hasFlag .immutable = true → (o.setFlag flag on).hasFlag .immutable = true) :
    p.Guards { p with heap := p.heap.put id (o.setFlag flag on) } := by
  refine guards_of (fun id' o' get' closed => ?_) fun _ _ _ _ _ _ => rfl
  by_cases same : id' = id
  · subst same
    rw [get] at get'
    cases get'
    exact ⟨_, (Heap.get?_put get _ _).trans (if_pos rfl), kept closed, rfl⟩
  · exact ⟨o', (Heap.get?_put get _ _).trans ((if_neg same).trans get'), closed, rfl⟩

/-- What is still there after a collection is as it was. -/
theorem Seals.collect (seals : p.Seals id c) (stores : Stores p.heap p.pool)
    (live : p.collect.2.heap.contains id = true) : p.collect.2.Seals id c := by
  obtain ⟨o, get, closed, rfl⟩ := seals
  have reached := (Heap.contains_collect stores.heapBooks p.roots p.handleEdges id).mp live
  refine ⟨o, (Heap.get?_collect stores.heapBooks p.roots p.handleEdges id o).mpr ⟨get, reached⟩,
    closed, ?_⟩
  unfold contentsOf
  cases has : o.handle with
  | none => rfl
  | some key =>
    have kept : key ∉ (p.heap.collect p.roots p.handleEdges).1.orphans := by
      intro orphan
      obtain ⟨id', o', get', has', gone⟩ :=
        (Stores.mem_orphans stores.heapBooks p.roots p.handleEdges).mp orphan
      rw [stores.unshared id' id o' o key get' get has' has] at gone
      exact gone reached
    have value : p.collect.2.pool.get? key = p.pool.get? key :=
      (get?_eraseHandles _ p.pool key).trans (if_neg kept)
    simp only [Option.bind_some, value]

theorem Seals.swept (seals : p.Seals id c) (stores : Stores p.heap p.pool) (swept : p.Swept q)
    (live : q.heap.contains id = true) : q.Seals id c := by
  cases swept with
  | same heap pool => exact guards_of_same heap pool id c seals
  | collected heap pool =>
    refine (guards_of_same heap pool id c seals).collect ?_ live
    rw [heap, pool]
    exact stores

end Process

/-! ## Flags -/

theorem and_eight_eq : ∀ x : BitVec 8, x &&& 8#8 = 8#8 ↔ x.getLsbD 3 = true := by decide

theorem ObjectFlags.contains_immutable (s : ObjectFlags) :
    s.contains .immutable = true ↔ s.bits.toBitVec.getLsbD 3 = true := by
  rw [contains, immutable, beq_iff_eq, ← UInt8.toBitVec_inj, UInt8.toBitVec_and]
  exact and_eight_eq _

/-- Only to clear the flag itself makes an immutable object mutable. -/
theorem Object.hasFlag_setFlag {o : Object} {flag : ObjectFlags} {on : Bool}
    (closed : o.hasFlag .immutable = true)
    (kept : on = true ∨ flag.contains .immutable = false) :
    (o.setFlag flag on).hasFlag .immutable = true := by
  unfold hasFlag setFlag at *
  rw [ObjectFlags.contains_immutable] at closed ⊢
  cases on with
  | true => simp [ObjectFlags.set, closed]
  | false =>
    rw [← Bool.not_eq_true, ObjectFlags.contains_immutable] at kept
    simp only [Bool.false_eq_true, false_or, Bool.not_eq_true] at kept
    simpa [ObjectFlags.clear, closed] using kept

/-- Each single write leaves sealed what is sealed. -/
theorem Process.writeLaw_guards : WriteLaw Process.Guards where
  trans := Guards.trans
  same := guards_of_same
  callable get opened _ := guards_put get opened _
  flag get _ _ kept := guards_setFlag get fun closed => Object.hasFlag_setFlag closed kept
  allocate := guards_allocate
  replace := guards_replace
  attach := guards_attach
  detach := guards_detach

/-! ## Instructions that guard what is sealed -/

namespace Exec

open Process

/-- An attribute of an object that is open to change may be set or deleted. -/
theorem obeys_putMutable {id : ObjectId} (new : Object → Object) :
    Obeys Guards (mutableObject id >>= fun o => putObject id (new o)) :=
  writeLaw_guards.mutableObject_bind fun _ o _ get opened => guards_put get opened (new o)

theorem obeys_runAttribute (op : AttributeOp) (name : String) :
    Obeys Guards (runAttribute op name) := by
  cases op with
  | get | has => exact writeLaw_guards.runAttribute name nofun nofun
  | set =>
    exact writeLaw_guards.spends_bind spends_popObject fun _ =>
      writeLaw_guards.spends_bind spends_topObject fun _ => obeys_putMutable _
  | delete =>
    refine writeLaw_guards.spends_bind spends_topObject fun id =>
      writeLaw_guards.mutableObject_bind fun p o _ get opened => ?_
    refine writeLaw_guards.behind (spends_findAttribute o name).isSparing.aloof
      fun bound q heap _ => ?_
    refine writeLaw_guards.behind (spends_checkDeletable bound).isSparing.aloof
      fun _ r heap' _ => ?_
    exact guards_put (by rw [heap', heap, get]) opened _

theorem obeys_setAttributes : Obeys Guards setAttributes :=
  writeLaw_guards.spends_bind spends_topValue fun _ =>
    writeLaw_guards.spends_bind (spends_liftValue _) fun _ =>
      writeLaw_guards.spends_bind
        (spends_mapM (fun _ => (spends_look _).bind fun _ => .pure _) _) fun _ =>
          writeLaw_guards.spends_bind spends_topObject fun _ => obeys_putMutable _

/-- What is sealed stays sealed, unless the instruction may collect or clears the flag. -/
theorem obeys_execute {i : Instruction} (stays : i.op ≠ .control .return)
    (inner : i.op ≠ .runtime .collect)
    (kept : i.op = .object .setImmutable → i.first ≠ 0) : Obeys Guards (execute i) := by
  by_cases edits : i.op.EditsAttributes
  · unfold execute
    cases hop : i.op with
    | «attribute» op source =>
      exact writeLaw_guards.spends_bind (spends_readName source i) (obeys_runAttribute op)
    | setAttributes => exact obeys_setAttributes
    | object | «variable» | handle | control | argument | runtime | stack | constant | value =>
      rw [hop] at edits
      exact edits.elim
  · exact writeLaw_guards.execute stays inner kept edits

end Exec

end ObjectVM
