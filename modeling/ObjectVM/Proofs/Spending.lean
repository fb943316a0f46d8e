import ObjectVM.Proofs.Passing

/-!
# Operands

An instruction takes its operands, looks at what it needs, and changes the process last. So where it
fails it has taken operands and done no more (`Process.Spent`), and where it succeeds it has, as a
rule, left the heap and the pool alone. Both are said at once by `Process.Spares`, of the result of
some work: there is one such law for each step that instructions are made of, and `Spends.spares`
puts them together.

An opcode that writes to the stores checks first all the same (`Exec.ChecksFirst`). What is left out
here are the exceptions: raising one, and the opcodes that take arguments before they check.
-/
namespace ObjectVM

/-! ## Operands that are gone -/

/-- The frames after values of the running one have been taken from the top. -/
inductive CallStack.Spent (s : CallStack) : CallStack → Prop where
  | same : Spent s s
  | operands {f : Frame} {values : List Value} (top : s.top? = some f)
    (rest : values <:+ f.values) : Spent s (s.modifyTop fun _ => { f with values })

theorem CallStack.Spent.trans {s t u : CallStack} (a : s.Spent t) (b : t.Spent u) : s.Spent u := by
  cases a with
  | same => exact b
  | @operands f values top rest =>
    cases b with
    | same => exact .operands top rest
    | operands top' rest' =>
      rw [top?_modifyTop top] at top'
      cases top'
      rw [modifyTop_modifyTop]
      exact .operands (f := f) top (rest'.trans rest)

namespace Process

/-- `q` is `p` after operands have been taken from the evaluation stack of the running frame and
from the object stack. -/
structure Spent (p q : Process) : Prop where
  calls : p.calls.Spent q.calls
  objects : q.objects <:+ p.objects
  rest : q = { p with calls := q.calls, objects := q.objects, journal := q.journal }

/-- A result of work on `p`: a success has left the stores alone, and a failure has taken operands
and done no more. -/
def Spares {α : Type} (p : Process) : EStateM.Result Fault Process α → Prop
  | .ok _ q => q.heap = p.heap ∧ q.pool = p.pool
  | .error _ q => p.Spent q

/-- A result of work on `p`: a failure has taken operands and done no more. -/
def Checks {α : Type} (p : Process) : EStateM.Result Fault Process α → Prop
  | .ok .. => True
  | .error _ q => p.Spent q

variable {p q r : Process}

theorem Spent.refl (p : Process) : p.Spent p := ⟨.same, List.suffix_refl _, rfl⟩

theorem Spent.trans (a : p.Spent q) (b : q.Spent r) : p.Spent r := by
  refine ⟨a.calls.trans b.calls, b.objects.trans a.objects, ?_⟩
  rw [b.rest, a.rest]

theorem Spares.checks {α : Type} {r : EStateM.Result Fault Process α} (spares : p.Spares r) :
    p.Checks r := by
  cases r with
  | ok => trivial
  | error => exact spares

theorem Spent.heap (a : p.Spent q) : q.heap = p.heap := by rw [a.rest]

theorem Spent.pool (a : p.Spent q) : q.pool = p.pool := by rw [a.rest]

theorem spent_note (p : Process) (e : Event) : p.Spent (p.note e) :=
  ⟨.same, List.suffix_refl _, rfl⟩

theorem spent_values {f : Frame} {values : List Value} (top : p.calls.top? = some f)
    (rest : values <:+ f.values) :
    p.Spent { p with calls := p.calls.modifyTop fun _ => { f with values } } :=
  ⟨.operands top rest, List.suffix_refl _, rfl⟩

theorem spent_objects {objects : List ObjectId} (rest : objects <:+ p.objects) :
    p.Spent { p with objects } := ⟨.same, rest, rfl⟩

end Process

namespace Exec

variable {α β : Type} {p : Process}

/-- Whether it succeeds or fails, it takes operands and does no more. -/
def Spends (m : Exec α) : Prop := ∀ p : Process, p.Spent (left (m p))

/-- It leaves the stores alone, and where it fails it has taken operands and done no more. -/
def IsSparing (m : Exec α) : Prop := ∀ p : Process, p.Spares (m p)

/-- Where it fails, it has taken operands and done no more. -/
def ChecksFirst (m : Exec α) : Prop := ∀ p : Process, p.Checks (m p)

theorem IsSparing.checksFirst {m : Exec α} (sparing : IsSparing m) : ChecksFirst m :=
  fun p => (sparing p).checks

namespace Spends

theorem isSparing {m : Exec α} (spends : Spends m) : IsSparing m := by
  intro p
  have spent := spends p
  cases ran : m p with
  | ok a q =>
    rw [ran] at spent
    exact ⟨spent.heap, spent.pool⟩
  | error fault q =>
    rw [ran] at spent
    exact spent

theorem bind {m : Exec α} {k : α → Exec β} (hm : Spends m) (hk : ∀ a, Spends (k a)) :
    Spends (m >>= k) := by
  intro p
  have first := hm p
  rw [left_bind]
  cases ran : m p with
  | ok a q =>
    rw [ran] at first
    exact first.trans (hk a q)
  | error fault q =>
    rw [ran] at first
    exact first

/-- Work that spares the stores may come behind operands that are taken. -/
theorem spares {m : Exec α} {k : α → Exec β} (hm : Spends m) (hk : ∀ a, IsSparing (k a)) :
    IsSparing (m >>= k) := by
  intro p
  have first := hm p
  cases ran : m p with
  | ok a q =>
    rw [bind_ok ran]
    rw [ran] at first
    have rest := hk a q
    cases ran' : k a q with
    | ok b r =>
      rw [ran'] at rest
      exact ⟨rest.1.trans first.heap, rest.2.trans first.pool⟩
    | error fault r =>
      rw [ran'] at rest
      exact first.trans rest
  | error fault q =>
    rw [bind_error ran]
    rw [ran] at first
    exact first

/-- Work that checks first may come behind operands that are taken. -/
theorem checks {m : Exec α} {k : α → Exec β} (hm : Spends m) (hk : ∀ a, ChecksFirst (k a)) :
    ChecksFirst (m >>= k) := by
  intro p
  have first := hm p
  cases ran : m p with
  | ok a q =>
    rw [bind_ok ran]
    rw [ran] at first
    have rest := hk a q
    cases ran' : k a q with
    | ok b r => trivial
    | error fault r =>
      rw [ran'] at rest
      exact first.trans rest
  | error fault q =>
    rw [bind_error ran]
    rw [ran] at first
    exact first

theorem pure (a : α) : Spends (pure a : Exec α) := Process.Spent.refl

theorem throw (fault : Fault) : Spends (throw fault : Exec α) := Process.Spent.refl

theorem get_bind {k : Process → Exec α} (hk : ∀ p : Process, p.Spent (left (k p p))) :
    Spends (get >>= k) := hk

end Spends

/-! ## Looks and operands -/

theorem spends_look (f : Process → Except Fault α) : Spends (look f) := by
  refine .get_bind fun p => ?_
  cases f p <;> exact .refl p

theorem spends_lift (r : Except Fault α) : Spends (lift r) := by
  cases r <;> exact Process.Spent.refl

theorem spends_liftValue (r : Except ValueError α) : Spends (liftValue r) := by
  cases r <;> exact Process.Spent.refl

theorem spends_note (e : Event) : Spends (note e) := fun p => p.spent_note e

theorem spends_topFrame : Spends topFrame := by
  intro p
  cases top : p.calls.top? with
  | some f =>
    rw [topFrame_eq top]
    exact .refl p
  | none =>
    rw [topFrame_none top]
    exact .refl p

theorem spends_popObject : Spends popObject := by
  intro p
  cases ho : p.objects with
  | nil =>
    rw [popObject_nil ho]
    exact .refl p
  | cons id rest =>
    rw [popObject_eq ho]
    refine Process.spent_objects ?_
    rw [ho]
    exact List.suffix_cons id rest

theorem spends_topObject : Spends topObject := by
  refine .get_bind fun p => ?_
  cases p.objects <;> exact .refl p

theorem spends_object (id : ObjectId) : Spends (object id) := spends_look _

theorem spends_mutableObject (id : ObjectId) : Spends (mutableObject id) := by
  refine (spends_object id).bind fun o => ?_
  split
  · exact .throw _
  · exact .pure o

theorem object_found {id : ObjectId} {o : Object} (get : p.heap.get? id = some o) :
    object id p = .ok o p := by
  refine look_eq ?_
  rw [Process.object, Heap.find_eq, get]
  rfl

theorem object_missing {id : ObjectId} (gone : p.heap.get? id = none) :
    object id p = .error (.heap (.objectNotFound id)) p := by
  refine look_error ?_
  rw [Process.object, Heap.find_eq, gone]
  rfl

/-- An object that is there is given, unless it is closed to change. -/
theorem mutableObject_cases {id : ObjectId} {o : Object} (get : p.heap.get? id = some o) :
    o.hasFlag .immutable = true ∧
      mutableObject id p = .error (.misstep .immutableObject) p ∨
    o.hasFlag .immutable = false ∧ mutableObject id p = .ok o p := by
  rw [show mutableObject id p = _ from bind_ok (object_found get)]
  cases closed : o.hasFlag .immutable with
  | true => exact .inl ⟨rfl, rfl⟩
  | false => exact .inr ⟨rfl, rfl⟩

theorem spends_checkDeletable (id : ObjectId) : Spends (checkDeletable id) := by
  refine (spends_object id).bind fun o => ?_
  split
  · exact .throw _
  · exact .pure ()

theorem spends_popValue : Spends popValue := by
  intro p
  cases top : p.calls.top? with
  | none =>
    rw [show popValue p = _ from bind_error (topFrame_none top)]
    exact .refl p
  | some f =>
    rw [show popValue p = _ from bind_ok (topFrame_eq top)]
    unfold Frame.popValue
    cases hv : f.values with
    | nil => exact .refl p
    | cons v rest =>
      refine Process.spent_values top ?_
      rw [hv]
      exact List.suffix_cons v rest

theorem spends_topValue : Spends topValue := spends_topFrame.bind fun _ => spends_lift _

theorem spends_popOperands (n : Nat) : Spends (popOperands n) := by
  induction n with
  | zero => exact .pure _
  | succ n ih => exact spends_popValue.bind fun _ => ih.bind fun _ => .pure _

theorem spends_ownInvocation : Spends ownInvocation := by
  refine spends_topFrame.bind fun f => .get_bind fun p => ?_
  cases p.invocations[f.invocation]? <;> exact .refl p

theorem spends_stagedInvocation : Spends stagedInvocation := by
  intro p
  rcases stagedInvocation_cases p with ⟨fault, none⟩ | ⟨f, n, j, -, -, -, -, found⟩
  · rw [none]
    exact .refl p
  · rw [found]
    exact .refl p

theorem spends_lookVariable (key : UInt64) (f : Frame → Except Fault ObjectId) :
    Spends (lookVariable key f) := spends_topFrame.bind fun _ => spends_look _

theorem spends_readName (source : NameSource) (i : Instruction) : Spends (readName source i) := by
  cases source with
  | literal => exact spends_look _
  | computed => exact spends_popValue.bind fun _ => spends_liftValue _

theorem spends_findAttribute (o : Object) (name : String) : Spends (findAttribute o name) := by
  unfold findAttribute
  split
  · exact .pure _
  · exact .throw _

theorem spends_mapM {f : α → Exec β} (each : ∀ a, Spends (f a)) (l : List α) :
    Spends (l.mapM f) := by
  induction l with
  | nil =>
    rw [List.mapM_nil]
    exact .pure _
  | cons a l ih =>
    rw [List.mapM_cons]
    exact (each a).bind fun _ => ih.bind fun _ => .pure _

/-! ## Changes that spare the stores -/

theorem IsSparing.get_bind {k : Process → Exec α} (hk : ∀ p : Process, p.Spares (k p p)) :
    IsSparing (get >>= k) := hk

/-- A change of the process that leaves the stores alone. -/
theorem sparing_modify {g : Process → Process}
    (same : ∀ p : Process, (g p).heap = p.heap ∧ (g p).pool = p.pool) :
    IsSparing (modify g) := same

theorem sparing_setTopFrame (f : Frame) : IsSparing (setTopFrame f) := fun _ => ⟨rfl, rfl⟩

theorem sparing_changeFrame (g : Frame → Frame) :
    IsSparing (topFrame >>= fun f => setTopFrame (g f)) :=
  spends_topFrame.spares fun f => sparing_setTopFrame (g f)

theorem sparing_updateFrame (g : Frame → Except Fault Frame) : IsSparing (updateFrame g) :=
  spends_topFrame.spares fun _ => (spends_lift _).spares sparing_setTopFrame

theorem sparing_pushObject (id : ObjectId) : IsSparing (pushObject id) := fun _ => ⟨rfl, rfl⟩

theorem sparing_pushValue (v : Value) : IsSparing (pushValue v) :=
  sparing_changeFrame (·.pushValue v)

theorem sparing_setTopValue (v : Value) : IsSparing (setTopValue v) := sparing_updateFrame _

theorem sparing_putInvocation (n : Nat) (j : Invocation) : IsSparing (putInvocation n j) :=
  fun _ => ⟨rfl, rfl⟩

theorem sparing_updateStaged (g : Invocation → Invocation) : IsSparing (updateStaged g) :=
  spends_stagedInvocation.spares fun _ => sparing_putInvocation _ _

/-! ## Instructions that spare the stores -/

theorem sparing_swapObjects : IsSparing swapObjects := by
  refine .get_bind fun p => ?_
  rcases p.objects with _ | ⟨b, _ | ⟨a, rest⟩⟩
  · exact .refl p
  · exact .refl p
  · exact ⟨rfl, rfl⟩

theorem sparing_compareObjects (same : Bool) : IsSparing (compareObjects same) :=
  spends_popObject.spares fun _ => spends_popObject.spares fun _ => sparing_pushValue _

theorem sparing_loadVisible (key : UInt64) : IsSparing (loadVisible key) :=
  (spends_look _).spares sparing_pushObject

theorem sparing_storeOuter (key : UInt64) (links : Nat) : IsSparing (storeOuter key links) := by
  refine spends_popObject.spares fun id => spends_topFrame.spares fun _ =>
    (spends_look _).spares fun index => .get_bind fun p => ?_
  cases p.calls.get? index with
  | some _ => exact ⟨rfl, rfl⟩
  | none => exact .refl p

theorem sparing_runVariable (op : VariableOp) (i : Instruction) :
    IsSparing (runVariable op i) := by
  cases op with
  | load => exact sparing_loadVisible _
  | store => exact spends_popObject.spares fun _ => sparing_changeFrame _
  | storeOuter => exact sparing_storeOuter _ _
  | loadHidden => exact (spends_lookVariable _ _).spares sparing_pushObject
  | storeHidden => exact spends_popObject.spares fun _ => sparing_changeFrame _
  | delete | deleteHidden =>
    exact (spends_lookVariable _ _).spares fun id =>
      (spends_checkDeletable id).spares fun _ => sparing_changeFrame _
  | loadEither => exact spends_popValue.spares fun _ => sparing_loadVisible _

theorem sparing_getAttribute (name : String) : IsSparing (runAttribute .get name) :=
  spends_popObject.spares fun id => (spends_object id).spares fun o =>
    (spends_findAttribute o name).spares sparing_pushObject

theorem sparing_hasAttribute (name : String) : IsSparing (runAttribute .has name) :=
  spends_topObject.spares fun id => (spends_object id).spares fun _ => sparing_pushValue _

theorem sparing_objectTruthy : IsSparing objectTruthy := by
  refine spends_topObject.spares fun id => (spends_object id).spares fun o => ?_
  cases o.handle with
  | some key => exact (spends_look _).spares fun _ => sparing_pushValue _
  | none => exact sparing_pushValue _

/-- The opcodes that read a handle. -/
theorem sparing_readHandle {op : HandleOp} (reads : op = .get ∨ op = .getOf ∨ op = .truthy)
    (i : Instruction) : IsSparing (runHandle op i) := by
  rcases reads with rfl | rfl | rfl
  · exact spends_topObject.spares fun _ => (spends_look _).spares sparing_pushValue
  · exact (spends_look _).spares fun _ => (spends_look _).spares sparing_pushValue
  · exact sparing_objectTruthy

theorem sparing_stageCall : IsSparing stageCall := by
  refine spends_topObject.spares fun id => (spends_object id).spares fun o => ?_
  split
  · exact (spends_look _).spares fun _ => sparing_modify fun _ => ⟨rfl, rfl⟩
  · exact (Spends.throw _).isSparing

theorem sparing_pushFrame (ref : ClosureRef) (n : Nat) (address : Option Nat) :
    IsSparing (pushFrame ref n address) := by
  refine (spends_look _).spares fun _ => (spends_look _).spares fun _ => .get_bind fun p => ?_
  refine (spends_note _).spares (fun _ => .get_bind fun q => ?_) p
  split
  · exact .refl q
  · exact ⟨rfl, rfl⟩

theorem sparing_makeCall : IsSparing makeCall :=
  spends_stagedInvocation.spares fun _ => spends_topFrame.spares fun _ => sparing_pushFrame _ _ _

theorem sparing_runControl {op : ControlOp} (stays : op ≠ .return) (calm : op ≠ .raise)
    (i : Instruction) : IsSparing (runControl op i) := by
  have jumps : ∀ c : Bool, IsSparing (if c then jump i else pure () : Exec Unit) := by
    intro c
    cases c
    · exact (Spends.pure ()).isSparing
    · exact sparing_updateFrame _
  cases op with
  | stage => exact sparing_stageCall
  | invoke => exact sparing_makeCall
  | «return» => exact absurd rfl stays
  | jump => exact sparing_updateFrame _
  | jumpIf => exact spends_topValue.spares fun v => jumps _
  | jumpTo => exact sparing_updateFrame _
  | raise => exact absurd rfl calm
  | loadException =>
    refine spends_topFrame.spares fun f => ?_
    cases f.exception with
    | some id => exact sparing_pushObject id
    | none => exact (Spends.throw _).isSparing
  | clearException => exact sparing_changeFrame _
  | jumpException => exact spends_topFrame.spares fun f => jumps _
  | exit => exact (spends_note _).spares fun _ => sparing_modify fun _ => ⟨rfl, rfl⟩

theorem sparing_take {α : Type} (take : Invocation → Except Fault (α × Invocation))
    {k : α → Exec Unit} (hk : ∀ a p, ∃ q, k a p = .ok () q ∧ q.heap = p.heap ∧ q.pool = p.pool) :
    IsSparing (takeOwn take >>= k) := by
  intro p
  rcases takeOwn_cases take p with ⟨fault, none⟩ | ⟨f, j, a, j', -, -, -, taken⟩
  · rw [bind_error none]
    exact .refl p
  · obtain ⟨q, ran, heap, pool⟩ := hk a (p.setInvocation f.invocation j')
    rw [bind_ok taken, ran]
    exact ⟨heap, pool⟩

theorem sparing_put (op : ArgumentOp) (puts : op.isPut = true) (i : Instruction) :
    IsSparing (runArgument op i) := by
  cases op with
  | put | putNamed => exact spends_popObject.spares fun _ => sparing_updateStaged _
  | putAll | putAllNamed =>
    exact spends_popObject.spares fun _ => (spends_look _).spares fun _ =>
      (spends_liftValue _).spares fun _ => sparing_updateStaged _
  | take | takeNamed | takeAll | takeAllNamed | hasMore => cases puts

theorem sparing_hasMore (i : Instruction) : IsSparing (runArgument .hasMore i) :=
  spends_ownInvocation.spares fun _ => sparing_pushValue _

theorem sparing_write (s : String) : IsSparing (write s) := by
  refine .get_bind fun p => ?_
  cases p.output.write s with
  | ok written => exact ⟨rfl, rfl⟩
  | error reason => exact .refl p

theorem sparing_print (suppress : Bool) : IsSparing (print suppress) :=
  spends_popObject.spares fun _ => .get_bind fun p => sparing_write _ p

theorem sparing_perform (a : Action) : IsSparing (perform a) := by
  cases a with
  | compute n f =>
    exact (spends_popOperands n).spares fun _ => spends_topValue.spares fun _ =>
      (spends_liftValue _).spares sparing_setTopValue
  | read n f =>
    exact (spends_popOperands n).spares fun _ => spends_topValue.spares fun _ =>
      (spends_liftValue _).spares sparing_pushObject
  | store n f =>
    exact spends_popObject.spares fun _ => (spends_popOperands n).spares fun _ =>
      spends_topValue.spares fun _ => (spends_liftValue _).spares sparing_setTopValue
  | exchange f =>
    exact spends_topFrame.spares fun _ => (spends_lift _).spares fun _ =>
      (spends_liftValue _).spares fun _ => sparing_updateFrame _

theorem sparing_runStack (op : StackOp) : IsSparing (runStack op) := by
  cases op with
  | pop => exact spends_popValue.spares fun _ => (Spends.pure ()).isSparing
  | dup => exact spends_topValue.spares sparing_pushValue
  | swap => exact sparing_updateFrame _

theorem sparing_runConstant (op : ConstantOp) (i : Instruction) :
    IsSparing (runConstant op i) := by
  have float : ∀ key, Spends (floatLiteral key) := fun _ => (spends_look _).bind fun _ => .pure _
  cases op with
  | dec1 | dec2 => exact (float _).spares fun _ => sparing_pushValue _
  | text => exact (spends_look _).spares fun _ => sparing_pushValue _
  | int | bool | array | map => exact sparing_pushValue _

/-! ## Instructions that write to the stores -/

theorem checksFirst_putObject (id : ObjectId) (o : Object) : ChecksFirst (putObject id o) :=
  fun _ => trivial

theorem checksFirst_new : ChecksFirst (newObject >>= pushObject) := by
  intro p
  cases room : p.heap.isFull with
  | true =>
    rw [bind_error (newObject_full room)]
    exact .refl p
  | false =>
    rw [bind_ok (newObject_eq room)]
    trivial

theorem checksFirst_setValue (id : ObjectId) (v : Value) : ChecksFirst (setValue id v) := by
  refine (spends_object id).checks fun o p => ?_
  cases o.handle with
  | some key =>
    show p.Checks ((if p.pool.contains key then _ else _ : Exec Unit) p)
    split
    · trivial
    · exact .refl p
  | none =>
    show p.Checks ((if p.pool.isFull then _ else _ : Exec Unit) p)
    split
    · exact .refl p
    · trivial

theorem checksFirst_assign (id : ObjectId) (v : Value) : ChecksFirst (assign id v) :=
  (spends_mutableObject id).checks fun _ => checksFirst_setValue id v

theorem checksFirst_copyValue (f : Value → Value) : ChecksFirst (copyValue f) :=
  spends_popObject.checks fun _ => spends_topObject.checks fun target =>
    (spends_look _).checks fun v => checksFirst_assign target (f v)

theorem checksFirst_setFlag (flag : ObjectFlags) (on : Bool) : ChecksFirst (setFlag flag on) :=
  spends_topObject.checks fun id => (spends_object id).checks fun _ => checksFirst_putObject id _

theorem checksFirst_runObject (op : ObjectOp) (i : Instruction) : ChecksFirst (runObject op i) := by
  cases op with
  | new => exact checksFirst_new
  | pop => exact (spends_popObject.bind fun _ => .pure ()).isSparing.checksFirst
  | swap => exact sparing_swapObjects.checksFirst
  | same | different => exact (sparing_compareObjects _).checksFirst
  | setClosure =>
    exact spends_topFrame.checks fun _ => spends_topObject.checks fun id =>
      (spends_mutableObject id).checks fun _ => checksFirst_putObject id _
  | setPinned | setIndelible | setUncallable | setImmutable => exact checksFirst_setFlag _ _

theorem checksFirst_runAttribute (op : AttributeOp) (name : String) :
    ChecksFirst (runAttribute op name) := by
  cases op with
  | get => exact (sparing_getAttribute name).checksFirst
  | set =>
    exact spends_popObject.checks fun _ => spends_topObject.checks fun id =>
      (spends_mutableObject id).checks fun _ => checksFirst_putObject id _
  | delete =>
    exact spends_topObject.checks fun id => (spends_mutableObject id).checks fun o =>
      (spends_findAttribute o name).checks fun bound => (spends_checkDeletable bound).checks
        fun _ => checksFirst_putObject id _
  | has => exact (sparing_hasAttribute name).checksFirst

theorem checksFirst_setAttributes : ChecksFirst setAttributes :=
  spends_topValue.checks fun _ => (spends_liftValue _).checks fun _ =>
    (spends_mapM (fun _ => (spends_look _).bind fun _ => .pure _) _).checks fun _ =>
      spends_topObject.checks fun id => (spends_mutableObject id).checks fun _ =>
        checksFirst_putObject id _

/-- To take the handle away from the top object fails, or finds none, or takes away one whose value
is there, as the value of every handle that an object has is. -/
theorem clearHandle_cases (stores : Stores p.heap p.pool) :
    (∃ fault, clearHandle p = .error fault p) ∨ clearHandle p = .ok () p ∨
    ∃ id o key, p.heap.get? id = some o ∧ o.hasFlag .immutable = false ∧ o.handle = some key ∧
      clearHandle p = .ok () { p with
        heap := p.heap.put id { o with handle := none }
        pool := p.pool.without key } := by
  cases ho : p.objects with
  | nil => exact .inl ⟨_, bind_error (topObject_nil ho)⟩
  | cons id rest =>
    have top := topObject_cons ho
    cases get : p.heap.get? id with
    | none => exact .inl ⟨_, (bind_ok top).trans (bind_error (bind_error (object_missing get)))⟩
    | some o =>
      rcases mutableObject_cases get with ⟨-, closed⟩ | ⟨opened, found⟩
      · exact .inl ⟨_, (bind_ok top).trans (bind_error closed)⟩
      · cases has : o.handle with
        | none =>
          refine .inr (.inl ((bind_ok top).trans ((bind_ok found).trans ?_)))
          rw [has]
          rfl
        | some key =>
          obtain ⟨v, value⟩ := Pool.contains_iff.mp (stores.held id o key get has)
          refine .inr (.inr ⟨id, o, key, get, opened, has,
            (bind_ok top).trans ((bind_ok found).trans ?_)⟩)
          rw [has]
          refine (bind_ok rfl).trans ((bind_ok rfl).trans ?_)
          rw [Pool.erase_eq value, ← ho]
          rfl

theorem checks_clearHandle (sound : p.Sound) : p.Checks (clearHandle p) := by
  rcases clearHandle_cases sound.stores with ⟨_, failed⟩ | none | ⟨_, _, _, _, _, _, cleared⟩
  · rw [failed]
    exact .refl p
  · rw [none]
    trivial
  · rw [cleared]
    trivial

theorem checksFirst_returnFromFrame : ChecksFirst returnFromFrame := by
  intro p
  cases top : p.calls.top? with
  | none =>
    rw [show returnFromFrame p = _ from bind_error (bind_error (topFrame_none top))]
    exact .refl p
  | some f =>
    rw [returnFromFrame_eq top]
    trivial

end Exec

end ObjectVM
