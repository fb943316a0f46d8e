import ObjectVM.Proofs.CallDiscipline

/-!
# What instructions pass

An instruction puts arguments into the call staged last (`Process.puts`), or takes some out of the
running frame's invocation (`Process.takes`). What it puts is read off the process in which it is
executed, and what it takes off the process that it leaves, in which the object stack holds it.

* `Exec.execute_puts`: the call gets what is put, behind what it has.
* `Exec.execute_takes`: the invocation gives what is taken, from the front, and has it no more.
* `Invocation.Holds.gets`, `Invocation.Holds.gives`: so it holds what has been sent and not been
  received.
-/
namespace ObjectVM

/-! ## Arguments -/

/-- Positional arguments and named ones, each in the order in which they are passed. -/
structure Arguments where
  positional : List ObjectId
  named : List (UInt64 × ObjectId)
  deriving DecidableEq

namespace Arguments

variable {a b sent received : Arguments} {key : UInt64}

instance : EmptyCollection Arguments := ⟨⟨[], []⟩⟩

instance : Append Arguments := ⟨fun a b => ⟨a.positional ++ b.positional, a.named ++ b.named⟩⟩

/-- The names of the named ones. -/
def names (a : Arguments) : List UInt64 := a.named.map (·.1)

/-- The last one of a name. -/
def last? (a : Arguments) (key : UInt64) : Option ObjectId := a.named.reverse.lookup key

/-- The positional ones of `sent` behind those that have been received. -/
def rest (sent received : Arguments) : List ObjectId :=
  sent.positional.drop received.positional.length

/-- The last one of a name that has been sent, unless the name has been received. -/
def rest? (sent received : Arguments) (key : UInt64) : Option ObjectId :=
  if key ∈ received.names then none else sent.last? key

theorem positional_append : (a ++ b).positional = a.positional ++ b.positional := rfl

theorem named_append : (a ++ b).named = a.named ++ b.named := rfl

theorem append_empty (a : Arguments) : a ++ ∅ = a := by
  cases a
  exact congrArg₂ mk (List.append_nil _) (List.append_nil _)

theorem append_assoc (a b c : Arguments) : a ++ b ++ c = a ++ (b ++ c) :=
  congrArg₂ mk (List.append_assoc ..) (List.append_assoc ..)

theorem mem_names_append : key ∈ (a ++ b).names ↔ key ∈ a.names ∨ key ∈ b.names := by
  unfold names
  rw [named_append, List.map_append, List.mem_append]

theorem last?_append (a b : Arguments) (key : UInt64) :
    (a ++ b).last? key = (b.last? key).or (a.last? key) := by
  unfold last?
  rw [named_append, List.reverse_append, List.lookup_append]

theorem rest?_eq_some_iff {id : ObjectId} : sent.rest? received key = some id ↔
    key ∉ received.names ∧ sent.last? key = some id := by
  unfold rest?
  split
  · next taken => exact ⟨nofun, fun h => absurd taken h.1⟩
  · next left => exact ⟨fun h => ⟨left, h⟩, fun h => h.2⟩

end Arguments

/-! ## What an invocation holds -/

namespace Invocation

variable {j j' : Invocation} {t sent received : Arguments} {id : ObjectId} {key : UInt64}

/-- `j'` is `j` with the arguments `t` added. -/
structure Gets (j : Invocation) (t : Arguments) (j' : Invocation) : Prop where
  positional : j'.positional = j.positional ++ t.positional
  taken : j'.taken = j.taken
  named : ∀ key, j'.named.get? key = (t.last? key).or (j.named.get? key)

/-- `j'` is `j` without the arguments `t`, of which the positional ones come first in it. -/
structure Gives (j : Invocation) (t : Arguments) (j' : Invocation) : Prop where
  within : j.taken ≤ j.positional.length → j'.taken ≤ j'.positional.length
  remaining : j.remaining = t.positional ++ j'.remaining
  named : ∀ key, j'.named.get? key = if key ∈ t.names then none else j.named.get? key
  once : t.names.Nodup
  there : ∀ e ∈ t.named, j.named.get? e.1 = some e.2

theorem Gets.refl (j : Invocation) : j.Gets ∅ j := ⟨(List.append_nil _).symm, rfl, fun _ => rfl⟩

theorem gets_put (j : Invocation) (id : ObjectId) : j.Gets ⟨[id], []⟩ (j.put id) :=
  ⟨rfl, rfl, fun _ => rfl⟩

theorem gets_putAll (j : Invocation) (ids : List ObjectId) : j.Gets ⟨ids, []⟩ (j.putAll ids) :=
  ⟨rfl, rfl, fun _ => rfl⟩

theorem gets_putAllNamed (j : Invocation) (entries : KeyMap ObjectId) :
    j.Gets ⟨[], entries.entries⟩ (j.putAllNamed entries) :=
  ⟨(List.append_nil _).symm, rfl, fun key => KeyMap.get?_insertAll_eq _ key _⟩

theorem gets_putNamed (j : Invocation) (key : UInt64) (id : ObjectId) :
    j.Gets ⟨[], [(key, id)]⟩ (j.putNamed key id) :=
  ⟨(List.append_nil _).symm, rfl, fun other => KeyMap.get?_insertAll_eq [(key, id)] other _⟩

theorem Gives.refl (j : Invocation) : j.Gives ∅ j :=
  ⟨id, rfl, fun _ => rfl, .nil, fun _ he => absurd he List.not_mem_nil⟩

/-- What comes next is the first of what remains. -/
theorem takeNext_eq (h : j.remaining.head? = some id) :
    j.takeNext = .ok (id, { j with taken := j.taken + 1 }) := by
  unfold remaining at h
  rw [List.head?_drop] at h
  unfold takeNext
  rw [h]

theorem takeNext_error (h : j.remaining.head? = none) :
    j.takeNext = .error (.missingParameter none) := by
  unfold remaining at h
  rw [List.head?_drop] at h
  unfold takeNext
  rw [h]

theorem gives_takeNext (h : j.takeNext = .ok (id, j')) : j.Gives ⟨[id], []⟩ j' := by
  unfold takeNext at h
  split at h
  · next found =>
    cases h
    obtain ⟨lt, rfl⟩ := List.getElem?_eq_some_iff.mp found
    exact ⟨fun _ => lt, List.drop_eq_getElem_cons lt, fun _ => rfl, .nil,
      fun _ he => absurd he List.not_mem_nil⟩
  · cases h

theorem gives_takeRemaining (j : Invocation) :
    j.Gives ⟨j.remaining, []⟩ j.takeRemaining.2 := by
  refine ⟨fun _ => Nat.le_refl _, ?_, fun _ => rfl, .nil, fun _ he => absurd he List.not_mem_nil⟩
  show j.remaining = j.remaining ++ j.positional.drop j.positional.length
  rw [List.drop_length, List.append_nil]

theorem takeNamed_eq (h : j.named.get? key = some id) :
    j.takeNamed key = .ok (id, { j with named := j.named.erase key }) := by
  unfold takeNamed
  rw [h]

theorem gives_takeNamed (h : j.named.get? key = some id) :
    j.Gives ⟨[], [(key, id)]⟩ { j with named := j.named.erase key } := by
  refine ⟨fun h => h, rfl, fun other => ?_, List.nodup_singleton key, fun e he => ?_⟩
  · rw [KeyMap.get?_erase]
    simp [Arguments.names]
  · obtain rfl := List.mem_singleton.mp he
    exact h

theorem gives_takeAllNamed (j : Invocation) :
    j.Gives ⟨[], j.named.entries⟩ j.takeAllNamed.2 := by
  have listed : ∀ e ∈ j.named.entries, j.named.get? e.1 = some e.2 := fun e he =>
    KeyMap.get?_eq_some_iff.mpr he
  refine ⟨fun h => h, rfl, fun key => ?_, ?_, listed⟩
  · show none = _
    split
    · rfl
    · next other =>
      refine (Option.eq_none_iff_forall_ne_some.mpr fun id there => other ?_).symm
      exact List.mem_map_of_mem (f := (·.1)) (KeyMap.get?_eq_some_iff.mp there)
  · exact List.pairwise_map.mpr (j.named.ascending.imp fun lt => UInt64.ne_of_lt lt)

/-- Of what has been `sent` the invocation holds what has not been `received`. -/
structure Holds (j : Invocation) (sent received : Arguments) : Prop where
  within : j.taken ≤ j.positional.length
  positional : received.positional ++ j.remaining = sent.positional
  named : ∀ key, j.named.get? key = sent.rest? received key
  once : received.names.Nodup
  last : ∀ e ∈ received.named, sent.last? e.1 = some e.2

theorem holds_new (ref : ClosureRef) : (new ref).Holds ∅ ∅ :=
  ⟨Nat.le_refl 0, rfl, fun _ => rfl, .nil, fun _ he => absurd he List.not_mem_nil⟩

theorem Holds.rest (h : j.Holds sent received) : j.remaining = sent.rest received := by
  unfold Arguments.rest
  rw [← h.positional, List.drop_left]

theorem Holds.hasMore (h : j.Holds sent received) :
    j.hasMore = decide (sent.rest received ≠ []) := by
  rw [← h.rest]
  unfold Invocation.hasMore remaining
  simp

/-- What is put into a call is sent. -/
theorem Holds.gets (h : j.Holds sent ∅) (gets : j.Gets t j') : j'.Holds (sent ++ t) ∅ := by
  refine ⟨?_, ?_, fun key => ?_, .nil, fun _ he => absurd he List.not_mem_nil⟩
  · rw [gets.taken, gets.positional, List.length_append]
    exact Nat.le_add_right_of_le h.within
  · show j'.positional.drop j'.taken = sent.positional ++ t.positional
    rw [gets.taken, gets.positional, List.drop_append_of_le_length h.within]
    exact congrArg (· ++ t.positional) h.positional
  · rw [gets.named, h.named]
    exact (Arguments.last?_append sent t key).symm

/-- What is taken from an invocation is received. -/
theorem Holds.gives (h : j.Holds sent received) (gives : j.Gives t j') :
    j'.Holds sent (received ++ t) := by
  -- a name that is taken now was there, so it had not been received
  have left : ∀ e ∈ t.named, e.1 ∉ received.names ∧ sent.last? e.1 = some e.2 := fun e he =>
    Arguments.rest?_eq_some_iff.mp ((h.named e.1).symm.trans (gives.there e he))
  refine ⟨gives.within h.within, ?_, fun key => ?_, ?_, fun e he => ?_⟩
  · rw [Arguments.positional_append, List.append_assoc, ← gives.remaining]
    exact h.positional
  · rw [gives.named, h.named]
    unfold Arguments.rest?
    simp only [Arguments.mem_names_append]
    by_cases now : key ∈ t.names
    · simp [now]
    · simp [now]
  · unfold Arguments.names
    rw [Arguments.named_append, List.map_append]
    refine List.nodup_append.mpr ⟨h.once, gives.once, fun key before key' now same => ?_⟩
    obtain ⟨e, he, rfl⟩ := List.mem_map.mp now
    exact (left e he).1 (same ▸ before)
  · exact (List.mem_append.mp he).elim (h.last e) fun he => (left e he).2

end Invocation

/-! ## What instructions put and take -/

theorem Value.asArray_eq_ok_iff {operation : String} {v : Value} {items : List ObjectId} :
    v.asArray operation = .ok items ↔ v = .array items := by
  cases v <;> simp [asArray]

theorem Value.asMap_eq_ok_iff {operation : String} {v : Value} {entries : KeyMap ObjectId} :
    v.asMap operation = .ok entries ↔ v = .map entries := by
  cases v <;> simp [asMap]

namespace Process

/-- The items of the array in the handle of an object. -/
def itemsIn (p : Process) (id : ObjectId) : List ObjectId :=
  match p.valueOf id with
  | .ok (.array items) => items
  | _ => []

/-- The entries of the map in the handle of an object. -/
def entriesIn (p : Process) (id : ObjectId) : List (UInt64 × ObjectId) :=
  match p.valueOf id with
  | .ok (.map entries) => entries.entries
  | _ => []

/-- What an opcode makes of the object that it puts. -/
def given (p : Process) (a : ArgumentOp) (key : UInt64) (id : ObjectId) : Arguments :=
  match a with
  | .put => ⟨[id], []⟩
  | .putNamed => ⟨[], [(key, id)]⟩
  | .putAll => ⟨p.itemsIn id, []⟩
  | .putAllNamed => ⟨[], p.entriesIn id⟩
  | .take | .takeNamed | .takeAll | .takeAllNamed | .hasMore => ∅

/-- What an instruction, executed in `p`, puts into the call staged last. -/
def puts (p : Process) (i : Instruction) : Arguments :=
  match i.op, p.objects with
  | .argument a, id :: _ => p.given a i.first id
  | _, _ => ∅

/-- The objects on top of the stack that an instruction, executed in `p`, has added. -/
def added (p : Process) (i : Instruction) : List ObjectId :=
  let objects := (p.after (.execute i)).objects
  objects.take (objects.length - p.objects.length)

/-- What an instruction, executed in `p`, has taken from the running frame's invocation. -/
def takes (p : Process) (i : Instruction) : Arguments :=
  let q := p.after (.execute i)
  match i.op with
  | .argument .take => ⟨p.added i, []⟩
  | .argument .takeNamed => ⟨[], (p.added i).map fun id => (i.first, id)⟩
  | .argument .takeAll => ⟨(p.added i).flatMap q.itemsIn, []⟩
  | .argument .takeAllNamed => ⟨[], (p.added i).flatMap q.entriesIn⟩
  | _ => ∅

/-- The process when a named argument has been taken from the invocation `j` of its running frame,
and pushed. -/
def takeNamed (p : Process) (f : Frame) (j : Invocation) (key : UInt64) (id : ObjectId) : Process :=
  { p.setInvocation f.invocation { j with named := j.named.erase key } with
    objects := id :: p.objects }

variable {p : Process} {i : Instruction} {f : Frame} {n : Nat} {j : Invocation}
  {a : ArgumentOp} {ids : List ObjectId}

theorem added_eq (objects : (p.after (.execute i)).objects = ids ++ p.objects) :
    p.added i = ids := by
  unfold added
  dsimp only
  rw [objects, List.length_append, Nat.add_sub_cancel]
  exact List.take_left

theorem added_eq_nil (objects : (p.after (.execute i)).objects = p.objects) : p.added i = [] :=
  added_eq objects

theorem itemsIn_of_array {id : ObjectId} {items : List ObjectId}
    (value : p.valueOf id = .ok (.array items)) : p.itemsIn id = items := by
  unfold itemsIn
  rw [value]

theorem itemsIn_eq_nil {id : ObjectId} (none : ∀ items, p.valueOf id ≠ .ok (.array items)) :
    p.itemsIn id = [] := by
  unfold itemsIn
  split
  · next value => exact absurd value (none _)
  · rfl

theorem entriesIn_of_map {id : ObjectId} {entries : KeyMap ObjectId}
    (value : p.valueOf id = .ok (.map entries)) : p.entriesIn id = entries.entries := by
  unfold entriesIn
  rw [value]

theorem entriesIn_eq_nil {id : ObjectId} (none : ∀ entries, p.valueOf id ≠ .ok (.map entries)) :
    p.entriesIn id = [] := by
  unfold entriesIn
  split
  · next value => exact absurd value (none _)
  · rfl

theorem puts_of_nil (none : p.objects = []) : p.puts i = ∅ := by
  unfold puts
  rw [none]
  split
  · contradiction
  · rfl

theorem puts_of_cons {id : ObjectId} {rest : List ObjectId} (op : i.op = .argument a)
    (objects : p.objects = id :: rest) : p.puts i = p.given a i.first id := by
  unfold puts
  rw [op, objects]

theorem getElem?_setInvocation {j' : Invocation} (there : p.invocations[n]? = some j) :
    (p.setInvocation n j').invocations[n]? = some j' :=
  Array.getElem?_setIfInBounds_self_of_lt (Array.getElem?_eq_some_iff.mp there).1

end Process

/-! ## To put -/

namespace Exec

variable {p q : Process} {i : Instruction} {f : Frame} {n : Nat} {j j' : Invocation}
  {a : ArgumentOp} {id : ObjectId} {v : Value} {t : Arguments}

theorem updateStaged_gets (top : p.calls.top? = some f) (above : f.invocation < n)
    (last : n + 1 = p.invocations.size) (there : p.invocations[n]? = some j)
    {g : Invocation → Invocation} (gets : j.Gets t (g j)) :
    ∃ j', (left (updateStaged g p)).invocations[n]? = some j' ∧ j.Gets t j' := by
  rw [left_updateStaged top above last there]
  exact ⟨g j, Process.getElem?_setInvocation there, gets⟩

/-- Where the arguments are read from the handle of an object, they are put if it has any. -/
theorem readAndPut_gets (top : p.calls.top? = some f) (above : f.invocation < n)
    (last : n + 1 = p.invocations.size) (there : p.invocations[n]? = some j) {α : Type}
    {read : Value → Except ValueError α} {g : α → Invocation → Invocation}
    (some : ∀ v a, p.valueOf id = .ok v → read v = .ok a → j.Gets t (g a j))
    (none : (∀ v a, p.valueOf id = .ok v → read v ≠ .ok a) → t = ∅) :
    ∃ j', (left ((do
        updateStaged (g (← liftValue (read (← look (·.valueOf id)))))) p)).invocations[n]? =
      .some j' ∧ j.Gets t j' := by
  cases value : p.valueOf id with
  | error fault =>
    rw [left_bind_error (look_error value)]
    exact ⟨j, there, none (fun v a h => by rw [value] at h; cases h) ▸ .refl j⟩
  | ok v =>
    rw [left_bind_ok (look_eq value)]
    cases items : read v with
    | error e =>
      have failed : (liftValue (.error e) : Exec α) p = .error (.value e) p := rfl
      rw [left_bind_error failed]
      refine ⟨j, there, none (fun v' a h => ?_) ▸ .refl j⟩
      rw [value] at h; cases h
      rw [items]
      nofun
    | ok a =>
      have lifted : (liftValue (.ok a) : Exec α) p = .ok a p := rfl
      rw [left_bind_ok lifted]
      exact updateStaged_gets top above last there (some v a value items)

/-- An instruction that puts arguments puts them into the call staged last. -/
theorem execute_puts (op : i.op = .argument a) (puts : a.isPut = true)
    (top : p.calls.top? = some f) (above : f.invocation < n) (last : n + 1 = p.invocations.size)
    (there : p.invocations[n]? = some j) :
    ∃ j', (p.after (.execute i)).invocations[n]? = some j' ∧ j.Gets (p.puts i) j' := by
  have ran : p.after (.execute i) = left (runArgument a i p) :=
    congrArg (fun m : Exec Unit => left (m p)) (Process.execute_argument op)
  rw [ran]
  cases objects : p.objects with
  | nil =>
    rw [Process.puts_of_nil objects]
    refine ⟨j, ?_, .refl j⟩
    have stuck : left (runArgument a i p) = p := by
      cases a with
      | put | putNamed | putAll | putAllNamed => exact left_bind_error (popObject_nil objects)
      | take | takeNamed | takeAll | takeAllNamed | hasMore => cases puts
    rw [stuck]
    exact there
  | cons id rest =>
    have popped : ∀ k : ObjectId → Exec Unit,
        left ((popObject >>= k) p) = left (k id { p with objects := rest }) := fun k =>
      left_bind_ok (popObject_eq objects)
    rw [Process.puts_of_cons op objects]
    cases a with
    | put =>
      rw [show left (runArgument .put i p) = _ from popped _]
      exact updateStaged_gets (p := { p with objects := rest }) top above last there (j.gets_put id)
    | putNamed =>
      rw [show left (runArgument .putNamed i p) = _ from popped _]
      exact updateStaged_gets (p := { p with objects := rest }) top above last there
        (j.gets_putNamed _ id)
    | putAll =>
      rw [show left (runArgument .putAll i p) = _ from popped _]
      refine readAndPut_gets (p := { p with objects := rest }) top above last there
        (fun v items value read => ?_) fun none => ?_
      · obtain rfl := Value.asArray_eq_ok_iff.mp read
        show j.Gets ⟨p.itemsIn id, []⟩ _
        rw [Process.itemsIn_of_array (p := p) value]
        exact j.gets_putAll items
      · show (⟨p.itemsIn id, []⟩ : Arguments) = ∅
        rw [Process.itemsIn_eq_nil (p := p) fun items value => none _ items value rfl]
        rfl
    | putAllNamed =>
      rw [show left (runArgument .putAllNamed i p) = _ from popped _]
      refine readAndPut_gets (p := { p with objects := rest }) top above last there
        (fun v entries value read => ?_) fun none => ?_
      · obtain rfl := Value.asMap_eq_ok_iff.mp read
        show j.Gets ⟨[], p.entriesIn id⟩ _
        rw [Process.entriesIn_of_map (p := p) value]
        exact j.gets_putAllNamed entries
      · show (⟨[], p.entriesIn id⟩ : Arguments) = ∅
        rw [Process.entriesIn_eq_nil (p := p) fun entries value => none _ entries value rfl]
        rfl
    | take | takeNamed | takeAll | takeAllNamed | hasMore => cases puts

/-! ## To take -/

theorem left_updateFrame (g : Frame → Except Fault Frame) (p : Process) :
    ∃ calls, left (updateFrame g p) = { p with calls } := by
  unfold updateFrame
  cases top : p.calls.top? with
  | none => exact ⟨p.calls, left_bind_error (topFrame_none top)⟩
  | some f =>
    rw [left_bind_ok (topFrame_eq top)]
    cases moved : g f with
    | error fault =>
      have failed : (lift (.error fault) : Exec Frame) p = .error fault p := rfl
      exact ⟨p.calls, left_bind_error failed⟩
    | ok f' => exact ⟨p.calls.modifyTop fun _ => f', rfl⟩

theorem newObject_eq (room : p.heap.isFull = false) :
    newObject p = .ok p.heap.allocate.1 { p with heap := p.heap.allocate.2 } := by
  unfold newObject
  rw [get_bind, room]
  rfl

theorem newObject_full (full : p.heap.isFull = true) :
    newObject p = .error (.heap (.exhausted p.heap.capacity)) p := by
  unfold newObject
  rw [get_bind, full]
  rfl

/-- A blank object gets a handle for its value if there is room in the pool. -/
theorem setValue_blank (blank : p.heap.get? id = some .blank) :
    setValue id v p =
      if p.pool.isFull then .error (.pool (.full p.pool.capacity)) p
      else .ok () { p with
        pool := (p.pool.allocate v).2
        heap := p.heap.put id { Object.blank with handle := some (p.pool.allocate v).1 } } := by
  have found : p.object id = .ok .blank := by rw [Process.object, Heap.find_eq, blank]; rfl
  refine (bind_ok (look_eq found)).trans ?_
  show (if p.pool.isFull then _ else _ : Exec Unit) p = _
  split <;> rfl

/-- Making an object with a value fails where the heap is full; where only the pool is, the object
is made and stays blank. -/
theorem newObjectWith_cases (books : p.heap.WellFormed) (v : Value) :
    p.heap.isFull = true ∧ newObjectWith v p = .error (.heap (.exhausted p.heap.capacity)) p ∨
    p.heap.isFull = false ∧ p.pool.isFull = true ∧
      newObjectWith v p =
        .error (.pool (.full p.pool.capacity)) { p with heap := p.heap.allocate.2 } ∨
    p.heap.isFull = false ∧ p.pool.isFull = false ∧
      newObjectWith v p = .ok p.heap.allocate.1 { p with
        pool := (p.pool.allocate v).2
        heap := p.heap.allocate.2.put p.heap.allocate.1
          { Object.blank with handle := some (p.pool.allocate v).1 } } := by
  unfold newObjectWith
  cases room : p.heap.isFull with
  | true => exact .inl ⟨rfl, bind_error (newObject_full room)⟩
  | false =>
    have blank : p.heap.allocate.2.get? p.heap.allocate.1 = some .blank := by
      rw [Heap.get?_allocate books room, if_pos rfl]
    have given := setValue_blank (p := { p with heap := p.heap.allocate.2 }) (v := v) blank
    rw [bind_ok (newObject_eq room)]
    cases slot : p.pool.isFull with
    | true =>
      rw [slot, if_pos rfl] at given
      exact .inr (.inl ⟨rfl, rfl, bind_error given⟩)
    | false =>
      rw [slot, if_neg Bool.false_ne_true] at given
      exact .inr (.inr ⟨rfl, rfl, bind_ok given⟩)

/-- An object that is made with a value has it. -/
theorem newObjectWith_ok (stores : Stores p.heap p.pool) (ran : newObjectWith v p = .ok id q) :
    q.objects = p.objects ∧ q.invocations = p.invocations ∧ q.valueOf id = .ok v := by
  rcases newObjectWith_cases stores.heapBooks v with
    ⟨-, failed⟩ | ⟨-, -, failed⟩ | ⟨room, slot, made⟩
  · cases failed.symm.trans ran
  · cases failed.symm.trans ran
  · have blank : p.heap.allocate.2.get? p.heap.allocate.1 = some .blank := by
      rw [Heap.get?_allocate stores.heapBooks room, if_pos rfl]
    cases made.symm.trans ran
    exact ⟨rfl, rfl, valueOf_of_pooled ((Heap.get?_put blank _ _).trans (if_pos rfl)) rfl
      ((Pool.get?_allocate stores.poolBooks slot v _).trans (if_pos rfl))⟩

/-- What is taken from the front is the next one. -/
theorem execute_take (op : i.op = .argument .take) (top : p.calls.top? = some f)
    (there : p.invocations[f.invocation]? = some j) (next : j.remaining.head? = some id) :
    execute i p = .ok () { p.setInvocation f.invocation { j with taken := j.taken + 1 } with
      objects := id :: p.objects } ∧ p.takes i = ⟨[id], []⟩ := by
  have ran : execute i p = .ok ()
      { p.setInvocation f.invocation { j with taken := j.taken + 1 } with
        objects := id :: p.objects } := by
    rw [Process.execute_argument op]
    exact bind_ok (takeOwn_eq top there (Invocation.takeNext_eq next))
  refine ⟨ran, ?_⟩
  have added : p.added i = [id] := Process.added_eq (congrArg (fun r => (left r).objects) ran)
  unfold Process.takes
  rw [op]
  exact congrArg (Arguments.mk · []) added

/-- What is taken all at once comes to the top of the stack in an object of its own. -/
theorem takeMade_ok {α : Type} {take : Invocation → α × Invocation} {value : α → Value}
    (stores : Stores p.heap p.pool) (top : p.calls.top? = some f)
    (there : p.invocations[f.invocation]? = some j)
    (ran : (do pushObject (← newObjectWith (value (← takeOwn (.ok <| take ·))))) p = .ok () q) :
    ∃ id, q.objects = id :: p.objects ∧
      q.invocations = (p.setInvocation f.invocation (take j).2).invocations ∧
        q.valueOf id = .ok (value (take j).1) := by
  have taken : takeOwn (.ok <| take ·) p = .ok (take j).1 _ := takeOwn_eq top there rfl
  rw [bind_ok taken] at ran
  cases made : newObjectWith (value (take j).1) (p.setInvocation f.invocation (take j).2) with
  | error fault r =>
    rw [bind_error made] at ran
    cases ran
  | ok id r =>
    rw [bind_ok made] at ran
    cases ran
    obtain ⟨objects, invocations, value⟩ :=
      newObjectWith_ok (p := p.setInvocation f.invocation (take j).2) stores made
    exact ⟨id, congrArg (id :: ·) objects, invocations, value⟩

/-- All that are left are taken at once, in an array. -/
theorem execute_takeAll (stores : Stores p.heap p.pool) (op : i.op = .argument .takeAll)
    (top : p.calls.top? = some f) (there : p.invocations[f.invocation]? = some j)
    (ran : execute i p = .ok () q) :
    q.invocations = (p.setInvocation f.invocation j.takeRemaining.2).invocations ∧
      p.takes i = ⟨j.remaining, []⟩ := by
  have after : p.after (.execute i) = q := congrArg left ran
  rw [Process.execute_argument op] at ran
  obtain ⟨id, objects, invocations, value⟩ := takeMade_ok stores top there ran
  have added : p.added i = [id] := Process.added_eq (after ▸ objects)
  refine ⟨invocations, ?_⟩
  unfold Process.takes
  simp only [op, added, after, List.flatMap_singleton, Process.itemsIn_of_array value]
  rfl

/-- All named ones that are left are taken at once, in a map. -/
theorem execute_takeAllNamed (stores : Stores p.heap p.pool) (op : i.op = .argument .takeAllNamed)
    (top : p.calls.top? = some f) (there : p.invocations[f.invocation]? = some j)
    (ran : execute i p = .ok () q) :
    q.invocations = (p.setInvocation f.invocation j.takeAllNamed.2).invocations ∧
      p.takes i = ⟨[], j.named.entries⟩ := by
  have after : p.after (.execute i) = q := congrArg left ran
  rw [Process.execute_argument op] at ran
  obtain ⟨id, objects, invocations, value⟩ := takeMade_ok stores top there ran
  have added : p.added i = [id] := Process.added_eq (after ▸ objects)
  refine ⟨invocations, ?_⟩
  unfold Process.takes
  simp only [op, added, after, List.flatMap_singleton, Process.entriesIn_of_map value]
  rfl

/-- A named one that is there is taken and pushed before the frame goes on. -/
theorem execute_takeNamed_eq (op : i.op = .argument .takeNamed) (top : p.calls.top? = some f)
    (there : p.invocations[f.invocation]? = some j) (given : j.named.get? i.first = some id) :
    execute i p = updateFrame (·.skip i.second) (p.takeNamed f j i.first id) := by
  have present : j.named.contains i.first = true := by
    unfold KeyMap.contains
    rw [given]
    rfl
  rw [Process.execute_argument op]
  refine (bind_ok (ownInvocation_eq top there)).trans ?_
  dsimp only
  rw [if_pos present]
  exact bind_ok (takeOwn_eq top there (Invocation.takeNamed_eq given))

/-- A named one that is there is taken, wherever the frame goes on then. -/
theorem execute_takeNamed (op : i.op = .argument .takeNamed) (top : p.calls.top? = some f)
    (there : p.invocations[f.invocation]? = some j) (given : j.named.get? i.first = some id) :
    (p.after (.execute i)).invocations =
        (p.setInvocation f.invocation { j with named := j.named.erase i.first }).invocations ∧
      p.takes i = ⟨[], [(i.first, id)]⟩ := by
  obtain ⟨calls, moved⟩ := left_updateFrame (·.skip i.second) (p.takeNamed f j i.first id)
  have ran : p.after (.execute i) = { p.takeNamed f j i.first id with calls } :=
    (congrArg left (execute_takeNamed_eq op top there given)).trans moved
  have added : p.added i = [id] := Process.added_eq (by rw [ran]; rfl)
  refine ⟨by rw [ran]; rfl, ?_⟩
  unfold Process.takes
  simp only [op, added, List.map_cons, List.map_nil]

/-- Where none is left, none is taken. -/
theorem execute_take_error (op : i.op = .argument .take) (top : p.calls.top? = some f)
    (there : p.invocations[f.invocation]? = some j) (none : j.remaining.head? = none) :
    execute i p = .error (.missingParameter .none) p := by
  rw [Process.execute_argument op]
  exact bind_error (takeOwn_error top there (Invocation.takeNext_error none))

/-- A named one that is missing changes nothing. -/
theorem execute_takeNamed_missing (op : i.op = .argument .takeNamed)
    (top : p.calls.top? = some f) (there : p.invocations[f.invocation]? = some j)
    (missing : j.named.get? i.first = none) : execute i p = .ok () p := by
  have absent : ¬j.named.contains i.first = true := by
    unfold KeyMap.contains
    rw [missing]
    exact Bool.false_ne_true
  rw [Process.execute_argument op]
  refine (bind_ok (ownInvocation_eq top there)).trans ?_
  exact congrFun (if_neg absent) p

/-- Whether any are left is told in a value. -/
theorem execute_hasMore (op : i.op = .argument .hasMore) (top : p.calls.top? = some f)
    (there : p.invocations[f.invocation]? = some j) :
    execute i p = .ok () { p with
      calls := p.calls.modifyTop fun _ => f.pushValue (.bool j.hasMore) } := by
  rw [Process.execute_argument op]
  refine (bind_ok (ownInvocation_eq top there)).trans ?_
  exact bind_ok (topFrame_eq top)

/-- An instruction that takes arguments takes them out of the running frame's invocation, unless it
takes all that are left and fails. -/
theorem execute_takes (stores : Stores p.heap p.pool) (op : i.op = .argument a)
    (takes : a.isPut = false) (top : p.calls.top? = some f)
    (there : p.invocations[f.invocation]? = some j)
    (kept : a = .takeAll ∨ a = .takeAllNamed → ∃ q, execute i p = .ok () q) :
    ∃ j', (p.after (.execute i)).invocations[f.invocation]? = some j' ∧ j.Gives (p.takes i) j' := by
  have set : ∀ j', (p.setInvocation f.invocation j').invocations[f.invocation]? = some j' :=
    fun j' => Process.getElem?_setInvocation there
  have nothing : ∀ {q}, p.after (.execute i) = q → q.invocations = p.invocations →
      p.takes i = ∅ → ∃ j', (p.after (.execute i)).invocations[f.invocation]? = some j' ∧
        j.Gives (p.takes i) j' := fun ran same taken => by
    rw [ran, same, taken]
    exact ⟨j, there, .refl j⟩
  cases a with
  | put | putNamed | putAll | putAllNamed => cases takes
  | take =>
    cases next : j.remaining.head? with
    | some id =>
      obtain ⟨ran, taken⟩ := execute_take op top there next
      rw [taken]
      refine ⟨_, ?_, Invocation.gives_takeNext (Invocation.takeNext_eq next)⟩
      exact (congrArg (fun r => (left r).invocations[f.invocation]?) ran).trans (set _)
    | none =>
      have ran : p.after (.execute i) = p := congrArg left (execute_take_error op top there next)
      refine nothing ran rfl ?_
      unfold Process.takes
      simp only [op, Process.added_eq_nil (congrArg (·.objects) ran)]
      rfl
  | takeNamed =>
    cases given : j.named.get? i.first with
    | some id =>
      obtain ⟨invocations, taken⟩ := execute_takeNamed op top there given
      rw [invocations, taken]
      exact ⟨_, set _, Invocation.gives_takeNamed given⟩
    | none =>
      have ran : p.after (.execute i) = p :=
        congrArg left (execute_takeNamed_missing op top there given)
      refine nothing ran rfl ?_
      unfold Process.takes
      simp only [op, Process.added_eq_nil (congrArg (·.objects) ran)]
      rfl
  | takeAll =>
    obtain ⟨q, ran⟩ := kept (.inl rfl)
    obtain ⟨invocations, taken⟩ := execute_takeAll stores op top there ran
    rw [show p.after (.execute i) = q from congrArg left ran, invocations, taken]
    exact ⟨_, set _, j.gives_takeRemaining⟩
  | takeAllNamed =>
    obtain ⟨q, ran⟩ := kept (.inr rfl)
    obtain ⟨invocations, taken⟩ := execute_takeAllNamed stores op top there ran
    rw [show p.after (.execute i) = q from congrArg left ran, invocations, taken]
    exact ⟨_, set _, j.gives_takeAllNamed⟩
  | hasMore =>
    refine nothing (congrArg left (execute_hasMore op top there)) rfl ?_
    unfold Process.takes
    simp only [op]

end Exec

end ObjectVM
