import ObjectVM.Proofs.BulkAttributes
import ObjectVM.Proofs.EvaluationStack
import ObjectVM.Proofs.Immutability

/-!
# Attributes over time

Objects keep attributes under the hashes of their names, so two names of one hash are one attribute
(`colliding_names`). Names of different hashes are apart: over whatever happens to a process
(`Process.Course`), the last instruction that has set or deleted an attribute under a name of the
same hash decides what the name is bound to, and no other instruction matters
(`attributes_by_key`).

* `Process.writeLaw_sameAttributes`: no other write changes attributes, and a new object has none.
* `Process.attributes_execute`: one instruction binds what it edits.
* `Process.attributes_course`: so do many, by induction on what happens.
-/
namespace ObjectVM

/-! ## Edits -/

/-- That an attribute is set, or that it is deleted. -/
structure AttributeEdit where
  name : String
  value? : Option ObjectId
  deriving DecidableEq

/-- What a key that is bound to `start` is bound to after edits. -/
def AttributeEdit.bound (key : UInt64) (start : Option ObjectId) (edits : List AttributeEdit) :
    Option ObjectId :=
  edits.foldl (fun bound e => if Text.hash e.name = key then e.value? else bound) start

namespace Process

/-- The attributes of the object that `id` names. Where there is none, there are none. -/
def attributesOf (p : Process) (id : ObjectId) : KeyMap ObjectId :=
  ((p.heap.get? id).map (·.attributes)).getD ∅

/-- The value on top of the running frame's evaluation stack. -/
def topValue? (p : Process) : Option Value := p.calls.top?.bind (·.values.head?)

/-- The name that an instruction on attributes is about. -/
def name? (p : Process) (source : NameSource) (i : Instruction) : Option String :=
  match source, p.topValue? with
  | .literal, _ => (p.stringLiteral i.first).toOption
  | .computed, some (.text name) => some name
  | .computed, _ => none

/-- The edits that an instruction makes to its target if it succeeds. -/
def editing (p : Process) (i : Instruction) : List AttributeEdit :=
  match i.op, p.objects, p.topValue? with
  | .attribute .set source, value :: _, _ =>
    (p.name? source i).toList.map fun name => ⟨name, some value⟩
  | .attribute .delete source, _, _ => (p.name? source i).toList.map fun name => ⟨name, none⟩
  | .setAttributes, _, some (.map m) => m.entries.filterMap fun e =>
    (p.stringLiteral e.1).toOption.map fun name => ⟨name, some e.2⟩
  | _, _, _ => []

/-- The edits to an object that an instruction makes, executed in `p`. -/
def edits (p : Process) (i : Instruction) (id : ObjectId) : List AttributeEdit :=
  if p.target? i = some id ∧ Exec.fault? (Exec.execute i p) = none then p.editing i else []

/-- The edits to an object that the instructions of a log have made. -/
def Log.edits (log : Log) (id : ObjectId) : List AttributeEdit := log.flatMap fun e =>
  e.1.edits e.2 id

/-- What it means that the attributes of a process go by the hashes of their names. -/
structure AttributesByKey (p : Process) : Prop where
  /-- Whatever happens while an object lives, the last edit under a name of the same hash decides
  what a name is bound to. -/
  last : ∀ id log q, p.Course (·.heap.contains id = true) log q →
    ∀ before e after name, log.edits id = before ++ e :: after → Text.hash e.name = Text.hash name →
      (∀ e' ∈ after, Text.hash e'.name ≠ Text.hash name) →
        (q.attributesOf id).get? (Text.hash name) = e.value?
  /-- A name stays bound to what it is bound to, or unbound, while there are only edits under names
  of other hashes. -/
  apart : ∀ id log q, p.Course (·.heap.contains id = true) log q →
    ∀ name, (∀ e ∈ log.edits id, Text.hash e.name ≠ Text.hash name) →
      (q.attributesOf id).get? (Text.hash name) = (p.attributesOf id).get? (Text.hash name)
  /-- To get an attribute takes the object and gives what the name is bound to, or fails if it is
  not bound. -/
  got : ∀ log q, p.Course (fun _ => True) log q → ∀ r i, q.Executing r i →
    ∀ source name id rest, i.op = .attribute .get source → r.name? source i = some name →
      r.objects = id :: rest →
        (∃ value t, (q.attributesOf id).get? (Text.hash name) = some value ∧
          Exec.execute i r = .ok () t ∧ t.objects = value :: rest) ∨
        (q.attributesOf id).get? (Text.hash name) = none ∧
          ∃ t, Exec.execute i r = .error (.attributeNotFound name) t
  /-- To ask for an attribute tells whether the name is bound. -/
  told : ∀ log q, p.Course (fun _ => True) log q → ∀ r i, q.Executing r i →
    ∀ source name id rest, i.op = .attribute .has source → r.name? source i = some name →
      r.objects = id :: rest →
        ∃ t, Exec.execute i r = .ok () t ∧ t.objects = r.objects ∧
          t.topValue? = some (.bool ((q.attributesOf id).get? (Text.hash name)).isSome)

end Process

namespace AttributeEdit

variable {key : UInt64} {start : Option ObjectId} {edits before after : List AttributeEdit}
  {e : AttributeEdit}

theorem bound_append (key : UInt64) (start : Option ObjectId) (a b : List AttributeEdit) :
    bound key start (a ++ b) = bound key (bound key start a) b := List.foldl_append

theorem bound_apart (apart : ∀ e ∈ edits, Text.hash e.name ≠ key) :
    bound key start edits = start := by
  induction edits with
  | nil => rfl
  | cons e edits ih =>
    obtain ⟨other, apart⟩ := List.forall_mem_cons.mp apart
    show bound key (if Text.hash e.name = key then e.value? else start) edits = start
    rw [if_neg other]
    exact ih apart

theorem bound_cons (key : UInt64) (start : Option ObjectId) (e : AttributeEdit)
    (edits : List AttributeEdit) :
    bound key start (e :: edits) = bound key (bound key start [e]) edits := rfl

theorem get?_insert (m : KeyMap ObjectId) (name : String) (id : ObjectId) :
    (m.insert (Text.hash name) id).get? key = bound key (m.get? key) [⟨name, some id⟩] := by
  rw [KeyMap.get?_insert]
  exact if_congr eq_comm rfl rfl

theorem get?_erase (m : KeyMap ObjectId) (name : String) :
    (m.erase (Text.hash name)).get? key = bound key (m.get? key) [⟨name, none⟩] := by
  rw [KeyMap.get?_erase]
  exact if_congr eq_comm rfl rfl

theorem bound_last (same : Text.hash e.name = key) (apart : ∀ e ∈ after, Text.hash e.name ≠ key) :
    bound key start (before ++ e :: after) = e.value? := by
  rw [bound_append]
  show bound key (if Text.hash e.name = key then e.value? else _) after = _
  rw [if_pos same, bound_apart apart]

end AttributeEdit

/-! ## Writes that leave attributes alone -/

namespace Process

variable {p q r : Process} {id : ObjectId} {o : Object} {i : Instruction} {key : UInt64}
  {source : NameSource} {name : String}

/-- No object has other attributes in `q`. -/
def SameAttributes (p q : Process) : Prop := ∀ id, q.attributesOf id = p.attributesOf id

theorem attributesOf_of_get? (get : p.heap.get? id = some o) :
    p.attributesOf id = o.attributes := by
  unfold attributesOf
  rw [get]
  rfl

theorem sameAttributes_of_heap (heap : q.heap = p.heap) : p.SameAttributes q := by
  intro id
  unfold attributesOf
  rw [heap]

/-- What is put in place of an object decides its attributes and leaves those of others alone. -/
theorem attributesOf_put (get : p.heap.get? id = some o) {new : Object}
    (put : q.heap = p.heap.put id new) (j : ObjectId) :
    q.attributesOf j = if j = id then new.attributes else p.attributesOf j := by
  unfold attributesOf
  rw [put, Heap.get?_put get]
  split <;> rfl

theorem sameAttributes_put (get : p.heap.get? id = some o) {new : Object}
    (put : q.heap = p.heap.put id new) (same : new.attributes = o.attributes) :
    p.SameAttributes q := by
  intro j
  rw [attributesOf_put get put, same]
  split
  · next here => rw [here, attributesOf_of_get? get]
  · rfl

/-- A new object has no attributes. -/
theorem sameAttributes_allocate (stores : Stores p.heap p.pool) (room : p.heap.isFull = false) :
    p.SameAttributes { p with heap := p.heap.allocate.2 } := by
  intro j
  unfold attributesOf
  rw [Heap.get?_allocate stores.heapBooks room]
  split
  · next fresh =>
    rw [fresh, Heap.get?_allocate_fresh stores.heapBooks room]
    rfl
  · rfl

/-- Only the instructions that set or delete attributes change them. -/
theorem writeLaw_sameAttributes : WriteLaw SameAttributes where
  trans a b id := (b id).trans (a id)
  same heap _ := sameAttributes_of_heap heap
  callable get _ _ := sameAttributes_put get rfl rfl
  flag get _ _ _ := sameAttributes_put get rfl rfl
  allocate := sameAttributes_allocate
  replace _ _ _ _ _ := sameAttributes_of_heap rfl
  attach _ get _ _ _ := sameAttributes_put get rfl rfl
  detach _ get _ _ := sameAttributes_put get rfl rfl

theorem attributesOf_swept (stores : Stores p.heap p.pool) (swept : p.Swept q)
    (live : q.heap.contains id = true) : q.attributesOf id = p.attributesOf id := by
  cases swept with
  | same heap => exact sameAttributes_of_heap heap id
  | @collected r heap pool =>
    rw [← heap, ← pool] at stores
    obtain ⟨o, get⟩ := Heap.contains_iff.mp live
    have before := (Heap.get?_collect stores.heapBooks r.roots r.handleEdges id o).mp get
    rw [attributesOf_of_get? get, ← attributesOf_of_get? before.1]
    exact sameAttributes_of_heap heap id

end Process

/-- A frame that runs still runs when operands are gone. -/
theorem CallStack.Spent.top? {s t : CallStack} {f : Frame} (spent : s.Spent t)
    (running : s.top? = some f) : ∃ values, t.top? = some { f with values } := by
  cases spent with
  | same => exact ⟨f.values, running⟩
  | @operands g values top =>
    cases top.symm.trans running
    exact ⟨values, CallStack.top?_modifyTop top _⟩

/-! ## Names -/

namespace Exec

variable {α β : Type} {p q r : Process} {i : Instruction} {source : NameSource} {name : String}
  {id : ObjectId} {o : Object} {rest : List ObjectId}

theorem of_bind_ok {m : Exec α} {k : α → Exec β} {b : β} (ran : (m >>= k) p = .ok b r) :
    ∃ a q, m p = .ok a q ∧ k a q = .ok b r := by
  cases first : m p with
  | ok a q => exact ⟨a, q, rfl, (bind_ok first).symm.trans ran⟩
  | error fault q => cases (bind_error first).symm.trans ran

/-- The name is read, and with it at most a value is taken. -/
theorem readName_eq (named : p.name? source i = some name) :
    ∃ q, readName source i p = .ok name q := by
  cases source with
  | literal =>
    unfold Process.name? at named
    cases literal : p.stringLiteral i.first with
    | error fault =>
      rw [literal] at named
      cases named
    | ok s =>
      rw [literal] at named
      cases named
      exact ⟨p, look_eq literal⟩
  | computed =>
    unfold Process.name? at named
    split at named
    · contradiction
    · next text top =>
      cases named
      obtain ⟨f, running, head⟩ := Option.bind_eq_some_iff.mp top
      obtain ⟨values, there⟩ := List.head?_eq_some_iff.mp head
      exact ⟨_, bind_ok (popValue_eq running there)⟩
    · cases named

theorem topValue?_of_topValue {f : Frame} {v : Value} (top : p.calls.top? = some f)
    (value : f.topValue = .ok v) : p.topValue? = some v := by
  unfold Process.topValue?
  rw [top, Option.bind_some]
  unfold Frame.topValue at value
  split at value
  · next there =>
    cases value
    rw [there]
    rfl
  · cases value

theorem topValue?_of_popValue {v : Value} (ran : popValue p = .ok v q) : p.topValue? = some v := by
  cases top : p.calls.top? with
  | none =>
    have stuck : popValue p = .error .frameNotFound p := bind_error (topFrame_none top)
    cases stuck.symm.trans ran
  | some f =>
    cases there : f.values with
    | nil => cases (popValue_nil top there).symm.trans ran
    | cons w values =>
      cases (popValue_eq top there).symm.trans ran
      unfold Process.topValue?
      rw [top, Option.bind_some, there]
      rfl

theorem name_of_readName (ran : readName source i p = .ok name q) :
    p.name? source i = some name := by
  cases source with
  | literal =>
    cases literal : p.stringLiteral i.first with
    | error fault => cases (look_error literal).symm.trans ran
    | ok s =>
      cases (look_eq literal).symm.trans ran
      unfold Process.name?
      rw [literal]
      rfl
  | computed =>
    obtain ⟨v, r, popped, text⟩ := of_bind_ok ran
    unfold Process.name?
    rw [topValue?_of_popValue popped]
    cases read : v.asText attributeName with
    | error e =>
      rw [read] at text
      cases text
    | ok s =>
      rw [read] at text
      cases text
      rw [Value.asText_eq_ok_iff.mp read]

/-- What is left behind the name. -/
theorem rest_of_readName (ran : readName source i p = .ok name q) :
    p.Spent q ∧ q.objects = p.objects := by
  have takes := takesValues_readName source i
  have spent := takes.spends p
  have objects := takes.objects p
  rw [ran] at spent objects
  exact ⟨spent, objects⟩

/-! ## Instructions that edit -/

theorem topObject_ok (ran : topObject p = .ok id q) : p = q ∧ p.objects.head? = some id := by
  cases objects : p.objects with
  | nil => cases (topObject_nil objects).symm.trans ran
  | cons j rest =>
    cases (topObject_cons objects).symm.trans ran
    exact ⟨rfl, rfl⟩

theorem topValue_ok {v : Value} (ran : topValue p = .ok v q) :
    p = q ∧ ∃ f, p.calls.top? = some f ∧ f.topValue = .ok v := by
  cases top : p.calls.top? with
  | none =>
    have stuck : topValue p = .error .frameNotFound p := bind_error (topFrame_none top)
    cases stuck.symm.trans ran
  | some f =>
    have looked : topValue p = lift f.topValue p := bind_ok (topFrame_eq top)
    cases value : f.topValue with
    | error fault =>
      rw [looked, value] at ran
      cases ran
    | ok w =>
      rw [looked, value] at ran
      cases ran
      exact ⟨rfl, f, rfl, value⟩

theorem mutableObject_ok (ran : mutableObject id p = .ok o q) :
    p = q ∧ p.heap.get? id = some o := by
  cases get : p.heap.get? id with
  | none =>
    have missing : mutableObject id p = .error (.heap (.objectNotFound id)) p :=
      bind_error (object_missing get)
    cases missing.symm.trans ran
  | some o' =>
    rcases mutableObject_cases get with ⟨-, refused⟩ | ⟨-, found⟩
    · cases refused.symm.trans ran
    · cases found.symm.trans ran
      exact ⟨rfl, rfl⟩

theorem set_ok (ran : runAttribute .set name p = .ok () q) :
    ∃ value target rest o, p.objects = value :: target :: rest ∧ p.heap.get? target = some o ∧
      q.heap = p.heap.put target (o.putAttribute (Text.hash name) value) := by
  obtain ⟨value, r, popped, ran⟩ := of_bind_ok ran
  cases objects : p.objects with
  | nil => cases (popObject_nil objects).symm.trans popped
  | cons value' below =>
    cases (popObject_eq objects).symm.trans popped
    obtain ⟨target, _, top, changed⟩ := of_bind_ok ran
    obtain ⟨rfl, head⟩ := topObject_ok top
    obtain ⟨o, _, opened, put⟩ := of_bind_ok changed
    obtain ⟨rfl, get⟩ := mutableObject_ok opened
    cases put
    obtain ⟨rest, rfl⟩ := List.head?_eq_some_iff.mp head
    exact ⟨value, target, rest, o, rfl, get, rfl⟩

theorem delete_ok (ran : runAttribute .delete name p = .ok () q) :
    ∃ target rest o, p.objects = target :: rest ∧ p.heap.get? target = some o ∧
      q.heap = p.heap.put target (o.eraseAttribute (Text.hash name)) := by
  obtain ⟨target, _, top, changed⟩ := of_bind_ok ran
  obtain ⟨rfl, head⟩ := topObject_ok top
  obtain ⟨o, _, opened, erased⟩ := of_bind_ok changed
  obtain ⟨rfl, get⟩ := mutableObject_ok opened
  obtain ⟨bound, r, found, allowed⟩ := of_bind_ok erased
  obtain ⟨_, t, checked, put⟩ := of_bind_ok allowed
  have looked := spends_findAttribute o name p
  have permitted := spends_checkDeletable bound r
  rw [found] at looked
  rw [checked] at permitted
  cases put
  obtain ⟨rest, objects⟩ := List.head?_eq_some_iff.mp head
  refine ⟨target, rest, o, objects, get, ?_⟩
  have same : t.heap = p.heap := permitted.heap.trans looked.heap
  show t.heap.put target _ = _
  rw [same]

theorem setAttributes_ok (s : p.Sound) (ran : setAttributes p = .ok () q) :
    ∃ m target rest o bindings, p.topValue? = some (.map m) ∧ p.objects = target :: rest ∧
      p.heap.get? target = some o ∧ m.entries.Forall₂ p.Binds bindings ∧
      q.heap = p.heap.put target { o with attributes := o.attributes.insertAll bindings } := by
  obtain ⟨v, _, valued, lifted⟩ := of_bind_ok ran
  obtain ⟨rfl, f, running, value⟩ := topValue_ok valued
  cases read : v.asMap "setattrs" with
  | error e =>
    rw [read] at lifted
    cases lifted
  | ok m =>
    cases Value.asMap_eq_ok_iff.mp read
    obtain ⟨m', _, entries, behind⟩ := of_bind_ok lifted
    cases entries
    obtain ⟨bs, r, looked, changed⟩ := of_bind_ok behind
    obtain ⟨target, _, top, -⟩ := of_bind_ok changed
    obtain ⟨rfl, head⟩ := topObject_ok top
    rcases bindings_cases p m.entries with ⟨bindings, all, named⟩ | ⟨-, fault, failed⟩
    · cases named.symm.trans looked
      obtain ⟨rest, objects⟩ := List.head?_eq_some_iff.mp head
      obtain ⟨o, get⟩ := Heap.contains_iff.mp
        (s.objects target (by rw [objects]; exact List.mem_cons_self))
      rcases setAttributes_cases running value objects get with
        ⟨-, fault, failed⟩ | ⟨-, bindings, all, made⟩
      · cases failed.symm.trans ran
      · cases made.symm.trans ran
        exact ⟨m, target, rest, o, bindings, topValue?_of_topValue running value, objects, get, all,
          rfl⟩
    · cases failed.symm.trans looked

end Exec

/-! ## One instruction -/

namespace Process

variable {p q r : Process} {id : ObjectId} {o : Object} {i : Instruction} {key : UInt64}

theorem edits_of_failed {fault : Fault} (failed : Exec.execute i p = .error fault q) :
    p.edits i id = [] := by
  unfold edits
  rw [failed]
  exact if_neg fun h => nomatch h.2

theorem edits_of_done (done : Exec.execute i p = .ok () q) :
    p.edits i id = if p.target? i = some id then p.editing i else [] := by
  unfold edits
  rw [done]
  simp only [Exec.fault?, and_true]

/-- An instruction of another kind makes no edits. -/
theorem edits_of_apart (apart : ¬ i.op.EditsAttributes) : p.edits i id = [] := by
  have none : p.editing i = [] := by
    unfold editing
    cases hop : i.op with
    | «attribute» op source =>
      rw [hop] at apart
      cases op with
      | set | delete => exact absurd trivial apart
      | get | has => rfl
    | setAttributes =>
      rw [hop] at apart
      exact absurd trivial apart
    | object | «variable» | handle | control | argument | runtime | stack | constant | value => rfl
  unfold edits
  rw [none]
  exact ite_self []

/-- A write that puts one object back with other attributes binds what the edits say, if they say so
of that object. -/
theorem bound_of_put {target : ObjectId} {attributes : KeyMap ObjectId}
    (edits : List AttributeEdit) (done : Exec.execute i p = .ok () q)
    (aimed : p.target? i = some target) (get : p.heap.get? target = some o)
    (put : q.heap = p.heap.put target { o with attributes }) (made : p.editing i = edits)
    (bound : attributes.get? key = AttributeEdit.bound key (o.attributes.get? key) edits) :
    (q.attributesOf id).get? key =
      AttributeEdit.bound key ((p.attributesOf id).get? key) (p.edits i id) := by
  rw [edits_of_done done, attributesOf_put get put, aimed, made]
  by_cases here : id = target
  · subst here
    rw [if_pos rfl, if_pos rfl, attributesOf_of_get? get]
    exact bound
  · rw [if_neg here, if_neg fun same => here (Option.some.inj same).symm]
    rfl

/-- Entries of a map are bound in their order. -/
theorem bound_entries {entries bindings : List (UInt64 × ObjectId)}
    (all : entries.Forall₂ p.Binds bindings) : ∀ m : KeyMap ObjectId,
      (m.insertAll bindings).get? key = AttributeEdit.bound key (m.get? key)
        (entries.filterMap fun e => (p.stringLiteral e.1).toOption.map fun name =>
          ⟨name, some e.2⟩) := by
  induction all with
  | nil => exact fun m => rfl
  | @cons e b entries bindings binds all ih =>
    intro m
    obtain ⟨name, literal, rfl⟩ := binds
    rw [List.filterMap_cons, literal]
    show ((m.insert (Text.hash name) e.2).insertAll bindings).get? key =
      AttributeEdit.bound key (m.get? key) (⟨name, some e.2⟩ :: _)
    rw [ih, AttributeEdit.get?_insert, ← AttributeEdit.bound_cons]

/-- An instruction that sets or deletes attributes binds what it edits. -/
theorem attributes_edited (s : p.Sound) (edits : i.op.EditsAttributes)
    (done : Exec.execute i p = .ok () q) :
    (q.attributesOf id).get? key =
      AttributeEdit.bound key ((p.attributesOf id).get? key) (p.edits i id) := by
  have ran := done
  unfold Exec.execute at ran
  cases hop : i.op with
  | «attribute» op source =>
    rw [hop] at ran edits
    obtain ⟨name, r, read, changed⟩ := Exec.of_bind_ok ran
    have named := Exec.name_of_readName read
    obtain ⟨spent, objects⟩ := Exec.rest_of_readName read
    cases op with
    | get | has => exact edits.elim
    | set =>
      obtain ⟨value, target, rest, o, there, get, put⟩ := Exec.set_ok changed
      rw [objects] at there
      rw [spent.heap] at get put
      refine bound_of_put [⟨name, some value⟩] done ?_ get put ?_ (AttributeEdit.get?_insert ..)
      · unfold target?
        rw [hop, there]
        rfl
      · unfold editing
        rw [hop, there]
        dsimp only
        rw [named]
        rfl
    | delete =>
      obtain ⟨target, rest, o, there, get, put⟩ := Exec.delete_ok changed
      rw [objects] at there
      rw [spent.heap] at get put
      refine bound_of_put [⟨name, none⟩] done ?_ get put ?_ (AttributeEdit.get?_erase ..)
      · unfold target?
        rw [hop, there]
        rfl
      · unfold editing
        rw [hop]
        dsimp only
        rw [named]
        rfl
  | setAttributes =>
    rw [hop] at ran
    obtain ⟨m, target, rest, o, bindings, map, there, get, all, put⟩ := Exec.setAttributes_ok s ran
    refine bound_of_put _ done ?_ get put ?_ (bound_entries all _)
    · unfold target?
      rw [hop, there]
      rfl
    · unfold editing
      rw [hop, map]
  | object | «variable» | handle | control | argument | runtime | stack | constant | value =>
    rw [hop] at edits
    exact edits.elim

theorem heap_of_failed {fault : Fault} (s : p.Sound) (edits : i.op.EditsAttributes)
    (failed : Exec.execute i p = .error fault q) : q.heap = p.heap := by
  have raises : i.op ≠ .control .raise := fun op => by rw [op] at edits; exact edits
  cases Exec.failsTo_execute s raises failed with
  | spent spent => exact spent.heap
  | stranded op => rw [op] at edits; exact edits.elim
  | drained op | blank op => rcases op with op | op <;> rw [op] at edits <;> exact edits.elim

/-- What an instruction makes of an attribute of an object that still lives. -/
theorem attributes_execute (s : p.Sound)
    (live : (p.after (.execute i)).heap.contains id = true) :
    ((p.after (.execute i)).attributesOf id).get? key =
      AttributeEdit.bound key ((p.attributesOf id).get? key) (p.edits i id) := by
  by_cases edits : i.op.EditsAttributes
  · cases ran : Exec.execute i p with
    | ok _ q =>
      rw [show p.after (.execute i) = q from congrArg Exec.left ran]
      exact attributes_edited s edits ran
    | error fault q =>
      rw [show p.after (.execute i) = q from congrArg Exec.left ran, edits_of_failed ran,
        sameAttributes_of_heap (heap_of_failed s edits ran)]
      rfl
  · have same : (p.after (.execute i)).attributesOf id = p.attributesOf id := by
      by_cases sweeps : i.op = .control .return ∨ i.op = .runtime .collect
      · exact attributesOf_swept s.stores (Exec.swept_execute sweeps p) live
      rw [not_or] at sweeps
      by_cases opens : i.op = .object .setImmutable
      · have ran : Exec.execute i = Exec.setFlag .immutable (i.first != 0) := by
          unfold Exec.execute
          rw [opens]
          rfl
        have flagged : Exec.Obeys SameAttributes (Exec.setFlag .immutable (i.first != 0)) :=
          writeLaw_sameAttributes.spends_bind Exec.spends_topObject fun _ =>
            writeLaw_sameAttributes.object_bind fun _ _ _ get => sameAttributes_put get rfl rfl
        rw [← ran] at flagged
        exact flagged p s.stores id
      · have obeys := writeLaw_sameAttributes.execute sweeps.1 sweeps.2
          (fun op => absurd op opens) edits
        exact obeys p s.stores id
    rw [same, edits_of_apart edits]
    rfl

/-! ## Whatever happens -/

variable {log : Log} {label : Option (Process × Instruction)}

theorem attributes_happens (h : p.Happens label q) (s : p.Sound)
    (live : q.heap.contains id = true) :
    (q.attributesOf id).get? key =
      AttributeEdit.bound key ((p.attributesOf id).get? key) (Log.edits label.toList id) := by
  rcases h.stores s with ⟨r, i, labelled, sound, heap, -, rfl⟩ | ⟨labelled, swept | gone⟩
  · rw [attributes_execute sound live, sameAttributes_of_heap heap, labelled]
    rw [show Log.edits (some (r, i)).toList id = r.edits i id from List.append_nil _]
  · rw [attributesOf_swept s.stores swept live, labelled]
    rfl
  · cases (gone id).symm.trans live

/-- By induction on what has happened last: each instruction binds what it edits. -/
theorem attributes_course (s : p.Sound) (a : p.Course (·.heap.contains id = true) log q) :
    q.Sound ∧ ∀ key, (q.attributesOf id).get? key =
      AttributeEdit.bound key ((p.attributesOf id).get? key) (log.edits id) := by
  induction a with
  | refl => exact ⟨s, fun _ => rfl⟩
  | next _ h live ih =>
    obtain ⟨s, before⟩ := ih
    refine ⟨h.sound s, fun key => ?_⟩
    rw [attributes_happens h s live, before, Log.edits, Log.edits, Log.edits, List.flatMap_append,
      AttributeEdit.bound_append]

theorem Course.sound {alive : Process → Prop} (a : p.Course alive log q) (s : p.Sound) :
    q.Sound := by
  induction a with
  | refl => exact s
  | next _ h _ ih => exact h.sound ih

/-- To deliver signals and to fetch leave the heap alone. -/
theorem Executing.heap (x : p.Executing q i) : q.heap = p.heap := by
  cases x with
  | asked => rfl
  | @fetched t _ f _ delivered on top fetch =>
    have handled := (Exec.aloof_deliverSignals p).1
    have fetched : t.fetched = q := by
      rw [fetched_of_top top, fetch]
      rfl
    rw [delivered] at handled
    rw [← fetched]
    exact t.stores_fetched.1.trans handled

end Process

/-! ## Reading attributes -/

namespace Exec

variable {p q : Process} {i : Instruction} {source : NameSource} {name : String} {id : ObjectId}
  {o : Object} {rest : List ObjectId}

/-- To get an attribute takes the object and gives what the attribute is bound to. -/
theorem execute_get (op : i.op = .attribute .get source) (named : p.name? source i = some name)
    (objects : p.objects = id :: rest) (get : p.heap.get? id = some o) :
    (∃ value t, o.attributes.get? (Text.hash name) = some value ∧ execute i p = .ok () t ∧
        t.objects = value :: rest) ∨
      o.attributes.get? (Text.hash name) = none ∧
        ∃ t, execute i p = .error (.attributeNotFound name) t := by
  obtain ⟨q, read⟩ := readName_eq named
  obtain ⟨spent, same⟩ := rest_of_readName read
  rw [← same] at objects
  rw [← spent.heap] at get
  have ran : execute i p = runAttribute .get name q := by
    unfold execute
    rw [op]
    exact bind_ok read
  have found : ∀ k : Object → Exec Unit,
      (popObject >>= fun id => object id >>= k) q = k o { q with objects := rest } := fun k =>
    (bind_ok (popObject_eq objects)).trans (bind_ok (object_found get))
  rw [ran]
  cases bound : o.attributes.get? (Text.hash name) with
  | some value =>
    have there : findAttribute o name { q with objects := rest } =
        .ok value { q with objects := rest } := by
      unfold findAttribute Object.attribute?
      rw [bound]
      rfl
    exact .inl ⟨value, _, rfl, (found _).trans (bind_ok there), rfl⟩
  | none =>
    have missing : findAttribute o name { q with objects := rest } =
        .error (.attributeNotFound name) { q with objects := rest } := by
      unfold findAttribute Object.attribute?
      rw [bound]
      rfl
    exact .inr ⟨rfl, _, (found _).trans (bind_error missing)⟩

/-- An instruction on attributes that reads its name has a running frame. -/
theorem running_of_name (named : p.name? source i = some name) : ∃ f, p.calls.top? = some f := by
  cases top : p.calls.top? with
  | some f => exact ⟨f, rfl⟩
  | none =>
    have none : p.name? source i = none := by
      cases source with
      | literal =>
        have missing : p.stringLiteral i.first = .error .frameNotFound := by
          unfold Process.stringLiteral Process.currentCompartment
          rw [top]
          rfl
        unfold Process.name?
        rw [missing]
        rfl
      | computed =>
        unfold Process.name? Process.topValue?
        rw [top]
        rfl
    cases none.symm.trans named

/-- To ask for an attribute leaves the object and tells whether the attribute is bound. -/
theorem execute_has (op : i.op = .attribute .has source) (named : p.name? source i = some name)
    (objects : p.objects = id :: rest) (get : p.heap.get? id = some o) :
    ∃ t, execute i p = .ok () t ∧ t.objects = p.objects ∧
      t.topValue? = some (.bool (o.attributes.get? (Text.hash name)).isSome) := by
  obtain ⟨q, read⟩ := readName_eq named
  obtain ⟨spent, same⟩ := rest_of_readName read
  obtain ⟨f, running⟩ := running_of_name named
  obtain ⟨values, top⟩ := spent.calls.top? running
  rw [← spent.heap] at get
  have ran : execute i p = pushValue (.bool (o.attributes.get? (Text.hash name)).isSome) q := by
    unfold execute
    rw [op]
    exact (bind_ok read).trans ((bind_ok (topObject_cons (same.trans objects))).trans
      (bind_ok (object_found get)))
  refine ⟨_, ran.trans (bind_ok (topFrame_eq top)), same, ?_⟩
  unfold Process.topValue?
  rw [CallStack.top?_modifyTop top]
  rfl

end Exec

/-- In a process that requests lead to, attributes go by the hashes of their names. -/
theorem attributes_by_key {may : Compartment → Prop} {p : Process} (r : p.Reachable may) :
    p.AttributesByKey where
  last id log q a before e after name split same apart := by
    rw [(Process.attributes_course r.sound a).2, split]
    exact AttributeEdit.bound_last same apart
  apart id log q a name apart := by
    rw [(Process.attributes_course r.sound a).2]
    exact AttributeEdit.bound_apart apart
  got log q a t i x source name id rest op named objects := by
    have sound := x.sound (a.sound r.sound)
    obtain ⟨o, get⟩ := Heap.contains_iff.mp
      (sound.objects id (by rw [objects]; exact List.mem_cons_self))
    rw [← Process.sameAttributes_of_heap x.heap, Process.attributesOf_of_get? get]
    exact Exec.execute_get op named objects get
  told log q a t i x source name id rest op named objects := by
    have sound := x.sound (a.sound r.sound)
    obtain ⟨o, get⟩ := Heap.contains_iff.mp
      (sound.objects id (by rw [objects]; exact List.mem_cons_self))
    rw [← Process.sameAttributes_of_heap x.heap, Process.attributesOf_of_get? get]
    exact Exec.execute_has op named objects get

/-- A program that sets an attribute under a name, and then gets one under another of the same
hash. -/
def colliding : Compartment :=
  ((Compartment.new "colliding").withLiterals #["7mohtcOFVz", "c1E51sSEyx"] #[]).withClosures
    #[.new Compartment.mainName 0 none
      #[.ofOp (.object .new), .ofOp (.object .new), ⟨.attribute .set .literal, 0, 0⟩,
        ⟨.attribute .get .literal, 1, 0⟩]]

/-- The attribute that is set is the one that has been set last. -/
theorem attributes_by_key_set :
    (Process.ranFor colliding 2).edits ⟨.attribute .set .literal, 0, 0⟩ ⟨0, 0⟩ =
      [⟨"7mohtcOFVz", some ⟨1, 0⟩⟩] ∧
    (((Process.ranFor colliding 2).after (.execute ⟨.attribute .set .literal, 0, 0⟩)).attributesOf
      ⟨0, 0⟩).get? (Text.hash "7mohtcOFVz") = some ⟨1, 0⟩ := by
  have reached : (Process.ranFor colliding 2).Reachable fun _ => True :=
    Process.reachable_ranFor trivial 2
  have edits : (Process.ranFor colliding 2).edits ⟨.attribute .set .literal, 0, 0⟩ ⟨0, 0⟩ =
      [⟨"7mohtcOFVz", some ⟨1, 0⟩⟩] := by decide +kernel
  have live : ((Process.ranFor colliding 2).after
      (.execute ⟨.attribute .set .literal, 0, 0⟩)).heap.contains ⟨0, 0⟩ = true := by decide +kernel
  generalize Process.ranFor colliding 2 = p at *
  have log : Process.Log.edits [(p, ⟨.attribute .set .literal, 0, 0⟩)] ⟨0, 0⟩ =
      [] ++ ⟨"7mohtcOFVz", some ⟨1, 0⟩⟩ :: [] := (List.append_nil _).trans edits
  exact ⟨edits, (attributes_by_key reached).last _ _ _ (.of_asked live) _ _ _ _ log rfl
    fun _ mem => absurd mem List.not_mem_nil⟩

/-- Names of one hash are one attribute: what is set under one name is got under the other, which
was not bound before. -/
theorem colliding_names :
    (Process.ranFor colliding 2).Reachable (fun _ => True) ∧ "c1E51sSEyx" ≠ "7mohtcOFVz" ∧
    (Process.ranFor colliding 2).edits ⟨.attribute .set .literal, 0, 0⟩ ⟨0, 0⟩ =
      [⟨"7mohtcOFVz", some ⟨1, 0⟩⟩] ∧
    ((Process.ranFor colliding 2).attributesOf ⟨0, 0⟩).get? (Text.hash "c1E51sSEyx") = none ∧
    ∃ q r : Process,
      Exec.execute ⟨.attribute .set .literal, 0, 0⟩ (Process.ranFor colliding 2) = .ok () q ∧
      q.objects = [⟨0, 0⟩] ∧ q.stringLiteral 1 = .ok "c1E51sSEyx" ∧
      Exec.execute ⟨.attribute .get .literal, 1, 0⟩ q = .ok () r ∧ r.objects = [⟨1, 0⟩] := by
  have reached : (Process.ranFor colliding 2).Reachable fun _ => True :=
    Process.reachable_ranFor trivial 2
  have edits : (Process.ranFor colliding 2).edits ⟨.attribute .set .literal, 0, 0⟩ ⟨0, 0⟩ =
      [⟨"7mohtcOFVz", some ⟨1, 0⟩⟩] := by decide +kernel
  have unbound : ((Process.ranFor colliding 2).attributesOf ⟨0, 0⟩).get?
      (Text.hash "c1E51sSEyx") = none := by decide +kernel
  have set := Exec.eq_ok_left (r := Exec.execute ⟨.attribute .set .literal, 0, 0⟩
    (Process.ranFor colliding 2)) (by decide +kernel)
  have got := Exec.eq_ok_left (r := Exec.execute ⟨.attribute .get .literal, 1, 0⟩
    ((Process.ranFor colliding 2).after (.execute ⟨.attribute .set .literal, 0, 0⟩)))
    (by decide +kernel)
  exact ⟨reached, by decide, edits, unbound, _, _, set, by decide +kernel, by decide +kernel, got,
    by decide +kernel⟩

end ObjectVM
