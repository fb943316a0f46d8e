import Mathlib.Data.List.Forall2
import ObjectVM.Proofs.Spending

/-!
# Attributes set in bulk

One instruction binds an attribute of the top object for each entry of a map. Where it succeeds, it
leaves the process as the instruction that binds one attribute does when it is executed for each
entry, in ascending key order, with the entry's object pushed before it (`Exec.setEach`): of the
entries for one attribute, the last stands. Where it fails it changes nothing, although some of the
entries could have been bound (`bulk_sets_each`).

* `Exec.bindings_cases`: all names are looked up, or a key without one stops the instruction.
* `Exec.setEach_binds`: what binding one after another leaves.
-/
namespace ObjectVM

/-- The instruction that binds the attribute named by a literal. -/
def Instruction.setAttribute (key : UInt64) : Instruction := ⟨.attribute .set .literal, key, 0⟩

/-- For each entry, pushes its object and binds to it the attribute that its key names. -/
def Exec.setEach (entries : List (UInt64 × ObjectId)) : Exec Unit :=
  entries.forM fun e => do
    pushObject e.2
    execute (.setAttribute e.1)

namespace Process

/-- `b` is the binding that an entry `e` stands for: the key of the attribute is the hash of the
literal that the entry's key names. -/
def Binds (p : Process) (e b : UInt64 × ObjectId) : Prop :=
  ∃ name, p.stringLiteral e.1 = .ok name ∧ b = (Text.hash name, e.2)

/-- Whether the entry's key names a literal. -/
def Names (p : Process) (e : UInt64 × ObjectId) : Prop := ∃ name, p.stringLiteral e.1 = .ok name

/-- `q` is `p` after every entry of `m` has been bound to an attribute of the object `id`, which was
`o`: as if by one instruction each, in key order, of which the last for an attribute stands. Nothing
but the heap is changed, and no other object in it. -/
structure BindsEach (p : Process) (id : ObjectId) (o : Object) (m : KeyMap ObjectId)
    (q : Process) : Prop where
  each : Exec.setEach m.entries p = .ok () q
  heap : q = { p with heap := q.heap }
  others : ∀ j, j ≠ id → q.heap.get? j = p.heap.get? j
  object : ∃ attributes, q.heap.get? id = some { o with attributes } ∧
    (∀ e ∈ m.entries, ∀ name, p.stringLiteral e.1 = .ok name →
      (∀ e' ∈ m.entries, ∀ name', p.stringLiteral e'.1 = .ok name' →
        Text.hash name' = Text.hash name → e'.1 ≤ e.1) →
      attributes.get? (Text.hash name) = some e.2) ∧
    ∀ key, (∀ e ∈ m.entries, ∀ name, p.stringLiteral e.1 = .ok name → Text.hash name ≠ key) →
      attributes.get? key = o.attributes.get? key

end Process

/-! ## Objects put again -/

namespace Heap

variable {h : Heap} {id : ObjectId} {o : Object}

theorem put_self (get : h.get? id = some o) : h.put id o = h := by
  have slots : (h.put id o).slots = h.slots := by
    rw [put_slots get]
    obtain ⟨lt, there⟩ := Array.getElem?_eq_some_iff.mp (get?_eq_some_iff.mp get)
    rw [Array.setIfInBounds, dif_pos lt, ← there, Array.set_getElem_self]
  show ({ h with slots := (h.put id o).slots } : Heap) = h
  rw [slots]

theorem put_put (get : h.get? id = some o) (a b : Object) :
    (h.put id a).put id b = h.put id b := by
  have again : (h.put id a).get? id = some a := by rw [get?_put get, if_pos rfl]
  have slots : ((h.put id a).put id b).slots = (h.put id b).slots := by
    rw [put_slots again, put_slots get, put_slots get, Array.setIfInBounds_setIfInBounds]
  show ({ h with slots := ((h.put id a).put id b).slots } : Heap) =
    { h with slots := (h.put id b).slots }
  rw [slots]

end Heap

/-! ## One attribute after another -/

namespace Object

/-- Bindings made one after another change nothing but the attributes. -/
theorem putAttributes_eq (bindings : List (UInt64 × ObjectId)) : ∀ o : Object,
    bindings.foldl (fun o b => o.putAttribute b.1 b.2) o =
      { o with attributes := o.attributes.insertAll bindings } := by
  induction bindings with
  | nil => exact fun o => rfl
  | cons b bindings ih => exact fun o => ih _

end Object

namespace Exec

variable {p : Process} {id value : ObjectId} {rest : List ObjectId} {o : Object} {key : UInt64}
  {name : String} {entries bindings : List (UInt64 × ObjectId)}

theorem execute_setAttribute (literal : p.stringLiteral key = .ok name)
    (objects : p.objects = value :: id :: rest) (get : p.heap.get? id = some o)
    (opened : o.hasFlag .immutable = false) :
    execute (.setAttribute key) p = .ok () { p with
      objects := id :: rest
      heap := p.heap.put id (o.putAttribute (Text.hash name) value) } := by
  show (readName .literal (.setAttribute key) >>= runAttribute .set) p = _
  refine (bind_ok (look_eq literal)).trans ?_
  refine (bind_ok (popObject_eq objects)).trans ?_
  refine (bind_ok (topObject_cons rfl)).trans ?_
  refine (bind_ok (a := o) (q := { p with objects := id :: rest }) ?_).trans rfl
  rcases mutableObject_cases (p := { p with objects := id :: rest }) get with
    ⟨closed, -⟩ | ⟨-, found⟩
  · rw [opened] at closed
    cases closed
  · exact found

/-- Only the heap changes on the way, so the induction is over all heaps of the process. -/
theorem setEach_binds (all : entries.Forall₂ p.Binds bindings) (objects : p.objects = id :: rest) :
    ∀ {heap : Heap} {o : Object}, heap.get? id = some o → o.hasFlag .immutable = false →
      setEach entries { p with heap } = .ok () { p with
        heap := heap.put id { o with attributes := o.attributes.insertAll bindings } } := by
  induction all with
  | nil =>
    intro heap o get _
    have same : heap.put id { o with attributes := o.attributes.insertAll [] } = heap :=
      Heap.put_self get
    exact congrArg (fun heap => EStateM.Result.ok () { p with heap }) same.symm
  | @cons e b entries bindings binds all ih =>
    intro heap o get opened
    obtain ⟨name, literal, rfl⟩ := binds
    have one : execute (.setAttribute e.1) { p with heap, objects := e.2 :: p.objects } =
        .ok () { p with heap := heap.put id (o.putAttribute (Text.hash name) e.2) } := by
      rw [execute_setAttribute (p := { p with heap, objects := e.2 :: p.objects }) literal
        (congrArg (e.2 :: ·) objects) get opened, ← objects]
    have again : (heap.put id (o.putAttribute (Text.hash name) e.2)).get? id =
        some (o.putAttribute (Text.hash name) e.2) := by rw [Heap.get?_put get, if_pos rfl]
    have rest := ih again opened
    rw [Heap.put_put get] at rest
    exact (bind_ok one).trans rest

/-! ## Names looked up -/

/-- The names of all entries are looked up before anything is bound. -/
theorem bindings_cases (p : Process) (entries : List (UInt64 × ObjectId)) :
    let bind : UInt64 × ObjectId → Exec (UInt64 × ObjectId) := fun (key, value) => do
      pure (Text.hash (← look (·.stringLiteral key)), value)
    (∃ bindings, entries.Forall₂ p.Binds bindings ∧ entries.mapM bind p = .ok bindings p) ∨
      (∃ e ∈ entries, ¬ p.Names e) ∧ ∃ fault, entries.mapM bind p = .error fault p := by
  intro bind
  induction entries with
  | nil => exact .inl ⟨[], .nil, rfl⟩
  | cons e entries ih =>
    rw [List.mapM_cons]
    cases literal : p.stringLiteral e.1 with
    | error fault =>
      refine .inr ⟨⟨e, List.mem_cons_self, fun ⟨name, named⟩ => ?_⟩, fault,
        bind_error (bind_error (look_error literal))⟩
      rw [literal] at named
      cases named
    | ok name =>
      have one : bind e p = .ok (Text.hash name, e.2) p := bind_ok (look_eq literal)
      rcases ih with ⟨bindings, all, ran⟩ | ⟨⟨e', mem, nameless⟩, fault, ran⟩
      · exact .inl ⟨(Text.hash name, e.2) :: bindings, .cons ⟨name, literal, rfl⟩ all,
          (bind_ok one).trans (bind_ok ran)⟩
      · exact .inr ⟨⟨e', List.mem_cons_of_mem _ mem, nameless⟩, fault,
          (bind_ok one).trans (bind_error ran)⟩

end Exec

/-! ## The entry that stands -/

section Standing

variable {p : Process} {entries bindings : List (UInt64 × ObjectId)} {attributes : KeyMap ObjectId}
  {e b : UInt64 × ObjectId} {key : UInt64} {name : String}

theorem Process.mem_bindings (all : entries.Forall₂ p.Binds bindings) (mem : b ∈ bindings) :
    ∃ e ∈ entries, p.Binds e b := by
  induction all with
  | nil => cases mem
  | @cons e b' entries bindings binds all ih =>
    rcases List.mem_cons.mp mem with rfl | mem
    · exact ⟨e, List.mem_cons_self, binds⟩
    · obtain ⟨e', mem', binds'⟩ := ih mem
      exact ⟨e', List.mem_cons_of_mem _ mem', binds'⟩

theorem Process.names_of_binds (all : entries.Forall₂ p.Binds bindings) (mem : e ∈ entries) :
    p.Names e := by
  induction all with
  | nil => cases mem
  | cons binds all ih =>
    rcases List.mem_cons.mp mem with rfl | mem
    · obtain ⟨name, literal, -⟩ := binds
      exact ⟨name, literal⟩
    · exact ih mem

/-- An attribute that no entry names stays. -/
theorem Process.get?_bindings_other (all : entries.Forall₂ p.Binds bindings)
    (other : ∀ e ∈ entries, ∀ name, p.stringLiteral e.1 = .ok name → Text.hash name ≠ key) :
    (attributes.insertAll bindings).get? key = attributes.get? key := by
  refine KeyMap.get?_insertAll_of_notMem bindings fun mem => ?_
  obtain ⟨b, bound, rfl⟩ := List.mem_map.mp mem
  obtain ⟨e, listed, name, literal, rfl⟩ := mem_bindings all bound
  exact other e listed name literal rfl

/-- An entry stands if no entry behind it is for the same attribute. -/
theorem Process.get?_bindings (ascending : entries.Pairwise fun a b => a.1 < b.1)
    (all : entries.Forall₂ p.Binds bindings) (mem : e ∈ entries)
    (literal : p.stringLiteral e.1 = .ok name)
    (greatest : ∀ e' ∈ entries, ∀ name', p.stringLiteral e'.1 = .ok name' →
      Text.hash name' = Text.hash name → e'.1 ≤ e.1) :
    (attributes.insertAll bindings).get? (Text.hash name) = some e.2 := by
  induction all generalizing attributes with
  | nil => cases mem
  | @cons a b entries bindings binds all ih =>
    obtain ⟨before, ascending⟩ := List.pairwise_cons.mp ascending
    obtain ⟨-, last⟩ := List.forall_mem_cons.mp greatest
    rcases List.mem_cons.mp mem with rfl | mem
    · obtain ⟨name', literal', rfl⟩ := binds
      cases literal'.symm.trans literal
      refine (Process.get?_bindings_other all fun e' mem' name' literal' same => ?_).trans ?_
      · exact absurd (last e' mem' name' literal' same) (UInt64.not_le.mpr (before e' mem'))
      · rw [KeyMap.get?_insert, if_pos rfl]
    · exact ih ascending mem last

end Standing

/-! ## All at once -/

namespace Exec

variable {p : Process} {i : Instruction} {f : Frame} {m : KeyMap ObjectId} {id : ObjectId}
  {rest : List ObjectId} {o : Object}

/-- The instruction looks all names up and checks that the object is open, and binds only then. -/
theorem setAttributes_cases (top : p.calls.top? = some f) (map : f.topValue = .ok (.map m))
    (objects : p.objects = id :: rest) (get : p.heap.get? id = some o) :
    ((∃ e ∈ m.entries, ¬ p.Names e) ∨ o.hasFlag .immutable = true) ∧
        (∃ fault, setAttributes p = .error fault p) ∨
      o.hasFlag .immutable = false ∧ ∃ bindings, m.entries.Forall₂ p.Binds bindings ∧
        setAttributes p = .ok () { p with
          heap := p.heap.put id { o with attributes := o.attributes.insertAll bindings } } := by
  have value : topValue p = .ok (.map m) p := by
    refine (bind_ok (topFrame_eq top)).trans ?_
    rw [map]
    rfl
  have looked : ∀ k : KeyMap ObjectId → Exec Unit,
      (topValue >>= fun v => liftValue (v.asMap "setattrs") >>= k) p = k m p := fun k =>
    (bind_ok value).trans (bind_ok rfl)
  rcases bindings_cases p m.entries with ⟨bindings, all, ran⟩ | ⟨nameless, fault, ran⟩
  · rcases mutableObject_cases get with ⟨closed, refused⟩ | ⟨opened, found⟩
    · exact .inl ⟨.inr closed, _, (looked _).trans ((bind_ok ran).trans
        ((bind_ok (topObject_cons objects)).trans (bind_error refused)))⟩
    · refine .inr ⟨opened, bindings, all, (looked _).trans ((bind_ok ran).trans
        ((bind_ok (topObject_cons objects)).trans ((bind_ok found).trans ?_)))⟩
      rw [Object.putAttributes_eq]
      rfl
  · exact .inl ⟨.inl nameless, fault, (looked _).trans (bind_error ran)⟩

end Exec

theorem Process.bindsEach {p : Process} {id : ObjectId} {rest : List ObjectId} {o : Object}
    {m : KeyMap ObjectId} {bindings : List (UInt64 × ObjectId)} (objects : p.objects = id :: rest)
    (get : p.heap.get? id = some o) (opened : o.hasFlag .immutable = false)
    (all : m.entries.Forall₂ p.Binds bindings) :
    p.BindsEach id o m { p with
      heap := p.heap.put id { o with attributes := o.attributes.insertAll bindings } } := by
  refine ⟨Exec.setEach_binds all objects get opened, rfl, fun j other => ?_,
    o.attributes.insertAll bindings, ?_, fun e mem name literal greatest => ?_, fun key other => ?_⟩
  · exact (Heap.get?_put get _ j).trans (if_neg other)
  · exact (Heap.get?_put get _ id).trans (if_pos rfl)
  · exact get?_bindings m.ascending all mem literal greatest
  · exact get?_bindings_other all other

/-- Wherever a map and an object are on top: if every key of the map names a literal and the object
is open to change, the attributes are bound as if one after another; else nothing is changed. -/
theorem bulk_sets_each {may : Compartment → Prop} {p q : Process} {i : Instruction} {f : Frame}
    {m : KeyMap ObjectId} {id : ObjectId} {rest : List ObjectId}
    (reachable : p.Reachable may) (executing : p.Executing q i) (op : i.op = .setAttributes)
    (top : q.calls.top? = some f) (map : f.topValue = .ok (.map m))
    (objects : q.objects = id :: rest) :
    ∃ o, q.heap.get? id = some o ∧
      ((∀ e ∈ m.entries, q.Names e) ∧ o.hasFlag .immutable = false →
        ∃ r, Exec.execute i q = .ok () r ∧ q.BindsEach id o m r) ∧
      ((∃ e ∈ m.entries, ¬ q.Names e) ∨ o.hasFlag .immutable = true →
        ∃ fault, Exec.execute i q = .error fault q) := by
  have sound := executing.sound reachable.sound
  obtain ⟨o, get⟩ := Heap.contains_iff.mp
    (sound.objects id (by rw [objects]; exact List.mem_cons_self))
  have ran : Exec.execute i q = Exec.setAttributes q := by
    unfold Exec.execute
    rw [op]
  refine ⟨o, get, ?_⟩
  rw [ran]
  rcases Exec.setAttributes_cases top map objects get with ⟨refused, failed⟩ |
    ⟨opened, bindings, all, made⟩
  · refine ⟨fun ⟨named, opened⟩ => ?_, fun _ => failed⟩
    rcases refused with ⟨e, mem, nameless⟩ | closed
    · exact absurd (named e mem) nameless
    · rw [opened] at closed
      cases closed
  · refine ⟨fun _ => ⟨_, made, Process.bindsEach objects get opened all⟩, fun refused => ?_⟩
    rcases refused with ⟨e, mem, nameless⟩ | closed
    · exact absurd (Process.names_of_binds all mem) nameless
    · rw [opened] at closed
      cases closed

/-- A program that makes a map whose two keys name one attribute. -/
def twoKeys : Compartment :=
  ((Compartment.new "keys").withLiterals #["x", "x"] #[]).withClosures
    #[.new Compartment.mainName 0 none
      #[.ofOp (.object .new), .ofOp (.constant .map),
        ⟨.constant (.int .uint64), 0, 0⟩, .ofOp (.object .new), .ofOp (.value (.map .put)),
        ⟨.constant (.int .uint64), 1, 0⟩, .ofOp (.object .new), .ofOp (.value (.map .put))]]

/-- The map that it makes. -/
def twoEntries : KeyMap ObjectId := .ofList [(0, ⟨1, 0⟩), (1, ⟨2, 0⟩)]

/-- The object gets one attribute, with the object under the greater key. -/
theorem bulk_sets_each_twice :
    ∃ f o r, (Process.ranFor twoKeys 8).calls.top? = some f ∧ f.topValue = .ok (.map twoEntries) ∧
      Exec.execute (.ofOp .setAttributes) (Process.ranFor twoKeys 8) = .ok () r ∧
      (Process.ranFor twoKeys 8).BindsEach ⟨0, 0⟩ o twoEntries r ∧
      (r.heap.get? ⟨0, 0⟩).map (·.attributes) = some (.ofList [(Text.hash "x", ⟨2, 0⟩)]) := by
  have reached : (Process.ranFor twoKeys 8).Reachable fun _ => True :=
    Process.reachable_ranFor trivial 8
  have ready : (Process.ranFor twoKeys 8).calls.top?.map (·.values) = some [.map twoEntries] := by
    decide +kernel
  have objects : (Process.ranFor twoKeys 8).objects = [⟨0, 0⟩] := by decide +kernel
  have opened : ((Process.ranFor twoKeys 8).heap.get? ⟨0, 0⟩).map (·.hasFlag .immutable) =
      some false := by decide +kernel
  have named : ∀ e ∈ twoEntries.entries, (Process.ranFor twoKeys 8).Names e :=
    List.forall_mem_cons.mpr ⟨⟨"x", by decide +kernel⟩,
      List.forall_mem_singleton.mpr ⟨"x", by decide +kernel⟩⟩
  have bound : (((Process.ranFor twoKeys 8).after (.execute (.ofOp .setAttributes))).heap.get?
      ⟨0, 0⟩).map (·.attributes) = some (.ofList [(Text.hash "x", ⟨2, 0⟩)]) := by decide +kernel
  generalize Process.ranFor twoKeys 8 = p at *
  obtain ⟨f, top, values⟩ := Option.map_eq_some_iff.mp ready
  have map : f.topValue = .ok (.map twoEntries) := by
    unfold Frame.topValue
    rw [values]
  obtain ⟨o, get, binds, -⟩ :=
    bulk_sets_each reached (.asked (.ofOp .setAttributes)) rfl top map objects
  rw [get] at opened
  obtain ⟨r, ran, each⟩ := binds ⟨named, Option.some.inj opened⟩
  have left : p.after (.execute (.ofOp .setAttributes)) = r := congrArg Exec.left ran
  exact ⟨f, o, r, top, map, ran, each, left ▸ bound⟩

end ObjectVM
