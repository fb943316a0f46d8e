import ObjectVM.Proofs.Failures
import ObjectVM.Proofs.Sealing

/-!
# Immutable objects do not change

Whatever happens to a process, one thing after another (`Process.Course`), an immutable object holds
what it held for as long as it lives and no instruction clears its flag (`immutable_objects_stay`).
An instruction that would change it fails, and the stores are as they were.
-/
namespace ObjectVM

namespace Process

/-- Whether an instruction clears the flag that closes an object to change. -/
def Unlocks (p : Process) (i : Instruction) (id : ObjectId) : Prop :=
  i.op = .object .setImmutable ∧ i.first = 0 ∧ p.objects.head? = some id

/-- The object that an instruction would change, its flags apart. -/
def target? (p : Process) (i : Instruction) : Option ObjectId :=
  match i.op with
  | .object .setClosure | .attribute .delete _ | .setAttributes | .handle .set | .handle .clear =>
    p.objects.head?
  | .attribute .set _ | .handle .copy | .handle .copyText => p.objects[1]?
  | .handle .setOf => (p.visible i.first).toOption
  | _ => none

/-- What it means that the immutable objects of a process do not change. -/
structure ClosedToChange (p : Process) : Prop where
  /-- An immutable object stays so and holds what it holds, whatever happens while it lives and its
  flag is not cleared. -/
  stays : ∀ id c, p.Seals id c → ∀ log q, p.Course (·.heap.contains id = true) log q →
    (∀ r i, (r, i) ∈ log → ¬ r.Unlocks i id) → q.Seals id c
  /-- An instruction that would change an immutable object fails, and the stores are as they
  were. -/
  refuses : ∀ q i, p.Executing q i → ∀ id c, q.target? i = some id → q.Seals id c →
    ∃ fault r, Exec.execute i q = .error fault r ∧ r.heap = q.heap ∧ r.pool = q.pool

variable {p q r : Process} {i : Instruction} {id : ObjectId} {c : Contents}

/-! ## Seals -/

/-- A flag of another object may be set or cleared. -/
theorem Seals.setFlag (seals : p.Seals id c) (other : p.objects.head? ≠ some id)
    (flag : ObjectFlags) (on : Bool) : (Exec.left (Exec.setFlag flag on p)).Seals id c := by
  unfold Exec.setFlag
  cases ho : p.objects with
  | nil =>
    rw [Exec.left_bind_error (Exec.topObject_nil ho)]
    exact seals
  | cons j rest =>
    rw [Exec.left_bind_ok (Exec.topObject_cons ho)]
    cases get : p.heap.get? j with
    | none =>
      rw [Exec.left_bind_error (Exec.object_missing get)]
      exact seals
    | some o =>
      rw [Exec.left_bind_ok (Exec.object_found get)]
      obtain ⟨o', get', closed, rfl⟩ := seals
      have apart : id ≠ j := by
        rintro rfl
        exact other (by rw [ho, List.head?_cons])
      exact ⟨o', (Heap.get?_put get _ _).trans ((if_neg apart).trans get'), closed, rfl⟩

/-- An instruction leaves what is sealed, unless it clears the flag or reclaims the object. -/
theorem Seals.execute (seals : p.Seals id c) (s : p.Sound) (locked : ¬ p.Unlocks i id)
    (live : (Exec.left (Exec.execute i p)).heap.contains id = true) :
    (Exec.left (Exec.execute i p)).Seals id c := by
  by_cases sweeps : i.op = .control .return ∨ i.op = .runtime .collect
  · exact seals.swept s.stores (Exec.swept_execute sweeps p) live
  rw [not_or] at sweeps
  by_cases clears : i.op = .object .setImmutable ∧ i.first = 0
  · have ran : Exec.execute i = Exec.setFlag .immutable (i.first != 0) := by
      unfold Exec.execute
      rw [clears.1]
      rfl
    rw [ran]
    exact seals.setFlag (fun top => locked ⟨clears.1, clears.2, top⟩) _ _
  · have obeys := Exec.obeys_execute sweeps.1 sweeps.2 fun op zero => clears ⟨op, zero⟩
    exact obeys p s.stores id c seals

/-- Whatever happens, an immutable object that still lives has not changed, unless its flag has been
cleared. -/
theorem Seals.happens {label : Option (Process × Instruction)} (seals : p.Seals id c) (s : p.Sound)
    (h : p.Happens label q) (locked : ∀ r i, label = some (r, i) → ¬ r.Unlocks i id)
    (live : q.heap.contains id = true) : q.Seals id c := by
  rcases h.stores s with ⟨r, i, labelled, sound, heap, pool, rfl⟩ | ⟨-, swept | gone⟩
  · exact (guards_of_same heap pool id c seals).execute sound (locked r i labelled) live
  · exact seals.swept s.stores swept live
  · cases (gone id).symm.trans live

/-- The same along a course of what happens, by induction on what has happened last. -/
theorem Seals.course {log : Log} (seals : p.Seals id c) (s : p.Sound)
    (a : p.Course (·.heap.contains id = true) log q)
    (locked : ∀ r i, (r, i) ∈ log → ¬ r.Unlocks i id) : q.Sound ∧ q.Seals id c := by
  induction a with
  | refl => exact ⟨s, seals⟩
  | next _ h live ih =>
    obtain ⟨s, seals⟩ := ih fun r i mem => locked r i (List.mem_append_left _ mem)
    refine ⟨h.sound s, seals.happens s h (fun r i label => ?_) live⟩
    refine locked r i (List.mem_append_right _ ?_)
    rw [label]
    exact List.mem_singleton_self _

end Process

/-! ## Refusals -/

namespace CallStack

variable {s t : CallStack}

/-- Only values of a frame may be gone. -/
theorem Spent.get? (spent : s.Spent t) (n : Nat) :
    ∃ values : Frame → List Value,
      t.get? n = (s.get? n).map fun f => { f with values := values f } := by
  cases spent with
  | same => exact ⟨Frame.values, by simp⟩
  | @operands f values top rest =>
    have there : s.get? (s.depth - 1) = some f := frame_of_top top
    have modified : (s.modifyTop fun _ => { f with values }).get? n =
        if s.depth - 1 = n then (s.get? n).map fun _ => { f with values } else s.get? n :=
      Array.getElem?_modify
    rw [modified]
    by_cases last : s.depth - 1 = n
    · subst last
      exact ⟨fun _ => values, by simp [there]⟩
    · exact ⟨Frame.values, by simp [last]⟩

/-- A variable is bound to the same when operands are gone. -/
theorem Spent.visibleAlong (spent : s.Spent t) (key : UInt64) : ∀ links index : Nat,
    t.visibleAlong key index links = s.visibleAlong key index links := by
  intro links
  induction links with
  | zero => exact fun _ => rfl
  | succ links ih =>
    intro index
    obtain ⟨values, same⟩ := spent.get? index
    unfold CallStack.visibleAlong
    rw [same]
    cases s.get? index with
    | none => rfl
    | some f =>
      dsimp only [Option.map_some]
      split
      · rfl
      · split
        · exact ih _
        · rfl

theorem Spent.depth (spent : s.Spent t) : t.depth = s.depth := by
  cases spent with
  | same => rfl
  | operands => exact Array.size_modify

theorem Spent.getVisible (spent : s.Spent t) (index : Nat) (key : UInt64) :
    t.getVisible index key = s.getVisible index key := by
  obtain ⟨values, same⟩ := spent.get? index
  unfold CallStack.getVisible visibleFrom
  rw [spent.depth, spent.visibleAlong, same]
  cases s.get? index <;> rfl

end CallStack

theorem Process.Spent.visible {p q : Process} (spent : p.Spent q) {key : UInt64} {id : ObjectId}
    (bound : p.visible key = .ok id) : q.visible key = .ok id := by
  unfold Process.visible at bound ⊢
  rw [spent.calls.depth, spent.calls.getVisible]
  split at bound
  · cases bound
  · next running =>
    rw [if_neg running]
    cases found : p.calls.getVisible (p.calls.depth - 1) key with
    | ok id' =>
      rw [found] at bound
      exact bound
    | error fault =>
      rw [found] at bound
      cases bound

namespace Exec

variable {α β : Type} {p : Process} {i : Instruction} {id : ObjectId} {c : Contents}

/-- It takes values at most, and no objects. -/
structure TakesValues (m : Exec α) : Prop where
  spends : Spends m
  objects : ∀ p, (left (m p)).objects = p.objects

theorem TakesValues.bind {m : Exec α} {k : α → Exec β} (hm : TakesValues m)
    (hk : ∀ a, TakesValues (k a)) : TakesValues (m >>= k) := by
  refine ⟨hm.spends.bind fun a => (hk a).spends, fun p => ?_⟩
  have first := hm.objects p
  rw [left_bind]
  cases ran : m p with
  | ok a q =>
    rw [ran] at first
    exact ((hk a).objects q).trans first
  | error fault q =>
    rw [ran] at first
    exact first

theorem takesValues_pure (a : α) : TakesValues (pure a : Exec α) := ⟨.pure a, fun _ => rfl⟩

theorem takesValues_look (f : Process → Except Fault α) : TakesValues (look f) :=
  ⟨spends_look f, fun _ => congrArg Process.objects (left_look f)⟩

theorem takesValues_lift (r : Except Fault α) : TakesValues (lift r) :=
  ⟨spends_lift r, fun _ => by cases r <;> rfl⟩

theorem takesValues_liftValue (r : Except ValueError α) : TakesValues (liftValue r) :=
  ⟨spends_liftValue r, fun _ => by cases r <;> rfl⟩

theorem takesValues_topFrame : TakesValues topFrame := by
  refine ⟨spends_topFrame, fun p => ?_⟩
  cases top : p.calls.top? with
  | some f => rw [topFrame_eq top]; rfl
  | none => rw [topFrame_none top]; rfl

theorem takesValues_popValue : TakesValues popValue := by
  refine ⟨spends_popValue, fun p => ?_⟩
  cases top : p.calls.top? with
  | none =>
    rw [show popValue p = _ from bind_error (topFrame_none top)]
    rfl
  | some f =>
    rw [show popValue p = _ from bind_ok (topFrame_eq top)]
    cases f.popValue <;> rfl

theorem takesValues_topValue : TakesValues topValue :=
  takesValues_topFrame.bind fun _ => takesValues_lift _

theorem takesValues_readName (source : NameSource) (i : Instruction) :
    TakesValues (readName source i) := by
  cases source with
  | literal => exact takesValues_look _
  | computed => exact takesValues_popValue.bind fun _ => takesValues_liftValue _

theorem takesValues_mapM {f : α → Exec β} (each : ∀ a, TakesValues (f a)) (l : List α) :
    TakesValues (l.mapM f) := by
  induction l with
  | nil =>
    rw [List.mapM_nil]
    exact takesValues_pure _
  | cons a l ih =>
    rw [List.mapM_cons]
    exact (each a).bind fun _ => ih.bind fun _ => takesValues_pure _

/-- A result that is a failure. -/
def Fails (r : EStateM.Result Fault Process α) : Prop := ∃ fault q, r = .error fault q

theorem fails_bind {m : Exec α} {k : α → Exec β} (hk : ∀ a q, m p = .ok a q → Fails (k a q)) :
    Fails ((m >>= k) p) := by
  cases ran : m p with
  | ok a q =>
    rw [bind_ok ran]
    exact hk a q ran
  | error fault q => exact ⟨fault, q, bind_error ran⟩

/-- What fails on a sealed object fails behind values that are taken as well. -/
theorem TakesValues.fails {m : Exec α} {k : α → Exec β} (hm : TakesValues m)
    (seals : p.Seals id c)
    (hk : ∀ a q, p.Spent q → q.objects = p.objects → q.Seals id c → Fails (k a q)) :
    Fails ((m >>= k) p) := by
  refine fails_bind fun a q ran => ?_
  have spent := hm.spends p
  have objects := hm.objects p
  rw [ran] at spent objects
  exact hk a q spent objects (Process.guards_of_same spent.heap spent.pool id c seals)

theorem fails_topObject {k : ObjectId → Exec β} (top : p.objects.head? = some id)
    (hk : Fails (k id p)) : Fails ((topObject >>= k) p) := by
  obtain ⟨rest, objects⟩ := List.head?_eq_some_iff.mp top
  rwa [bind_ok (topObject_cons objects)]

/-- Behind an object that is taken, the second object is on top. -/
theorem fails_popObject {k : ObjectId → Exec β} (second : p.objects[1]? = some id)
    (seals : p.Seals id c)
    (hk : ∀ a q, q.objects.head? = some id → q.Seals id c → Fails (k a q)) :
    Fails ((popObject >>= k) p) := by
  rcases objects : p.objects with _ | ⟨a, rest⟩
  · rw [objects] at second
    cases second
  · rw [objects] at second
    rw [bind_ok (popObject_eq objects)]
    refine hk a _ ?_ (Process.guards_of_same (q := { p with objects := rest }) rfl rfl id c seals)
    exact List.head?_eq_getElem?.trans second

theorem fails_mutableObject {k : Object → Exec β} (seals : p.Seals id c) :
    Fails ((mutableObject id >>= k) p) := by
  obtain ⟨o, get, closed, -⟩ := seals
  rcases mutableObject_cases get with ⟨-, refused⟩ | ⟨opened, -⟩
  · exact ⟨_, p, bind_error refused⟩
  · rw [closed] at opened
    cases opened

theorem fails_assign (seals : p.Seals id c) (v : Value) : Fails (assign id v p) :=
  fails_mutableObject seals

theorem fails_copyValue (second : p.objects[1]? = some id) (seals : p.Seals id c)
    (f : Value → Value) : Fails (copyValue f p) :=
  fails_popObject second seals fun source _ top seals => fails_topObject top <|
    (takesValues_look (·.valueOf source)).fails seals fun v _ _ _ seals => fails_assign seals (f v)

/-- An instruction that would change an immutable object fails. -/
theorem fails_execute (target : p.target? i = some id) (seals : p.Seals id c) :
    Fails (execute i p) := by
  unfold Process.target? at target
  unfold execute
  cases hop : i.op with
  | object op =>
    rw [hop] at target
    cases op with
    | setClosure =>
      exact takesValues_topFrame.fails seals fun f q _ objects seals =>
        fails_topObject (objects ▸ target) (fails_mutableObject seals)
    | _ => cases target
  | «attribute» op source =>
    rw [hop] at target
    refine (takesValues_readName source i).fails seals fun name q _ objects seals => ?_
    rw [← objects] at target
    cases op with
    | set =>
      exact fails_popObject target seals fun value r top seals =>
        fails_topObject top (fails_mutableObject seals)
    | delete => exact fails_topObject target (fails_mutableObject seals)
    | get | has => cases target
  | setAttributes =>
    rw [hop] at target
    refine takesValues_topValue.fails seals fun v q _ objects seals => ?_
    refine (takesValues_liftValue _).fails seals fun entries q' _ objects' seals => ?_
    refine (takesValues_mapM (fun _ => (takesValues_look _).bind fun _ =>
      takesValues_pure _) _).fails seals fun bindings r _ objects'' seals => ?_
    rw [← objects, ← objects', ← objects''] at target
    exact fails_topObject target (fails_mutableObject seals)
  | handle op =>
    rw [hop] at target
    cases op with
    | set =>
      exact takesValues_popValue.fails seals fun v q _ objects seals =>
        fails_topObject (objects ▸ target) (fails_assign seals v)
    | setOf =>
      refine takesValues_popValue.fails seals fun v q spent _ seals => ?_
      have bound : p.visible i.first = .ok id := by
        cases found : p.visible i.first with
        | ok j =>
          rw [found] at target
          exact congrArg Except.ok (Option.some.inj target)
        | error fault =>
          rw [found] at target
          cases target
      rw [bind_ok (look_eq (spent.visible bound))]
      exact fails_assign seals v
    | clear => exact fails_topObject target (fails_mutableObject seals)
    | copy | copyText => exact fails_copyValue target seals _
    | get | getOf | truthy => cases target
  | «variable» | control | argument | runtime | stack | constant | value =>
    rw [hop] at target
    cases target

/-- An instruction that would change an object raises no exception and passes no arguments. -/
theorem target?_writes (target : p.target? i = some id) :
    i.op ≠ .control .raise ∧ ∀ a, i.op ≠ .argument a := by
  refine ⟨fun op => ?_, fun a op => ?_⟩ <;>
  · unfold Process.target? at target
    rw [op] at target
    cases target

end Exec

/-- The immutable objects of a process that requests lead to do not change. -/
theorem immutable_objects_stay {may : Compartment → Prop} {p : Process} (r : p.Reachable may) :
    p.ClosedToChange := by
  refine ⟨fun id c seals log q a locked => (seals.course r.sound a locked).2,
    fun q i x id c target seals => ?_⟩
  obtain ⟨fault, left, failed⟩ := Exec.fails_execute target seals
  obtain ⟨calm, silent⟩ := Exec.target?_writes target
  have leads : q.FailsTo i left := Exec.failsTo_execute (x.sound r.sound) calm failed
  cases leads with
  | spent spent => exact ⟨fault, left, failed, spent.heap, spent.pool⟩
  | stranded op => exact absurd op (silent _)
  | drained op | blank op => exact (op.elim (silent _) (silent _)).elim

/-- A program that gives an object a value, makes it immutable, and then tries to take the value
away. -/
def closing : Compartment :=
  (Compartment.new "closing").withClosures #[.new Compartment.mainName 0 none
    #[.ofOp (.object .new), .ofOp (.constant .bool), .ofOp (.handle .set),
      ⟨.object .setImmutable, 1, 0⟩, .ofOp (.handle .clear)]]

theorem immutable_objects_stay_closing :
    (Process.ranFor closing 4).contents? ⟨0, 0⟩ = some ⟨∅, none, some ⟨0⟩, some (.bool false)⟩ ∧
    (Process.ranFor closing 4).Reachable (fun _ => True) ∧
    ((Process.ranFor closing 4).after (.execute (.ofOp (.handle .clear)))).contents? ⟨0, 0⟩ =
      some ⟨∅, none, some ⟨0⟩, some (.bool false)⟩ ∧
    ∃ fault r, Exec.execute (.ofOp (.handle .clear)) (Process.ranFor closing 4) = .error fault r ∧
      r.heap = (Process.ranFor closing 4).heap ∧ r.pool = (Process.ranFor closing 4).pool := by
  have reached : (Process.ranFor closing 4).Reachable (fun _ => True) :=
    Process.reachable_ranFor trivial 4
  have closed := immutable_objects_stay reached
  have seals : (Process.ranFor closing 4).Seals ⟨0, 0⟩ ⟨∅, none, some ⟨0⟩, some (.bool false)⟩ :=
    ⟨⟨.immutable, ∅, some ⟨0⟩, none⟩, by decide +kernel, by decide, by decide +kernel⟩
  have target : (Process.ranFor closing 4).target? (.ofOp (.handle .clear)) = some ⟨0, 0⟩ := by
    decide +kernel
  have lives : ((Process.ranFor closing 4).after
      (.execute (.ofOp (.handle .clear)))).heap.contains ⟨0, 0⟩ = true := by decide +kernel
  generalize Process.ranFor closing 4 = p at *
  have kept := closed.stays _ _ seals _ _ (.of_asked lives) fun r i mem unlocks => by
    cases List.mem_singleton.mp mem
    cases unlocks.1
  exact ⟨seals.contents, reached, kept.contents, closed.refuses p _ (.asked _) _ _ target seals⟩

end ObjectVM
