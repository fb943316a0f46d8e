import ObjectVM.Machine.Run
import ObjectVM.Proofs.Lookups
import ObjectVM.Proofs.ValueIds

/-!
# Instructions

Every instruction is a sequence of edits. Here are those on objects, variables, attributes, handles,
arguments and values: one lemma for each family says that they lead along a `Path`, and which faults
they can end in.
-/
namespace ObjectVM

/-- Changes that lead to a sound process and may end the run. -/
structure Leads (p q : Process) : Prop extends Steps p q where
  halt : q.halt = p.halt ∨ ∀ e, q.halt = some (.uncaught e) → q.heap.contains e = true

theorem Path.leads {p q : Process} (path : Path p q) : Leads p q := ⟨path.toSteps, .inl path.halt⟩

theorem Path.ended {p q : Process} (path : Path p q) {o : Outcome} {t : Option Traceback}
    (live : ∀ e, o = .uncaught e → q.heap.contains e = true) :
    Leads p { q with halt := some o, uncaught := t } := by
  have e : Edit q { q with halt := some o, uncaught := t } := .outcome _ _
  exact ⟨⟨path.edits.tail e, e.sound path.sound⟩, .inr fun id hid => live id (Option.some.inj hid)⟩

namespace Exec

variable {p₀ p : Process}

theorem ends_lookPlain {α : Type} {Q : α → Process → Prop} (path : Path p₀ p)
    {f : Process → Except Fault α} (plain : Plain (f p)) (next : ∀ a, f p = .ok a → Q a p) :
    Ends p₀ Q (look f p) :=
  ends_look path (fun fault e => plain fault e p) next

theorem ends_pushValue_last (path : Path p₀ p) {v : Value} (live : p.heap.Holds v.objectIds) :
    Ends p₀ (fun _ q => Path p₀ q) (pushValue v p) :=
  ends_pushValue path live fun _ path => path

theorem ends_pushObject_last (path : Path p₀ p) {id : ObjectId} (live : p.heap.contains id = true) :
    Ends p₀ (fun _ q => Path p₀ q) (pushObject id p) :=
  ends_pushObject path live fun _ path => path

theorem ends_updateFrame_last (path : Path p₀ p) {g : Frame → Except Fault Frame}
    (moves : Moves p.heap g) : Ends p₀ (fun _ q => Path p₀ q) (updateFrame g p) :=
  ends_updateFrame path moves fun _ path => path

/-! ## Objects -/

theorem ends_swapObjects (path : Path p₀ p) :
    Ends p₀ (fun _ q => Path p₀ q) (swapObjects p) := by
  have hs := path.sound.objects
  refine Ends.bind (ends_get ?_)
  rcases ho : p.objects with _ | ⟨b, _ | ⟨a, rest⟩⟩
  · exact ends_throw path trivial
  · exact ends_throw path trivial
  · rw [ho] at hs
    refine path.step (.objects (hs.mono fun x hx => ?_)) rfl
    exact (List.Perm.swap b a rest).mem_iff.mp hx

theorem ends_compareObjects (path : Path p₀ p) (same : Bool) :
    Ends p₀ (fun _ q => Path p₀ q) (compareObjects same p) := by
  refine Ends.bind (ends_popObject path fun b objects _ path => ?_)
  refine Ends.bind (ends_popObject path fun a objects' _ path => ?_)
  exact ends_pushValue_last path (Heap.holds_nil _)

theorem ends_setClosure (path : Path p₀ p) (closure : UInt64) :
    Ends p₀ (fun _ q => Path p₀ q) (setClosure closure p) := by
  refine Ends.bind (ends_topFrame path fun f _ _ => ?_)
  refine Ends.bind (ends_topObject path fun id live => ?_)
  refine Ends.bind (ends_mutableObject path live fun o get mutable => ?_)
  have attributes := path.sound.attributes get
  refine ends_putObject path get rfl (fun h => ?_) attributes fun path => path
  rw [mutable] at h; cases h

/-- The flags are no ids and no handle: setting one keeps the rest of an object. -/
theorem ends_setFlag (path : Path p₀ p) (flag : ObjectFlags) (on : Bool) :
    Ends p₀ (fun _ q => Path p₀ q) (setFlag flag on p) := by
  refine Ends.bind (ends_topObject path fun id live => ?_)
  refine Ends.bind (ends_object path live fun o get => ?_)
  have attributes := path.sound.attributes get
  exact ends_putObject path get rfl (fun _ => ⟨rfl, rfl⟩) attributes fun path => path

theorem ends_runObject (path : Path p₀ p) (op : ObjectOp) (i : Instruction) :
    Ends p₀ (fun _ q => Path p₀ q) (runObject op i p) := by
  cases op with
  | new =>
    refine Ends.bind (ends_newObject path fun path _ get => ?_)
    exact ends_pushObject_last path (Heap.contains_of_get? get)
  | pop => exact Ends.bind (ends_popObject path fun _ _ _ path => path)
  | swap => exact ends_swapObjects path
  | same => exact ends_compareObjects path true
  | different => exact ends_compareObjects path false
  | setClosure => exact ends_setClosure path i.first
  | setPinned | setIndelible | setUncallable | setImmutable => exact ends_setFlag path _ _

/-! ## Variables -/

theorem ends_loadVisible (path : Path p₀ p) (key : UInt64) :
    Ends p₀ (fun _ q => Path p₀ q) (loadVisible key p) := by
  refine Ends.bind (ends_lookPlain path (p.plain_visible key) fun id found => ?_)
  exact ends_pushObject_last path (path.sound.visible found)

theorem ends_lookVariable {Q : ObjectId → Process → Prop} (path : Path p₀ p) (key : UInt64)
    {find : Frame → Except Fault ObjectId} (finds : Frame.Finds find)
    (next : ∀ id, p.heap.contains id = true → Q id p) : Ends p₀ Q (lookVariable key find p) := by
  refine Ends.bind (ends_topFrame path fun f _ hf => ?_)
  refine ends_lookPlain path (p.plain_named key (finds.plain f)) fun id found => ?_
  cases hid : find f with
  | ok id' =>
    rw [hid] at found; cases found
    exact next id (finds.live p.heap f id hf hid)
  | error fault => rw [hid] at found; cases found

/-- A change of the variables of a frame leaves it the activation that it is. -/
theorem continues_variables (f : Frame) (visible hidden : KeyMap ObjectId) :
    f.Continues { f with visible, hidden } :=
  ⟨rfl, rfl, rfl, rfl, rfl, rfl, fun h => h⟩

theorem ends_storeOuter (path : Path p₀ p) (key : UInt64) (links : Nat) :
    Ends p₀ (fun _ q => Path p₀ q) (storeOuter key links p) := by
  refine Ends.bind (ends_popObject path fun id objects live path => ?_)
  refine Ends.bind (ends_topFrame path fun _ _ _ => ?_)
  refine Ends.bind (ends_lookPlain path (CallStack.plain_ancestor _ _ _) fun index outward => ?_)
  refine Ends.bind (ends_get ?_)
  cases there : p.calls.get? index with
  | some f => exact path.step (.outer key outward there live) rfl
  | none => exact ends_throw path trivial

theorem ends_runVariable (path : Path p₀ p) (op : VariableOp) (i : Instruction) :
    Ends p₀ (fun _ q => Path p₀ q) (runVariable op i p) := by
  cases op with
  | load => exact ends_loadVisible path i.first
  | store =>
    refine Ends.bind (ends_popObject path fun id objects live path => ?_)
    refine Ends.bind (ends_topFrame path fun f top hf => ?_)
    exact ends_setTopFrame path top (continues_variables f _ _)
      (Frame.holds_setVisible hf live i.first) fun _ path => path
  | storeOuter => exact ends_storeOuter path i.first i.second.toNat
  | loadHidden =>
    refine Ends.bind (ends_lookVariable path i.first (Frame.finds_hidden i.first) fun id live => ?_)
    exact ends_pushObject_last path live
  | storeHidden =>
    refine Ends.bind (ends_popObject path fun id objects live path => ?_)
    refine Ends.bind (ends_topFrame path fun f top hf => ?_)
    exact ends_setTopFrame path top (continues_variables f _ _)
      (Frame.holds_setHidden hf live i.first) fun _ path => path
  | delete =>
    have finds := Frame.finds_visible i.first
    refine Ends.bind (ends_lookVariable path i.first finds fun id live => ?_)
    refine Ends.bind (ends_checkDeletable path live ?_)
    refine Ends.bind (ends_topFrame path fun f top hf => ?_)
    exact ends_setTopFrame path top (continues_variables f _ _)
      (Frame.holds_eraseVisible hf i.first) fun _ path => path
  | deleteHidden =>
    refine Ends.bind (ends_lookVariable path i.first (Frame.finds_hidden i.first) fun id live => ?_)
    refine Ends.bind (ends_checkDeletable path live ?_)
    refine Ends.bind (ends_topFrame path fun f top hf => ?_)
    exact ends_setTopFrame path top (continues_variables f _ _)
      (Frame.holds_eraseHidden hf i.first) fun _ path => path
  | loadEither =>
    refine Ends.bind (ends_popValue path fun condition calls _ path => ?_)
    exact ends_loadVisible path _

/-! ## Attributes -/

theorem ends_readName {Q : String → Process → Prop} (path : Path p₀ p) (source : NameSource)
    (i : Instruction) (next : ∀ name calls, Path p₀ { p with calls } → Q name { p with calls }) :
    Ends p₀ Q (readName source i p) := by
  cases source with
  | literal =>
    exact ends_lookPlain path (p.plain_stringLiteral _) fun name _ => next name p.calls path
  | computed =>
    refine Ends.bind (ends_popValue path fun v calls _ path => ?_)
    exact ends_liftValue path fun name _ => next name calls path

theorem ends_findAttribute {Q : ObjectId → Process → Prop} (path : Path p₀ p) {id : ObjectId}
    {o : Object} (get : p.heap.get? id = some o) (name : String)
    (next : ∀ id, p.heap.contains id = true → Q id p) : Ends p₀ Q (findAttribute o name p) := by
  unfold findAttribute
  cases ha : o.attribute? (Text.hash name) with
  | some a => exact next a (path.sound.stores.attributes id o _ a get ha)
  | none => exact ends_throw path trivial

theorem holds_putAttribute {h : Heap} {o : Object} (ho : h.Holds o.attributes.values)
    {id : ObjectId}
    (live : h.contains id = true) (key : UInt64) :
    h.Holds (o.putAttribute key id).attributes.values := fun x hx => by
  rcases KeyMap.mem_values_insert hx with rfl | hx
  · exact live
  · exact ho x hx

theorem ends_runAttribute (path : Path p₀ p) (op : AttributeOp) (name : String) :
    Ends p₀ (fun _ q => Path p₀ q) (runAttribute op name p) := by
  cases op with
  | get =>
    refine Ends.bind (ends_popObject path fun id objects live path => ?_)
    refine Ends.bind (ends_object path live fun o get => ?_)
    refine Ends.bind (ends_findAttribute path get name fun a live => ?_)
    exact ends_pushObject_last path live
  | set =>
    refine Ends.bind (ends_popObject path fun value objects live path => ?_)
    refine Ends.bind (ends_topObject path fun id there => ?_)
    refine Ends.bind (ends_mutableObject path there fun o get mutable => ?_)
    refine ends_putObject path get rfl (fun h => ?_)
      (holds_putAttribute (path.sound.attributes get) live _) fun path => path
    rw [mutable] at h; cases h
  | delete =>
    refine Ends.bind (ends_topObject path fun id there => ?_)
    refine Ends.bind (ends_mutableObject path there fun o get mutable => ?_)
    refine Ends.bind (ends_findAttribute path get name fun a live => ?_)
    refine Ends.bind (ends_checkDeletable path live ?_)
    refine ends_putObject path get rfl (fun h => ?_)
      ((path.sound.attributes get).mono fun x hx => KeyMap.mem_values_erase hx) fun path => path
    rw [mutable] at h; cases h
  | has =>
    refine Ends.bind (ends_topObject path fun id there => ?_)
    refine Ends.bind (ends_object path there fun o _ => ?_)
    exact ends_pushValue_last path (Heap.holds_nil _)

/-- Looking at each item of a list changes nothing. -/
theorem ends_mapM {α β : Type} {f : α → Exec β} {R : β → Prop} :
    ∀ {l : List α} {Q : List β → Process → Prop},
      (∀ a ∈ l, ∀ Q' : β → Process → Prop, (∀ b, R b → Q' b p) → Ends p₀ Q' (f a p)) →
      (∀ bs, (∀ b ∈ bs, R b) → Q bs p) → Ends p₀ Q (l.mapM f p) := by
  intro l
  induction l with
  | nil =>
    intro Q _ next
    rw [List.mapM_nil]
    exact next [] fun b hb => absurd hb List.not_mem_nil
  | cons a l ih =>
    intro Q each next
    rw [List.mapM_cons]
    refine Ends.bind (each a List.mem_cons_self _ fun b hb => ?_)
    refine Ends.bind (ih (fun a ha => each a (List.mem_cons_of_mem _ ha)) fun bs hbs => ?_)
    refine next (b :: bs) fun c hc => ?_
    rcases List.mem_cons.mp hc with rfl | hc
    · exact hb
    · exact hbs c hc

/-- Binding many attributes is binding them one after another. -/
theorem holds_putAttributes {h : Heap} (bindings : List (UInt64 × ObjectId)) :
    ∀ {o : Object}, h.Holds o.attributes.values → (∀ b ∈ bindings, h.contains b.2 = true) →
      h.Holds (bindings.foldl (fun o b => o.putAttribute b.1 b.2) o).attributes.values := by
  induction bindings with
  | nil => intro o ho _; exact ho
  | cons b bindings ih =>
    intro o ho hb
    refine ih (holds_putAttribute ho (hb b List.mem_cons_self) b.1) ?_
    exact fun c hc => hb c (List.mem_cons_of_mem _ hc)

theorem handle_putAttributes (bindings : List (UInt64 × ObjectId)) : ∀ o : Object,
    (bindings.foldl (fun o b => o.putAttribute b.1 b.2) o).handle = o.handle := by
  induction bindings with
  | nil => intro o; rfl
  | cons b bindings ih => intro o; exact ih _

theorem ends_setAttributes (path : Path p₀ p) :
    Ends p₀ (fun _ q => Path p₀ q) (setAttributes p) := by
  refine Ends.bind (ends_topValue path fun v hv => ?_)
  refine Ends.bind (ends_liftValue path fun entries he => ?_)
  have hentries := Value.yields_asMap hv _ entries he
  refine Ends.bind (ends_mapM (R := fun b => p.heap.contains b.2 = true)
    (fun e hm Q' next => ?_) fun bindings hb => ?_)
  · refine Ends.bind (ends_lookPlain path (p.plain_stringLiteral _) fun name _ => ?_)
    exact next _ (hentries e.2 (List.mem_map_of_mem hm))
  · refine Ends.bind (ends_topObject path fun id there => ?_)
    refine Ends.bind (ends_mutableObject path there fun o get mutable => ?_)
    refine ends_putObject path get (handle_putAttributes bindings o) (fun h => ?_)
      (holds_putAttributes bindings (path.sound.attributes get) hb) fun path => path
    rw [mutable] at h; cases h

/-! ## Handles -/

theorem ends_assign (path : Path p₀ p) {id : ObjectId} (live : p.heap.contains id = true)
    {v : Value} (hv : p.heap.Holds v.objectIds) :
    Ends p₀ (fun _ q => Path p₀ q) (assign id v p) := by
  refine Ends.bind (ends_mutableObject path live fun o get mutable => ?_)
  exact ends_setValue path get mutable hv fun q path _ => path

theorem ends_copyValue (path : Path p₀ p) {f : Value → Value}
    (hf : ∀ v, p.heap.Holds v.objectIds → p.heap.Holds (f v).objectIds) :
    Ends p₀ (fun _ q => Path p₀ q) (copyValue f p) := by
  refine Ends.bind (ends_popObject path fun source objects live path => ?_)
  refine Ends.bind (ends_topObject path fun target there => ?_)
  refine Ends.bind (ends_valueOf path live fun v hv => ?_)
  exact ends_assign path there (hf v hv)

/-- The value of a held handle can always be taken out of the pool. -/
theorem ends_clearHandle (path : Path p₀ p) : Ends p₀ (fun _ q => Path p₀ q) (clearHandle p) := by
  refine Ends.bind (ends_topObject path fun id there => ?_)
  refine Ends.bind (ends_mutableObject path there fun o get mutable => ?_)
  cases has : o.handle with
  | none => exact path
  | some key =>
    obtain ⟨v, hv⟩ := Pool.contains_iff.mp (path.sound.stores.held id o key get has)
    refine Ends.bind (Ends.bind (ends_get ?_))
    rw [Pool.erase_eq hv]
    exact path.step (.detach get has mutable) rfl

theorem ends_objectTruthy (path : Path p₀ p) :
    Ends p₀ (fun _ q => Path p₀ q) (objectTruthy p) := by
  refine Ends.bind (ends_topObject path fun id there => ?_)
  refine Ends.bind (ends_object path there fun o get => ?_)
  cases has : o.handle with
  | none => exact ends_pushValue_last path (Heap.holds_nil _)
  | some key =>
    obtain ⟨v, hv⟩ := Pool.contains_iff.mp (path.sound.stores.held id o key get has)
    have he : p.pooled key = .ok v := by
      simp only [Process.pooled, Pool.find, hv]; rfl
    refine Ends.bind (ends_look path (fun fault e => ?_) fun w _ => ?_)
    · rw [he] at e; cases e
    · exact ends_pushValue_last path (Heap.holds_nil _)

theorem ends_runHandle (path : Path p₀ p) (op : HandleOp) (i : Instruction) :
    Ends p₀ (fun _ q => Path p₀ q) (runHandle op i p) := by
  cases op with
  | get =>
    refine Ends.bind (ends_topObject path fun id there => ?_)
    refine Ends.bind (ends_valueOf path there fun v hv => ?_)
    exact ends_pushValue_last path hv
  | set =>
    refine Ends.bind (ends_popValue path fun v calls hv path => ?_)
    refine Ends.bind (ends_topObject path fun id there => ?_)
    exact ends_assign path there hv
  | getOf =>
    refine Ends.bind (ends_lookPlain path (p.plain_visible _) fun id found => ?_)
    refine Ends.bind (ends_valueOf path (path.sound.visible found) fun v hv => ?_)
    exact ends_pushValue_last path hv
  | setOf =>
    refine Ends.bind (ends_popValue path fun v calls hv path => ?_)
    refine Ends.bind (ends_lookPlain path (Process.plain_visible _ _) fun id found => ?_)
    exact ends_assign path (path.sound.visible found) hv
  | clear => exact ends_clearHandle path
  | copy => exact ends_copyValue path fun v hv => hv
  | copyText => exact ends_copyValue path fun v _ => Heap.holds_nil _
  | truthy => exact ends_objectTruthy path

/-! ## Arguments -/

theorem holds_invocation {h : Heap} {i : Invocation} :
    h.Holds i.objectIds ↔ h.Holds i.positional ∧ h.Holds i.named.values := Heap.holds_append

theorem ends_updateStaged (path : Path p₀ p) {g : Invocation → Invocation}
    (callee : ∀ i, (g i).callee = i.callee)
    (live : ∀ i, p.heap.Holds i.objectIds → p.heap.Holds (g i).objectIds) :
    Ends p₀ (fun _ q => Path p₀ q) (updateStaged g p) := by
  refine Ends.bind (ends_stagedInvocation path fun f n i top there place hi => ?_)
  exact ends_putInvocation path top there (.inr place) (callee i) (live i hi) fun _ path => path

/-- What taking an argument does to the invocation that holds it. -/
structure Takes {α : Type} (h : Heap) (R : α → Prop)
    (take : Invocation → Except Fault (α × Invocation)) : Prop where
  plain : ∀ i, Plain (take i)
  callee : ∀ i a i', take i = .ok (a, i') → i'.callee = i.callee
  live : ∀ i a i', h.Holds i.objectIds → take i = .ok (a, i') → R a ∧ h.Holds i'.objectIds

theorem ends_takeOwn {α : Type} {Q : α → Process → Prop} {R : α → Prop} (path : Path p₀ p)
    {take : Invocation → Except Fault (α × Invocation)} (takes : Takes p.heap R take)
    (next : ∀ a invocations, R a → Path p₀ { p with invocations } → Q a { p with invocations }) :
    Ends p₀ Q (takeOwn take p) := by
  refine Ends.bind (ends_ownInvocation path fun f i top there hi => ?_)
  refine Ends.bind (ends_lift path (takes.plain i) fun ai taken => ?_)
  obtain ⟨a, i'⟩ := ai
  obtain ⟨ha, hi'⟩ := takes.live i a i' hi taken
  refine Ends.bind (ends_putInvocation path top there (.inl rfl) (takes.callee i a i' taken) hi'
    fun invocations path => ?_)
  exact next a invocations ha path

theorem takes_next (h : Heap) : Takes h (fun id => h.contains id = true) (·.takeNext) := by
  refine ⟨fun i => ?_, fun i a i' e => ?_, fun i a i' hi e => ?_⟩
  · unfold Invocation.takeNext
    split
    · exact .ok _
    · exact .error fun _ => trivial
  · unfold Invocation.takeNext at e
    split at e
    · cases e; rfl
    · cases e
  · unfold Invocation.takeNext at e
    split at e
    · next id hid =>
      cases e
      exact ⟨(holds_invocation.mp hi).1 a (List.mem_of_getElem? hid), hi⟩
    · cases e

theorem takes_named (h : Heap) (key : UInt64) :
    Takes h (fun id => h.contains id = true) (·.takeNamed key) := by
  refine ⟨fun i => ?_, fun i a i' e => ?_, fun i a i' hi e => ?_⟩
  · unfold Invocation.takeNamed
    split
    · exact .ok _
    · exact .error fun _ => trivial
  · unfold Invocation.takeNamed at e
    split at e
    · cases e; rfl
    · cases e
  · unfold Invocation.takeNamed at e
    obtain ⟨hp, hn⟩ := holds_invocation.mp hi
    split at e
    · next id hid =>
      cases e
      refine ⟨hn a (KeyMap.mem_values_of_get? hid), holds_invocation.mpr ⟨hp, hn.mono ?_⟩⟩
      exact fun x hx => KeyMap.mem_values_erase hx
    · cases e

theorem takes_remaining (h : Heap) : Takes h h.Holds (.ok ·.takeRemaining) := by
  refine ⟨fun i => .ok _, fun i a i' e => ?_, fun i a i' hi e => ?_⟩
  · cases e; rfl
  · cases e
    exact ⟨(holds_invocation.mp hi).1.mono fun x hx => List.mem_of_mem_drop hx, hi⟩

theorem takes_allNamed (h : Heap) : Takes h (fun m => h.Holds m.values) (.ok ·.takeAllNamed) := by
  refine ⟨fun i => .ok _, fun i a i' e => ?_, fun i a i' hi e => ?_⟩
  · cases e; rfl
  · cases e
    obtain ⟨hp, hn⟩ := holds_invocation.mp hi
    exact ⟨hn, holds_invocation.mpr ⟨hp, Heap.holds_nil h⟩⟩

theorem ends_takeNamed (path : Path p₀ p) (key skipped : UInt64) :
    Ends p₀ (fun _ q => Path p₀ q) (takeNamed key skipped p) := by
  refine Ends.bind (ends_ownInvocation path fun f i _ _ _ => ?_)
  show Ends p₀ (fun _ q => Path p₀ q) ((if i.named.contains key then do
    pushObject (← takeOwn (·.takeNamed key))
    updateFrame (·.skip skipped) else pure () : Exec Unit) p)
  split
  · refine Ends.bind (ends_takeOwn path (takes_named _ key) fun id invocations live path => ?_)
    refine Ends.bind (ends_pushObject path live fun objects path => ?_)
    exact ends_updateFrame_last path (moves_skip _ skipped)
  · exact path

theorem ends_runArgument (path : Path p₀ p) (op : ArgumentOp) (i : Instruction) :
    Ends p₀ (fun _ q => Path p₀ q) (runArgument op i p) := by
  cases op with
  | put =>
    refine Ends.bind (ends_popObject path fun id objects live path => ?_)
    refine ends_updateStaged path (fun _ => rfl) fun j hj => ?_
    obtain ⟨hp, hn⟩ := holds_invocation.mp hj
    refine holds_invocation.mpr ⟨Heap.holds_append.mpr ⟨hp, ?_⟩, hn⟩
    exact Heap.holds_cons.mpr ⟨live, Heap.holds_nil _⟩
  | putNamed =>
    refine Ends.bind (ends_popObject path fun id objects live path => ?_)
    refine ends_updateStaged path (fun _ => rfl) fun j hj => ?_
    obtain ⟨hp, hn⟩ := holds_invocation.mp hj
    refine holds_invocation.mpr ⟨hp, fun x hx => ?_⟩
    rcases KeyMap.mem_values_insert hx with rfl | hx
    · exact live
    · exact hn x hx
  | putAll =>
    refine Ends.bind (ends_popObject path fun id objects live path => ?_)
    refine Ends.bind (ends_valueOf path live fun v hv => ?_)
    refine Ends.bind (ends_liftValue path fun items hitems => ?_)
    refine ends_updateStaged path (fun _ => rfl) fun j hj => ?_
    obtain ⟨hp, hn⟩ := holds_invocation.mp hj
    have hi := Value.yields_asArray hv _ items hitems
    exact holds_invocation.mpr ⟨Heap.holds_append.mpr ⟨hp, hi⟩, hn⟩
  | putAllNamed =>
    refine Ends.bind (ends_popObject path fun id objects live path => ?_)
    refine Ends.bind (ends_valueOf path live fun v hv => ?_)
    refine Ends.bind (ends_liftValue path fun entries hentries => ?_)
    refine ends_updateStaged path (fun _ => rfl) fun j hj => ?_
    obtain ⟨hp, hn⟩ := holds_invocation.mp hj
    have he := Value.yields_asMap hv _ entries hentries
    refine holds_invocation.mpr ⟨hp, fun x hx => ?_⟩
    rcases KeyMap.mem_values_insertAll entries.entries hx with hx | hx
    · exact he x hx
    · exact hn x hx
  | take =>
    refine Ends.bind (ends_takeOwn path (takes_next _) fun id invocations live path => ?_)
    exact ends_pushObject_last path live
  | takeNamed => exact ends_takeNamed path i.first i.second
  | takeAll =>
    refine Ends.bind (ends_takeOwn path (takes_remaining _) fun rest invocations live path => ?_)
    refine Ends.bind (ends_newObjectWith path live fun id q path there => ?_)
    exact ends_pushObject_last path there
  | takeAllNamed =>
    refine Ends.bind (ends_takeOwn path (takes_allNamed _) fun rest invocations live path => ?_)
    refine Ends.bind (ends_newObjectWith path live fun id q path there => ?_)
    exact ends_pushObject_last path there
  | hasMore =>
    refine Ends.bind (ends_ownInvocation path fun f j _ _ _ => ?_)
    exact ends_pushValue_last path (Heap.holds_nil _)

/-! ## Values -/

theorem ends_perform (path : Path p₀ p) {a : Action} (passes : ∀ h, a.Passes h) :
    Ends p₀ (fun _ q => Path p₀ q) (perform a p) := by
  cases a with
  | compute n f =>
    refine Ends.bind (ends_popOperands n path fun ws calls hws path => ?_)
    refine Ends.bind (ends_topValue path fun v hv => ?_)
    refine Ends.bind (ends_liftValue path fun r hr => ?_)
    exact ends_setTopValue path (passes p.heap v ws hv hws r hr) fun _ path => path
  | read n f =>
    refine Ends.bind (ends_popOperands n path fun ws calls hws path => ?_)
    refine Ends.bind (ends_topValue path fun v hv => ?_)
    refine Ends.bind (ends_liftValue path fun id hid => ?_)
    exact ends_pushObject_last path (passes p.heap v ws hv id hid)
  | store n f =>
    refine Ends.bind (ends_popObject path fun id objects live path => ?_)
    refine Ends.bind (ends_popOperands n path fun ws calls hws path => ?_)
    refine Ends.bind (ends_topValue path fun v hv => ?_)
    refine Ends.bind (ends_liftValue path fun r hr => ?_)
    exact ends_setTopValue path (passes p.heap v ws id hv live r hr) fun _ path => path
  | exchange f =>
    refine Ends.bind (ends_topFrame path fun fr top hfr => ?_)
    refine Ends.bind (ends_topTwoValues path hfr fun a b ha hb => ?_)
    refine Ends.bind (ends_liftValue path fun ab hab => ?_)
    obtain ⟨a', b'⟩ := ab
    obtain ⟨ha', hb'⟩ := passes p.heap a b ha hb (a', b') hab
    exact ends_updateFrame_last path (moves_setTopTwoValues ha' hb')

theorem ends_runStack (path : Path p₀ p) (op : StackOp) :
    Ends p₀ (fun _ q => Path p₀ q) (runStack op p) := by
  cases op with
  | pop => exact Ends.bind (ends_popValue path fun _ _ _ path => path)
  | dup =>
    refine Ends.bind (ends_topValue path fun v hv => ?_)
    exact ends_pushValue_last path hv
  | swap => exact ends_updateFrame_last path (moves_swapValues _)

theorem ends_floatLiteral {Q : Float → Process → Prop} (path : Path p₀ p) (key : UInt64)
    (next : ∀ x, Q x p) : Ends p₀ Q (floatLiteral key p) := by
  refine Ends.bind (ends_lookPlain path (.bind p.plain_currentCompartment fun c _ =>
    c.plain_floatBits key) fun bits _ => ?_)
  exact next _

theorem ends_runConstant (path : Path p₀ p) (op : ConstantOp) (i : Instruction) :
    Ends p₀ (fun _ q => Path p₀ q) (runConstant op i p) := by
  have none := Heap.holds_nil p.heap
  cases op with
  | int k => exact ends_pushValue_last path none
  | bool | array | map => exact ends_pushValue_last path none
  | dec1 =>
    exact Ends.bind (ends_floatLiteral path i.first fun x => ends_pushValue_last path none)
  | dec2 =>
    exact Ends.bind (ends_floatLiteral path i.first fun x => ends_pushValue_last path none)
  | text =>
    refine Ends.bind (ends_lookPlain path (p.plain_stringLiteral _) fun s _ => ?_)
    exact ends_pushValue_last path none

end Exec

end ObjectVM
