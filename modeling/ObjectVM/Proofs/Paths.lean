import ObjectVM.Machine.Exec
import ObjectVM.Proofs.Edit

/-!
# Effects of instructions

Where a step of an instruction leads. `Ends p₀ Q r` says of a result `r` that a success satisfies
`Q`, and that a failure has left a sound process, changed in `Steps` from `p₀`, and is a fault that
this process admits: in a sound process no id dangles and no key that is held lacks its value. There
is one such law for each step that instructions are made of, `Ends.bind` puts them together, and a
proof about an instruction follows its text.
-/
namespace ObjectVM

/-- Changes that lead to a sound process. -/
structure Steps (p q : Process) : Prop where
  edits : Edits p q
  sound : q.Sound

/-- Changes that lead to a sound process and do not end the run. -/
structure Path (p q : Process) : Prop extends Steps p q where
  halt : q.halt = p.halt

/-- Whether a fault can come up in a sound process. -/
def Process.Admits (p : Process) : Fault → Prop
  | .heap (.objectNotFound _) => False
  | .pool (.notLive _) => False
  | .noHandle id => ∃ o, p.heap.get? id = some o ∧ o.handle = none
  | _ => True

/-- A result whose faults can come up in every process. -/
def Plain {α : Type} (r : Except Fault α) : Prop :=
  ∀ fault, r = .error fault → ∀ p : Process, p.Admits fault

/-- Where a result has led from `p₀`. -/
def Ends (p₀ : Process) {α : Type} (Q : α → Process → Prop) : EStateM.Result Fault Process α → Prop
  | .ok a q => Q a q
  | .error fault q => Steps p₀ q ∧ q.Admits fault

theorem Steps.refl {p : Process} (s : p.Sound) : Steps p p := ⟨.refl, s⟩

theorem Steps.trans {p q r : Process} (steps : Steps p q) (steps' : Steps q r) : Steps p r :=
  ⟨steps.edits.trans steps'.edits, steps'.sound⟩

namespace Path

variable {p q r : Process}

theorem refl (s : p.Sound) : Path p p := ⟨⟨.refl, s⟩, rfl⟩

theorem step (path : Path p q) (e : Edit q r) (halt : r.halt = q.halt) : Path p r :=
  ⟨⟨path.edits.tail e, e.sound path.sound⟩, halt.trans path.halt⟩

theorem note (path : Path p q) (e : Event) : Path p (q.note e) :=
  path.step (.report q.output q.diagnostics q.signals _) rfl

end Path

/-! ## Plain results -/

theorem ok_bind {α β : Type} (a : α) (f : α → Except Fault β) : (Except.ok a >>= f) = f a := rfl

namespace Plain

variable {α β : Type}

theorem ok (a : α) : Plain (.ok a) := fun _ h => by cases h

theorem error {fault : Fault} (h : ∀ p : Process, p.Admits fault) :
    Plain (.error fault : Except Fault α) := fun _ e => by cases e; exact h

theorem bind {r : Except Fault α} {f : α → Except Fault β} (hr : Plain r)
    (hf : ∀ a, r = .ok a → Plain (f a)) : Plain (r >>= f) := by
  cases r with
  | ok a => exact hf a rfl
  | error fault => exact fun _ e => by cases e; exact hr fault rfl

end Plain

namespace Ends

variable {p₀ p : Process} {α β : Type}

theorem bind {Q : β → Process → Prop} {m : Exec α} {k : α → Exec β}
    (h : Ends p₀ (fun a q => Ends p₀ Q (k a q)) (m p)) : Ends p₀ Q ((m >>= k) p) := by
  show Ends p₀ Q (EStateM.bind m k p)
  unfold EStateM.bind
  cases hm : m p with
  | ok a q => rw [hm] at h; exact h
  | error fault q => rw [hm] at h; exact h

theorem mono {Q R : α → Process → Prop} {r : EStateM.Result Fault Process α} (h : Ends p₀ Q r)
    (hQR : ∀ a q, Q a q → R a q) : Ends p₀ R r := by
  cases r with
  | ok a q => exact hQR a q h
  | error fault q => exact h

/-- What has led somewhere from a later process has led there from an earlier one. -/
theorem reroot {p₁ : Process} (steps : Steps p₀ p₁) {Q : α → Process → Prop}
    {r : EStateM.Result Fault Process α} (h : Ends p₁ Q r) : Ends p₀ Q r := by
  cases r with
  | ok a q => exact h
  | error fault q => exact ⟨steps.trans h.1, h.2⟩

end Ends

namespace Exec

variable {p₀ p : Process} {α β : Type} {Q : α → Process → Prop}

/-- After a step that succeeds comes the rest. -/
theorem bind_ok {m : Exec α} {k : α → Exec β} {a : α} {q : Process} (h : m p = .ok a q) :
    (m >>= k) p = k a q := by
  show EStateM.bind m k p = _
  unfold EStateM.bind
  rw [h]

theorem get_bind (k : Process → Exec α) : (get >>= k) p = k p p := rfl

theorem ends_throw (path : Path p₀ p) {fault : Fault} (admits : p.Admits fault) :
    Ends p₀ Q ((throw fault : Exec α) p) := ⟨path.toSteps, admits⟩

theorem ends_get {Q : Process → Process → Prop} (next : Q p p) :
    Ends p₀ Q ((get : Exec Process) p) := next

theorem ends_lift (path : Path p₀ p) {r : Except Fault α} (plain : Plain r)
    (next : ∀ a, r = .ok a → Q a p) : Ends p₀ Q (lift r p) := by
  cases r with
  | ok a => exact next a rfl
  | error fault => exact ⟨path.toSteps, plain fault rfl p⟩

theorem ends_liftValue (path : Path p₀ p) {r : Except ValueError α}
    (next : ∀ a, r = .ok a → Q a p) : Ends p₀ Q (liftValue r p) := by
  cases r with
  | ok a => exact next a rfl
  | error e => exact ⟨path.toSteps, trivial⟩

theorem look_eq {f : Process → Except Fault α} {a : α} (h : f p = .ok a) : look f p = .ok a p := by
  unfold look
  rw [get_bind, h]
  rfl

/-- Looking fails as what is looked at does. -/
theorem ends_look (path : Path p₀ p) {f : Process → Except Fault α}
    (admits : ∀ fault, f p = .error fault → p.Admits fault) (next : ∀ a, f p = .ok a → Q a p) :
    Ends p₀ Q (look f p) := by
  refine Ends.bind (ends_get ?_)
  cases hf : f p with
  | ok a => exact next a hf
  | error fault => exact ⟨path.toSteps, admits fault hf⟩

theorem ends_note {Q : Unit → Process → Prop} (path : Path p₀ p) {e : Event}
    (next : Path p₀ (p.note e) → Q () (p.note e)) : Ends p₀ Q (note e p) :=
  next (path.step (.report _ _ _ _) rfl)

/-! ## Frames -/

theorem topFrame_eq {f : Frame} (top : p.calls.top? = some f) : topFrame p = .ok f p := by
  unfold topFrame
  rw [get_bind, top]
  rfl

theorem ends_topFrame {Q : Frame → Process → Prop} (path : Path p₀ p)
    (next : ∀ f, p.calls.top? = some f → p.heap.Holds f.objectIds → Q f p) :
    Ends p₀ Q (topFrame p) := by
  refine Ends.bind (ends_get ?_)
  cases hf : p.calls.top? with
  | some f => exact next f hf (path.sound.topFrame hf)
  | none => exact ⟨path.toSteps, trivial⟩

theorem ends_setTopFrame {Q : Unit → Process → Prop} (path : Path p₀ p) {f f' : Frame}
    (top : p.calls.top? = some f) (continues : f.Continues f') (live : p.heap.Holds f'.objectIds)
    (next : ∀ calls, Path p₀ { p with calls } → Q () { p with calls }) :
    Ends p₀ Q (setTopFrame f' p) :=
  next _ (path.step (.frame top continues live) rfl)

/-- A change of the running frame that may be made under a heap. -/
structure Moves (h : Heap) (g : Frame → Except Fault Frame) : Prop where
  plain : ∀ f, Plain (g f)
  continues : ∀ f f', g f = .ok f' → f.Continues f'
  live : ∀ f f', h.Holds f.objectIds → g f = .ok f' → h.Holds f'.objectIds

theorem ends_updateFrame {Q : Unit → Process → Prop} (path : Path p₀ p)
    {g : Frame → Except Fault Frame} (moves : Moves p.heap g)
    (next : ∀ calls, Path p₀ { p with calls } → Q () { p with calls }) :
    Ends p₀ Q (updateFrame g p) := by
  refine Ends.bind (ends_topFrame path fun f top hf => ?_)
  refine Ends.bind (ends_lift path (moves.plain f) fun f' hf' => ?_)
  exact ends_setTopFrame path top (moves.continues f f' hf') (moves.live f f' hf hf') next

theorem updateFrame_eq {f f' : Frame} {g : Frame → Except Fault Frame}
    (top : p.calls.top? = some f) (changed : g f = .ok f') :
    updateFrame g p = .ok () { p with calls := p.calls.modifyTop fun _ => f' } := by
  refine (bind_ok (topFrame_eq top)).trans ?_
  rw [changed]
  rfl

theorem moves_goTo (h : Heap) (address : Nat) : Moves h (·.goTo address) := by
  refine ⟨fun f fault e => ?_, fun f f' e => ?_, fun f f' hf e => ?_⟩
  all_goals
    unfold Frame.goTo at e
    split at e
  · cases e
  · cases e; exact fun _ => trivial
  · next hlt =>
    cases e
    exact ⟨rfl, rfl, rfl, rfl, rfl, rfl, fun _ => Nat.le_of_lt hlt⟩
  · cases e
  · cases e; exact hf
  · cases e

theorem moves_jump (h : Heap) (offset : Int) : Moves h (·.jump offset) := by
  refine ⟨fun f fault e => ?_, fun f f' e => ?_, fun f f' hf e => ?_⟩
  all_goals
    unfold Frame.jump at e
    simp only at e
    split at e
  · cases e; exact fun _ => trivial
  · exact (moves_goTo h _).plain f fault e
  · cases e
  · exact (moves_goTo h _).continues f f' e
  · cases e
  · exact (moves_goTo h _).live f f' hf e

theorem moves_skip (h : Heap) (n : UInt64) : Moves h (·.skip n) := by
  refine ⟨fun f fault e => ?_, fun f f' e => ?_, fun f f' hf e => ?_⟩
  all_goals
    unfold Frame.skip at e
    simp only at e
    split at e
  · cases e; exact fun _ => trivial
  · cases e
  · cases e
  · next hle =>
    cases e
    exact ⟨rfl, rfl, rfl, rfl, rfl, rfl, fun _ => Nat.le_of_not_lt hle⟩
  · cases e
  · cases e; exact hf

/-- A change of the values of a frame leaves it the activation that it is. -/
theorem continues_values (f : Frame) (vs : List Value) : f.Continues { f with values := vs } :=
  ⟨rfl, rfl, rfl, rfl, rfl, rfl, id⟩

theorem moves_setTopValue {h : Heap} {v : Value} (live : h.Holds v.objectIds) :
    Moves h (·.setTopValue v) := by
  refine ⟨fun f fault e => ?_, fun f f' e => ?_, fun f f' hf e => ?_⟩
  all_goals
    unfold Frame.setTopValue at e
    split at e
  · cases e
  · cases e; exact fun _ => trivial
  · cases e; exact continues_values f _
  · cases e
  · next w rest hv =>
    cases e
    have hvs := (Frame.holds_iff.mp hf).2.2.2
    rw [hv] at hvs
    refine Frame.holds_values hf fun u hu => ?_
    rcases List.mem_cons.mp hu with rfl | hu
    · exact live
    · exact hvs u (List.mem_cons_of_mem _ hu)
  · cases e

theorem moves_setTopTwoValues {h : Heap} {a b : Value} (ha : h.Holds a.objectIds)
    (hb : h.Holds b.objectIds) : Moves h (·.setTopTwoValues a b) := by
  refine ⟨fun f fault e => ?_, fun f f' e => ?_, fun f f' hf e => ?_⟩
  all_goals
    unfold Frame.setTopTwoValues at e
    split at e
  · cases e
  · cases e; exact fun _ => trivial
  · cases e; exact continues_values f _
  · cases e
  · next _ _ rest hv =>
    cases e
    have hvs := (Frame.holds_iff.mp hf).2.2.2
    rw [hv] at hvs
    refine Frame.holds_values hf fun u hu => ?_
    rcases List.mem_cons.mp hu with rfl | hu
    · exact hb
    · rcases List.mem_cons.mp hu with rfl | hu
      · exact ha
      · exact hvs u (List.mem_cons_of_mem _ (List.mem_cons_of_mem _ hu))
  · cases e

theorem moves_swapValues (h : Heap) : Moves h (·.swapValues) := by
  refine ⟨fun f fault e => ?_, fun f f' e => ?_, fun f f' hf e => ?_⟩
  all_goals
    unfold Frame.swapValues at e
    split at e
  · cases e
  · cases e; exact fun _ => trivial
  · cases e; exact continues_values f _
  · cases e
  · next b a rest hv =>
    cases e
    have hvs := (Frame.holds_iff.mp hf).2.2.2
    rw [hv] at hvs
    refine Frame.holds_values hf fun u hu => hvs u ?_
    exact (List.Perm.swap b a rest).mem_iff.mp hu
  · cases e

/-! ## Objects -/

theorem ends_pushObject {Q : Unit → Process → Prop} (path : Path p₀ p) {id : ObjectId}
    (live : p.heap.contains id = true)
    (next : ∀ objects, Path p₀ { p with objects } → Q () { p with objects }) :
    Ends p₀ Q (pushObject id p) :=
  next _ (path.step (.objects (Heap.holds_cons.mpr ⟨live, path.sound.objects⟩)) rfl)

theorem popObject_eq {id : ObjectId} {rest : List ObjectId} (h : p.objects = id :: rest) :
    popObject p = .ok id { p with objects := rest } := by
  unfold popObject
  rw [get_bind, h]
  rfl

theorem ends_popObject {Q : ObjectId → Process → Prop} (path : Path p₀ p)
    (next : ∀ id objects, p.heap.contains id = true → Path p₀ { p with objects } →
      Q id { p with objects }) : Ends p₀ Q (popObject p) := by
  refine Ends.bind (ends_get ?_)
  have hs := path.sound.objects
  cases ho : p.objects with
  | nil => exact ⟨path.toSteps, trivial⟩
  | cons id rest =>
    rw [ho, Heap.holds_cons] at hs
    exact next id rest hs.1 (path.step (.objects hs.2) rfl)

theorem ends_topObject {Q : ObjectId → Process → Prop} (path : Path p₀ p)
    (next : ∀ id, p.heap.contains id = true → Q id p) : Ends p₀ Q (topObject p) := by
  refine Ends.bind (ends_get ?_)
  have hs := path.sound.objects
  cases ho : p.objects with
  | nil => exact ⟨path.toSteps, trivial⟩
  | cons id rest =>
    rw [ho, Heap.holds_cons] at hs
    exact next id hs.1

theorem object_eq {id : ObjectId} (live : p.heap.contains id = true) :
    ∃ o, p.heap.get? id = some o ∧ p.object id = .ok o := by
  obtain ⟨o, ho⟩ := Heap.contains_iff.mp live
  exact ⟨o, ho, by rw [Process.object, Heap.find_eq, ho]; rfl⟩

theorem ends_object {Q : Object → Process → Prop} (path : Path p₀ p) {id : ObjectId}
    (live : p.heap.contains id = true) (next : ∀ o, p.heap.get? id = some o → Q o p) :
    Ends p₀ Q (object id p) := by
  obtain ⟨o, get, he⟩ := object_eq live
  refine ends_look path (fun fault e => ?_) fun o' e => ?_
  · rw [he] at e; cases e
  · rw [he] at e; cases e
    exact next o get

theorem ends_mutableObject {Q : Object → Process → Prop} (path : Path p₀ p) {id : ObjectId}
    (live : p.heap.contains id = true)
    (next : ∀ o, p.heap.get? id = some o → o.hasFlag .immutable = false → Q o p) :
    Ends p₀ Q (mutableObject id p) := by
  refine Ends.bind (ends_object path live fun o get => ?_)
  split
  · exact ends_throw path trivial
  · next h => exact next o get (Bool.eq_false_iff.mpr h)

theorem ends_putObject {Q : Unit → Process → Prop} (path : Path p₀ p) {id : ObjectId}
    {o o' : Object} (get : p.heap.get? id = some o) (handle : o'.handle = o.handle)
    (guard : o.hasFlag .immutable = true → o'.attributes = o.attributes ∧ o'.closure = o.closure)
    (live : p.heap.Holds o'.attributes.values)
    (next : Path p₀ { p with heap := p.heap.put id o' } →
      Q () { p with heap := p.heap.put id o' }) :
    Ends p₀ Q (putObject id o' p) :=
  next (path.step (.object get handle guard live) rfl)

theorem ends_newObject {Q : ObjectId → Process → Prop} (path : Path p₀ p)
    (next : Path p₀ { p with heap := p.heap.allocate.2 } →
      (∀ j, p.heap.contains j = true → p.heap.allocate.2.contains j = true) →
      p.heap.allocate.2.get? p.heap.allocate.1 = some .blank →
      Q p.heap.allocate.1 { p with heap := p.heap.allocate.2 }) : Ends p₀ Q (newObject p) := by
  have books := path.sound.stores.heapBooks
  refine Ends.bind (ends_get ?_)
  split
  · exact Ends.bind (ends_get (ends_throw path trivial))
  · next h =>
    have room := Bool.eq_false_iff.mpr h
    exact next (path.step (.allocate room) rfl)
      (fun j => Heap.contains_allocate_of_contains books room)
      (by rw [Heap.get?_allocate books room, if_pos rfl])

theorem ends_checkDeletable {Q : Unit → Process → Prop} (path : Path p₀ p) {id : ObjectId}
    (live : p.heap.contains id = true) (next : Q () p) : Ends p₀ Q (checkDeletable id p) := by
  refine Ends.bind (ends_object path live fun o _ => ?_)
  split
  · exact ends_throw path trivial
  · exact next

/-! ## Handles -/

theorem ends_setValue {Q : Unit → Process → Prop} (path : Path p₀ p) {id : ObjectId} {o : Object}
    {v : Value} (get : p.heap.get? id = some o) (guard : o.hasFlag .immutable = false)
    (live : p.heap.Holds v.objectIds)
    (next : ∀ q, Path p₀ q → (∀ j, p.heap.contains j = true → q.heap.contains j = true) → Q () q) :
    Ends p₀ Q (setValue id v p) := by
  refine Ends.bind (ends_object path (Heap.contains_of_get? get) fun o' get' => ?_)
  rw [get] at get'; cases get'
  cases has : o.handle with
  | some key =>
    refine Ends.bind (ends_get ?_)
    rw [if_pos (path.sound.stores.held id o key get has)]
    exact next _ (path.step (.value get has guard live) rfl) fun _ h => h
  | none =>
    refine Ends.bind (ends_get ?_)
    split
    · exact Ends.bind (ends_get (ends_throw path trivial))
    · next h =>
      refine next _ (path.step (.attach get has guard (Bool.eq_false_iff.mpr h) live) rfl) ?_
      intro j hj
      exact (Heap.contains_put get _ j).trans hj

theorem ends_newObjectWith {Q : ObjectId → Process → Prop} (path : Path p₀ p) {v : Value}
    (live : p.heap.Holds v.objectIds)
    (next : ∀ id q, Path p₀ q → q.heap.contains id = true → Q id q) :
    Ends p₀ Q (newObjectWith v p) := by
  refine Ends.bind (ends_newObject path fun path kept get => ?_)
  refine Ends.bind (ends_setValue path get rfl (live.transfer kept) fun q path kept' => ?_)
  exact next _ q path (kept' _ (Heap.contains_of_get? get))

/-- The value of an object is that under its key in the pool. -/
theorem valueOf_of_pooled {id : ObjectId} {o : Object} {key : HandleKey} {v : Value}
    (get : p.heap.get? id = some o) (has : o.handle = some key) (hv : p.pool.get? key = some v) :
    p.valueOf id = .ok v := by
  have object : p.object id = .ok o := by rw [Process.object, Heap.find_eq, get]; rfl
  have pooled : p.pooled key = .ok v := by rw [Process.pooled, Pool.find, hv]; rfl
  rw [Process.valueOf, object, ok_bind, has]
  exact pooled

/-- A look at the value of an object that has a handle succeeds. -/
theorem valueOf_eq (s : p.Sound) {id : ObjectId} {o : Object} {key : HandleKey}
    (get : p.heap.get? id = some o) (has : o.handle = some key) :
    ∃ v, p.pool.get? key = some v ∧ p.valueOf id = .ok v := by
  obtain ⟨v, hv⟩ := Pool.contains_iff.mp (s.stores.held id o key get has)
  exact ⟨v, hv, valueOf_of_pooled get has hv⟩

theorem valueOf_eq_noHandle {id : ObjectId} {o : Object} (get : p.heap.get? id = some o)
    (free : o.handle = none) : p.valueOf id = .error (.noHandle id) := by
  have object : p.object id = .ok o := by rw [Process.object, Heap.find_eq, get]; rfl
  rw [Process.valueOf, object, ok_bind, free]

theorem ends_valueOf {Q : Value → Process → Prop} (path : Path p₀ p) {id : ObjectId}
    (live : p.heap.contains id = true) (next : ∀ v, p.heap.Holds v.objectIds → Q v p) :
    Ends p₀ Q (look (·.valueOf id) p) := by
  obtain ⟨o, get⟩ := Heap.contains_iff.mp live
  cases has : o.handle with
  | some key =>
    obtain ⟨v, hv, he⟩ := valueOf_eq path.sound get has
    refine ends_look path (fun fault e => ?_) fun v' e => ?_
    · rw [he] at e; cases e
    · rw [he] at e; cases e
      exact next v (path.sound.stores.pooled key v hv)
  | none =>
    have he := valueOf_eq_noHandle get has
    refine ends_look path (fun fault e => ?_) fun v' e => ?_
    · rw [he] at e; cases e
      exact ⟨o, get, has⟩
    · rw [he] at e; cases e

/-! ## Values -/

theorem ends_pushValue {Q : Unit → Process → Prop} (path : Path p₀ p) {v : Value}
    (live : p.heap.Holds v.objectIds)
    (next : ∀ calls, Path p₀ { p with calls } → Q () { p with calls }) :
    Ends p₀ Q (pushValue v p) := by
  refine Ends.bind (ends_topFrame path fun f top hf => ?_)
  refine ends_setTopFrame path top (continues_values f _)
    (Frame.holds_values hf fun w hw => ?_) next
  rcases List.mem_cons.mp hw with rfl | hw
  · exact live
  · exact (Frame.holds_iff.mp hf).2.2.2 w hw

theorem ends_popValue {Q : Value → Process → Prop} (path : Path p₀ p)
    (next : ∀ v calls, p.heap.Holds v.objectIds → Path p₀ { p with calls } →
      Q v { p with calls }) : Ends p₀ Q (popValue p) := by
  refine Ends.bind (ends_topFrame path fun f top hf => ?_)
  have hvs := (Frame.holds_iff.mp hf).2.2.2
  refine Ends.bind (ends_lift path (fun fault e => ?_) fun vf e => ?_)
  · unfold Frame.popValue at e
    split at e
    · cases e
    · cases e; exact fun _ => trivial
  · unfold Frame.popValue at e
    split at e
    · next v rest hv =>
      cases e
      rw [hv] at hvs
      refine Ends.bind (ends_setTopFrame path top (continues_values f rest)
        (Frame.holds_values hf fun w hw => hvs w (List.mem_cons_of_mem _ hw)) fun calls path => ?_)
      exact next v calls (hvs v List.mem_cons_self) path
    · cases e

theorem ends_topValue {Q : Value → Process → Prop} (path : Path p₀ p)
    (next : ∀ v, p.heap.Holds v.objectIds → Q v p) : Ends p₀ Q (topValue p) := by
  refine Ends.bind (ends_topFrame path fun f top hf => ?_)
  have hvs := (Frame.holds_iff.mp hf).2.2.2
  refine ends_lift path (fun fault e => ?_) fun v e => ?_
  · unfold Frame.topValue at e
    split at e
    · cases e
    · cases e; exact fun _ => trivial
  · unfold Frame.topValue at e
    split at e
    · next v rest hv =>
      cases e
      rw [hv] at hvs
      exact next v (hvs v List.mem_cons_self)
    · cases e

theorem ends_topTwoValues {Q : Value × Value → Process → Prop} (path : Path p₀ p) {f : Frame}
    (hf : p.heap.Holds f.objectIds)
    (next : ∀ a b, p.heap.Holds a.objectIds → p.heap.Holds b.objectIds → Q (a, b) p) :
    Ends p₀ Q (lift f.topTwoValues p) := by
  have hvs := (Frame.holds_iff.mp hf).2.2.2
  refine ends_lift path (fun fault e => ?_) fun ab e => ?_
  · unfold Frame.topTwoValues at e
    split at e
    · cases e
    · cases e; exact fun _ => trivial
  · unfold Frame.topTwoValues at e
    split at e
    · next b a rest hv =>
      cases e
      rw [hv] at hvs
      exact next a b (hvs a (List.mem_cons_of_mem _ List.mem_cons_self)) (hvs b List.mem_cons_self)
    · cases e

theorem ends_setTopValue {Q : Unit → Process → Prop} (path : Path p₀ p) {v : Value}
    (live : p.heap.Holds v.objectIds)
    (next : ∀ calls, Path p₀ { p with calls } → Q () { p with calls }) :
    Ends p₀ Q (setTopValue v p) :=
  ends_updateFrame path (moves_setTopValue live) next

theorem ends_popOperands (n : Nat) : ∀ {p : Process} {Q : Vector Value n → Process → Prop},
    Path p₀ p → (∀ ws calls, (∀ w ∈ ws.toList, p.heap.Holds w.objectIds) →
      Path p₀ { p with calls } → Q ws { p with calls }) → Ends p₀ Q (popOperands n p) := by
  induction n with
  | zero =>
    intro p Q path next
    exact next #v[] p.calls (fun w hw => absurd hw List.not_mem_nil) path
  | succ n ih =>
    intro p Q path next
    refine Ends.bind (ends_popValue path fun v calls hv path => ?_)
    refine Ends.bind (ih path fun ws calls hws path => ?_)
    refine next _ calls (fun w hw => ?_) path
    rw [Vector.toList_push, List.mem_append, List.mem_singleton] at hw
    rcases hw with hw | rfl
    · exact hws w hw
    · exact hv

/-! ## Invocations -/

theorem ends_ownInvocation {Q : Nat × Invocation → Process → Prop} (path : Path p₀ p)
    (next : ∀ f i, p.calls.top? = some f → p.invocations[f.invocation]? = some i →
      p.heap.Holds i.objectIds → Q (f.invocation, i) p) : Ends p₀ Q (ownInvocation p) := by
  refine Ends.bind (ends_topFrame path fun f top _ => ?_)
  refine Ends.bind (ends_get ?_)
  cases hi : p.invocations[f.invocation]? with
  | some i => exact next f i top hi (path.sound.invocations _ i hi)
  | none => exact ends_throw path trivial

theorem ends_stagedInvocation {Q : Nat × Invocation → Process → Prop} (path : Path p₀ p)
    (next : ∀ f n i, p.calls.top? = some f → p.invocations[n]? = some i →
      f.invocation < n ∧ n + 1 = p.invocations.size → p.heap.Holds i.objectIds → Q (n, i) p) :
    Ends p₀ Q (stagedInvocation p) := by
  refine Ends.bind (ends_topFrame path fun f top _ => ?_)
  refine Ends.bind (ends_get (Ends.bind (ends_get ?_)))
  cases hi : p.invocations[p.invocations.size - 1]? with
  | some i =>
    show Ends p₀ Q ((if f.invocation < p.invocations.size - 1 then pure (p.invocations.size - 1, i)
      else throw .invocationNotFound : Exec (Nat × Invocation)) p)
    split
    · next h =>
      exact next f _ i top hi ⟨h, by omega⟩ (path.sound.invocations _ i hi)
    · exact ends_throw path trivial
  | none => exact ends_throw path trivial

theorem ends_putInvocation {Q : Unit → Process → Prop} (path : Path p₀ p) {f : Frame} {n : Nat}
    {i i' : Invocation} (top : p.calls.top? = some f) (there : p.invocations[n]? = some i)
    (place : n = f.invocation ∨ f.invocation < n ∧ n + 1 = p.invocations.size)
    (callee : i'.callee = i.callee) (live : p.heap.Holds i'.objectIds)
    (next : ∀ invocations, Path p₀ { p with invocations } → Q () { p with invocations }) :
    Ends p₀ Q (putInvocation n i' p) :=
  next _ (path.step (.argue top there place callee live) rfl)

end Exec

end ObjectVM
