import ObjectVM.Proofs.Sound

/-!
# What a step can do

`Edit` lists every way in which an instruction, or the turn around it, changes a process, with what
is checked before. An instruction is a sequence of edits, whether it succeeds or fails on the way,
so what every edit keeps is kept by every run. `Edit.sound` is the first such thing.
-/
namespace ObjectVM

/-- A frame before and after an instruction that leaves it running: it is the same activation, in
the same code. -/
structure Frame.Continues (f f' : Frame) : Prop where
  closure : f'.closure = f.closure
  code : f'.code = f.code
  returnAddress : f'.returnAddress = f.returnAddress
  invocation : f'.invocation = f.invocation
  parent : f'.parent = f.parent
  suspended : f'.suspended = f.suspended
  pc : f.pc ≤ f.code.size → f'.pc ≤ f.code.size

/-- The stack after the frame `f` on top has returned: its caller goes on behind the call. -/
def CallStack.afterReturn (s : CallStack) (f : Frame) : CallStack :=
  match f.returnAddress with
  | some address => s.dropTop.modifyTop fun caller => { caller with pc := address + 1 }
  | none => s.dropTop

/-- One change of a process. -/
inductive Edit (p : Process) : Process → Prop where
  | report (output : Sink) (diagnostics : String) (signals : SignalQueue) (journal : Journal) :
    Edit p { p with output, diagnostics, signals, journal }
  | outcome (halt : Option Outcome) (uncaught : Option Traceback) :
    Edit p { p with halt, uncaught }
  | objects {ids : List ObjectId} (live : p.heap.Holds ids) : Edit p { p with objects := ids }
  | frame {f f' : Frame} (top : p.calls.top? = some f) (continues : f.Continues f')
    (live : p.heap.Holds f'.objectIds) : Edit p { p with calls := p.calls.modifyTop fun _ => f' }
  | interrupt {f : Frame} {s : Signal} {vector : Code} (top : p.calls.top? = some f)
    (set : p.vectors s = some vector) :
    Edit p { p with calls := p.calls.modifyTop fun _ => f.interrupt vector }
  | resume {f f' : Frame} (top : p.calls.top? = some f) (ended : f.canExecute = false)
    (resumed : f.resume? = some f') : Edit p { p with calls := p.calls.modifyTop fun _ => f' }
  | outer {links index : Nat} {f : Frame} (key : UInt64) {id : ObjectId}
    (outward : p.calls.ancestor (p.calls.depth - 1) links = .ok index)
    (there : p.calls.get? index = some f) (live : p.heap.contains id = true) :
    Edit p { p with calls := p.calls.modify index (·.setVisible key id) }
  | object {id : ObjectId} {o o' : Object} (get : p.heap.get? id = some o)
    (handle : o'.handle = o.handle)
    (guard : o.hasFlag .immutable = true → o'.attributes = o.attributes ∧ o'.closure = o.closure)
    (live : p.heap.Holds o'.attributes.values) : Edit p { p with heap := p.heap.put id o' }
  | allocate (room : p.heap.isFull = false) : Edit p { p with heap := p.heap.allocate.2 }
  | value {id : ObjectId} {o : Object} {key : HandleKey} {v : Value} (get : p.heap.get? id = some o)
    (has : o.handle = some key) (guard : o.hasFlag .immutable = false)
    (live : p.heap.Holds v.objectIds) : Edit p { p with pool := p.pool.replace key v }
  | attach {id : ObjectId} {o : Object} {v : Value} (get : p.heap.get? id = some o)
    (free : o.handle = none) (guard : o.hasFlag .immutable = false) (room : p.pool.isFull = false)
    (live : p.heap.Holds v.objectIds) :
    Edit p
      { p with
        heap := p.heap.put id { o with handle := some (p.pool.allocate v).1 }
        pool := (p.pool.allocate v).2 }
  | detach {id : ObjectId} {o : Object} {key : HandleKey} (get : p.heap.get? id = some o)
    (has : o.handle = some key) (guard : o.hasFlag .immutable = false) :
    Edit p
      { p with heap := p.heap.put id { o with handle := none }, pool := p.pool.without key }
  | stage {ref : ClosureRef} {c : Closure} (resolves : p.resolve ref = .ok c) :
    Edit p { p with invocations := p.invocations.push (.new ref) }
  | argue {f : Frame} {n : Nat} {i i' : Invocation} (top : p.calls.top? = some f)
    (there : p.invocations[n]? = some i)
    (place : n = f.invocation ∨ f.invocation < n ∧ n + 1 = p.invocations.size)
    (callee : i'.callee = i.callee) (live : p.heap.Holds i'.objectIds) :
    Edit p { p with invocations := p.invocations.setIfInBounds n i' }
  | call {f : Frame} {n : Nat} {i : Invocation} {c : Closure} {parent : Option Nat}
    (top : p.calls.top? = some f) (there : p.invocations[n]? = some i)
    (place : f.invocation < n ∧ n + 1 = p.invocations.size)
    (outward : p.lexicalParent i.callee = .ok parent) (resolves : p.resolve i.callee = .ok c)
    (room : p.calls.isFull = false) :
    Edit p
      { p with
        calls := p.calls.add (.new i.callee c.code n (some f.currentIndex) parent) }
  | leave {f : Frame} (top : p.calls.top? = some f) :
    Edit p
      { p with calls := p.calls.dropTop, invocations := p.invocations.shrink f.invocation }
  | back {f : Frame} (top : p.calls.top? = some f) :
    Edit p
      { p with
        calls := p.calls.afterReturn f
        invocations := p.invocations.shrink f.invocation }
  | collect : Edit p p.collect.2

/-- Changes one after another. -/
abbrev Edits : Process → Process → Prop := Relation.ReflTransGen Edit

/-! ## Soundness is kept -/

variable {p q : Process}

/-- Changing frames and invocations does not matter to the ids held in the stores. -/
theorem Process.Sound.withFrames (s : p.Sound) {frames : Array Frame}
    {invocations : Array Invocation}
    (hf : ∀ (n : Nat) (f : Frame), frames[n]? = some f → p.heap.Holds f.objectIds)
    (hi : ∀ (n : Nat) (i : Invocation), invocations[n]? = some i → p.heap.Holds i.objectIds) :
    { p with calls := { p.calls with frames }, invocations }.Sound :=
  ⟨s.fits, s.stores, s.objects, hf, hi⟩

/-- What is found after a change at one place is the changed one there, or was there before. -/
theorem getElem?_modify_cases {α : Type} {xs : Array α} {i n : Nat} {g : α → α} {b : α}
    (h : (xs.modify i g)[n]? = some b) :
    (i = n ∧ ∃ a, xs[n]? = some a ∧ b = g a) ∨ xs[n]? = some b := by
  rw [Array.getElem?_modify] at h
  split at h
  · next here =>
    obtain ⟨a, there, same⟩ := Option.map_eq_some_iff.mp h
    exact .inl ⟨here, a, there, same.symm⟩
  · exact .inr h

theorem holds_modify {h : Heap} {frames : Array Frame} {g : Frame → Frame} {index : Nat}
    (hf : ∀ (n : Nat) (f : Frame), frames[n]? = some f → h.Holds f.objectIds)
    (hg : ∀ f, frames[index]? = some f → h.Holds (g f).objectIds) (n : Nat) (f : Frame)
    (hn : (frames.modify index g)[n]? = some f) : h.Holds f.objectIds := by
  rcases getElem?_modify_cases hn with ⟨rfl, f', hf', rfl⟩ | hn
  · exact hg f' hf'
  · exact hf n f hn

theorem getElem?_of_pop {α : Type} {xs : Array α} {n : Nat} {a : α} (h : xs.pop[n]? = some a) :
    xs[n]? = some a := by
  rw [Array.getElem?_pop] at h
  split at h
  · exact h
  · cases h

theorem eq_of_singleton {α : Type} {a b : α} {n : Nat} (h : #[b][n]? = some a) :
    n = 0 ∧ a = b := by
  rw [List.getElem?_toArray, List.getElem?_singleton] at h
  split at h
  · next first => exact ⟨first, (Option.some.inj h).symm⟩
  · cases h

theorem getElem?_shrink {α : Type} (xs : Array α) (m n : Nat) :
    (xs.shrink m)[n]? = if n < m then xs[n]? else none := by
  rw [← Array.getElem?_toList, Array.toList_shrink, List.getElem?_take, Array.getElem?_toList]

theorem getElem?_of_shrink {α : Type} {xs : Array α} {m n : Nat} {a : α}
    (h : (xs.shrink m)[n]? = some a) : xs[n]? = some a := by
  rw [getElem?_shrink] at h
  split at h
  · exact h
  · cases h

/-- Setting the counter of a frame does not change what it holds. -/
theorem holds_afterReturn {s : CallStack} {h : Heap} {f : Frame}
    (hf : ∀ (n : Nat) (g : Frame), s.frames[n]? = some g → h.Holds g.objectIds) (n : Nat)
    (g : Frame)
    (hg : (s.afterReturn f).frames[n]? = some g) : h.Holds g.objectIds := by
  have hd : ∀ (n : Nat) (g : Frame), s.dropTop.frames[n]? = some g → h.Holds g.objectIds :=
    fun n g hg => hf n g (getElem?_of_pop hg)
  unfold CallStack.afterReturn at hg
  split at hg
  · refine holds_modify hd ?_ n g hg
    intro caller hc
    exact hd _ caller hc
  · exact hd n g hg

theorem Process.Sound.put (s : p.Sound) {id : ObjectId} {o o' : Object}
    (get : p.heap.get? id = some o) {pool : Pool} (stores : Stores (p.heap.put id o') pool) :
    { p with heap := p.heap.put id o', pool }.Sound := by
  have live : ∀ j, p.heap.contains j = true → (p.heap.put id o').contains j = true :=
    fun j hj => by rwa [Heap.contains_put get]
  exact ⟨s.fits, stores, s.objects.transfer live, fun n f hf => (s.frames n f hf).transfer live,
    fun n i hi => (s.invocations n i hi).transfer live⟩

theorem Edit.sound (e : Edit p q) (s : p.Sound) : q.Sound := by
  cases e with
  | report => exact ⟨s.fits, s.stores, s.objects, s.frames, s.invocations⟩
  | outcome => exact ⟨s.fits, s.stores, s.objects, s.frames, s.invocations⟩
  | objects live => exact ⟨s.fits, s.stores, live, s.frames, s.invocations⟩
  | frame _ _ live => exact s.withFrames (holds_modify s.frames fun _ _ => live) s.invocations
  | @interrupt f _ _ top _ =>
    refine s.withFrames (holds_modify s.frames fun _ _ => ?_) s.invocations
    exact (s.topFrame top : p.heap.Holds f.objectIds)
  | @resume f f' top _ resumed =>
    have : f'.objectIds = f.objectIds := by
      unfold Frame.resume? at resumed
      split at resumed
      · cases resumed; rfl
      · cases resumed
    exact s.withFrames (holds_modify s.frames fun _ _ => this ▸ s.topFrame top) s.invocations
  | outer key _ _ live =>
    exact s.withFrames (holds_modify s.frames fun f hf =>
      Frame.holds_setVisible (s.frames _ f hf) live key) s.invocations
  | object get handle _ live =>
    exact s.put get (s.stores.put get handle fun key next hn =>
      live next (KeyMap.mem_values_of_get? hn))
  | allocate room =>
    have live := fun j => Heap.contains_allocate_of_contains (j := j) s.stores.heapBooks room
    exact ⟨s.fits, s.stores.allocate room, s.objects.transfer live,
      fun n f hf => (s.frames n f hf).transfer live,
      fun n i hi => (s.invocations n i hi).transfer live⟩
  | value get has _ live =>
    obtain ⟨w, hw⟩ := Pool.contains_iff.mp (s.stores.held _ _ _ get has)
    exact ⟨s.fits, s.stores.replace hw live, s.objects, s.frames, s.invocations⟩
  | attach get free _ room live => exact s.put get (s.stores.attach get free room live)
  | detach get has _ => exact s.put get (s.stores.detach get has)
  | stage _ =>
    refine s.withFrames s.frames fun n i hi => ?_
    rw [Array.getElem?_push] at hi
    split at hi
    · cases hi; exact Heap.holds_nil _
    · exact s.invocations n i hi
  | argue _ _ _ _ live =>
    refine s.withFrames s.frames fun n i hi => ?_
    rw [Array.getElem?_setIfInBounds] at hi
    split at hi
    · split at hi
      · cases hi; exact live
      · cases hi
    · exact s.invocations n i hi
  | call _ _ _ _ _ _ =>
    refine s.withFrames (fun n f hf => ?_) s.invocations
    rw [Array.getElem?_push] at hf
    split at hf
    · cases hf; exact Frame.holds_new _ _ _ _ _ _
    · exact s.frames n f hf
  | leave _ =>
    exact s.withFrames (fun n f hf => s.frames n f (getElem?_of_pop hf))
      fun n i hi => s.invocations n i (getElem?_of_shrink hi)
  | back _ =>
    exact ⟨s.fits, s.stores, s.objects, holds_afterReturn s.frames,
      fun n i hi => s.invocations n i (getElem?_of_shrink hi)⟩
  | collect => exact s.collect

end ObjectVM
