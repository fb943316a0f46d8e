import ObjectVM.Proofs.Isolation
import ObjectVM.Proofs.Nesting

/-!
# Looking outward

Variables are looked up along the links between frames, by loops that go on until a frame has none.
Nothing counts their steps (`CallStack.Searches`). Because every link leads down the stack, they
visit no more frames than there are, and none that is missing.

* `CallStack.Descends.ancestor_cases`: where some links lead.
* `CallStack.Searches.nearest`: what a search finds.
* `Process.Nested.held`: a frame that stays keeps its link, and the frame that this leads to remains
  the call that it is.
* `lexical_links_hold`: so it is in every process that requests lead to, whatever the closures name
  as parents.
-/
namespace ObjectVM

namespace CallStack

/-- How the loop goes that looks for a variable from the frame at an index on: what it finds, and
the number of frames that it looks into. Nothing bounds that number. -/
inductive Searches (s : CallStack) (key : UInt64) : Nat → Option ObjectId → Nat → Prop where
  | missing {index : Nat} (gone : s.get? index = none) : Searches s key index none 0
  | found {index : Nat} {f : Frame} {id : ObjectId} (there : s.get? index = some f)
    (bound : f.visible.get? key = some id) : Searches s key index (some id) 1
  | ended {index : Nat} {f : Frame} (there : s.get? index = some f)
    (unbound : f.visible.get? key = none) (root : f.parent = none) : Searches s key index none 1
  | outward {index parent steps : Nat} {f : Frame} {result : Option ObjectId}
    (there : s.get? index = some f) (unbound : f.visible.get? key = none)
    (link : f.parent = some parent) (rest : Searches s key parent result steps) :
    Searches s key index result (steps + 1)

/-- The frame some links outward from the one at `index` binds a variable. -/
def BindsOutward (s : CallStack) (key : UInt64) (index links : Nat) (id : ObjectId) : Prop :=
  ∃ k f, s.ancestor index links = .ok k ∧ s.get? k = some f ∧ f.visible.get? key = some id

/-- Every link leads down the stack. -/
def Descends (s : CallStack) : Prop :=
  ∀ n f k, s.get? n = some f → f.parent = some k → k < n

variable {s : CallStack} {key : UInt64} {index k n : Nat} {f : Frame} {id : ObjectId}
  {result : Option ObjectId}

/-! ## Frames outward -/

theorem ancestor_missing (gone : s.get? index = none) (n : Nat) :
    s.ancestor index n = .error .frameNotFound := by
  unfold ancestor
  rw [gone]
  rfl

theorem ancestor_zero (there : s.get? index = some f) : s.ancestor index 0 = .ok index := by
  unfold ancestor
  rw [there]
  rfl

theorem ancestor_root (there : s.get? index = some f) (root : f.parent = none) (n : Nat) :
    s.ancestor index (n + 1) = .error .frameNotFound := by
  unfold ancestor follow
  rw [there]
  simp [root]

namespace Descends

variable (d : s.Descends)

include d

/-- A link leads to a frame that is there. -/
theorem exists_parent (there : s.get? index = some f) (link : f.parent = some k) :
    ∃ g, s.get? k = some g :=
  exists_frame (Nat.lt_trans (d _ _ _ there link) (lt_depth there))

theorem ancestor_succ (there : s.get? index = some f) (link : f.parent = some k) (n : Nat) :
    s.ancestor index (n + 1) = s.ancestor k n := by
  obtain ⟨g, hg⟩ := d.exists_parent there link
  unfold ancestor
  rw [follow, there, hg]
  simp [link]

/-- Some links outward there is a frame, that many frames further down at least, or there are fewer
links: then a frame before has none. -/
theorem ancestor_cases (n : Nat) : ∀ index,
    (∃ k f, s.ancestor index n = .ok k ∧ s.get? k = some f ∧ k + n ≤ index) ∨
      s.ancestor index n = .error .frameNotFound ∧ (s.get? index = none ∨
        ∃ m k f, m < n ∧ s.ancestor index m = .ok k ∧ s.get? k = some f ∧ f.parent = none) := by
  induction n with
  | zero =>
    intro index
    cases there : s.get? index with
    | none => exact .inr ⟨ancestor_missing there 0, .inl rfl⟩
    | some f => exact .inl ⟨index, f, ancestor_zero there, there, Nat.le_refl _⟩
  | succ n ih =>
    intro index
    cases there : s.get? index with
    | none => exact .inr ⟨ancestor_missing there _, .inl rfl⟩
    | some f =>
      cases link : f.parent with
      | none =>
        exact .inr ⟨ancestor_root there link n,
          .inr ⟨0, index, f, Nat.succ_pos n, ancestor_zero there, there, link⟩⟩
      | some parent =>
        have down := d _ _ _ there link
        rw [d.ancestor_succ there link]
        rcases ih parent with ⟨k, g, leads, hg, low⟩ | ⟨ends, none | ⟨m, k, g, lt, leads, hg, root⟩⟩
        · exact .inl ⟨k, g, leads, hg, by omega⟩
        · obtain ⟨g, hg⟩ := d.exists_parent there link
          rw [hg] at none
          cases none
        · refine .inr ⟨ends, .inr ⟨m + 1, k, g, Nat.succ_lt_succ lt, ?_, hg, root⟩⟩
          rw [d.ancestor_succ there link]
          exact leads

/-- There are fewer links than frames. -/
theorem ancestor_beyond (deep : s.depth ≤ n) (index : Nat) :
    s.ancestor index n = .error .frameNotFound := by
  rcases d.ancestor_cases n index with ⟨k, f, leads, -, low⟩ | ⟨ends, -⟩
  · cases there : s.get? index with
    | none => exact ancestor_missing there n
    | some g =>
      have := lt_depth there
      omega
  · exact ends

/-! ## Searches -/

/-- Every search ends. -/
theorem exists_searches (key : UInt64) :
    ∀ index, ∃ result steps, s.Searches key index result steps := by
  intro index
  -- on the index, because links lead down
  induction index using Nat.strong_induction_on with
  | _ index ih =>
    cases there : s.get? index with
    | none => exact ⟨none, 0, .missing there⟩
    | some f =>
      cases bound : f.visible.get? key with
      | some id => exact ⟨some id, 1, .found there bound⟩
      | none =>
        cases link : f.parent with
        | none => exact ⟨none, 1, .ended there bound link⟩
        | some parent =>
          obtain ⟨result, steps, rest⟩ := ih parent (d _ _ _ there link)
          exact ⟨result, steps + 1, .outward there bound link rest⟩

/-- A search looks into no more frames than lie below, the first included. -/
theorem searches_le {steps : Nat} (h : s.Searches key index result steps) :
    steps ≤ index + 1 ∧ steps ≤ s.depth := by
  induction h with
  | missing gone => omega
  | found there _ | ended there _ _ =>
    have := lt_depth there
    omega
  | outward there _ link _ ih =>
    have := lt_depth there
    have := d _ _ _ there link
    omega

end Descends

namespace Searches

/-- With room for all of its steps, the search that counts its steps goes as the loop does. -/
theorem visibleAlong_eq {steps : Nat} (h : s.Searches key index result steps) :
    ∀ links, steps ≤ links → s.visibleAlong key index links = result := by
  induction h with
  | missing gone =>
    rintro (_ | links) -
    · rfl
    · simp only [visibleAlong, gone]
  | found there bound =>
    rintro (_ | links) le
    · omega
    · simp only [visibleAlong, there, bound]
  | ended there unbound root =>
    rintro (_ | links) le
    · omega
    · simp only [visibleAlong, there, unbound, root]
  | outward there unbound link _ ih =>
    rintro (_ | links) le
    · omega
    · simp only [visibleAlong, there, unbound, link]
      exact ih links (by omega)

end Searches

/-- There is room for every search. -/
theorem Searches.visibleFrom_eq {steps : Nat} (d : s.Descends)
    (h : s.Searches key index result steps) : s.visibleFrom index key = result :=
  h.visibleAlong_eq s.depth (d.searches_le h).2

/-! ## What is found -/

theorem bindsOutward_zero (there : s.get? index = some f) :
    s.BindsOutward key index 0 id ↔ f.visible.get? key = some id := by
  unfold BindsOutward
  rw [ancestor_zero there]
  constructor
  · rintro ⟨k, g, same, hg, bound⟩
    cases same
    rw [there] at hg
    cases hg
    exact bound
  · exact fun bound => ⟨index, f, rfl, there, bound⟩

theorem BindsOutward.unique {links : Nat} {id' : ObjectId}
    (b : s.BindsOutward key index links id) (b' : s.BindsOutward key index links id') :
    id' = id := by
  obtain ⟨k, f, leads, there, bound⟩ := b
  obtain ⟨k', f', leads', there', bound'⟩ := b'
  rw [leads] at leads'
  cases leads'
  rw [there] at there'
  cases there'
  rw [bound] at bound'
  cases bound'
  rfl

/-- A search finds the nearest frame that binds the variable, if there is one. -/
theorem Searches.nearest {steps : Nat} (d : s.Descends)
    (h : s.Searches key index result steps) :
    (∀ id, result = some id → ∃ links, s.BindsOutward key index links id ∧
      ∀ m, m < links → ∀ id', ¬ s.BindsOutward key index m id') ∧
    (result = none → ∀ m id', ¬ s.BindsOutward key index m id') := by
  induction h with
  | missing gone =>
    refine ⟨nofun, fun _ m id' => ?_⟩
    rintro ⟨k, f, leads, -⟩
    rw [ancestor_missing gone] at leads
    cases leads
  | found there bound =>
    refine ⟨fun id same => ?_, nofun⟩
    cases same
    exact ⟨0, (bindsOutward_zero there).mpr bound, fun m lt => absurd lt (Nat.not_lt_zero m)⟩
  | ended there unbound root =>
    refine ⟨nofun, fun _ m id' => ?_⟩
    cases m with
    | zero => rw [bindsOutward_zero there, unbound]; nofun
    | succ m =>
      rintro ⟨k, f, leads, -⟩
      rw [ancestor_root there root] at leads
      cases leads
  | @outward index parent _ f result there unbound link _ ih =>
    have here : ∀ id', ¬ s.BindsOutward key index 0 id' := fun id' => by
      rw [bindsOutward_zero there, unbound]; nofun
    have further : ∀ m id', s.BindsOutward key index (m + 1) id' ↔
        s.BindsOutward key parent m id' := fun m id' => by
      unfold BindsOutward
      rw [d.ancestor_succ there link]
    refine ⟨fun id same => ?_, fun same m id' => ?_⟩
    · obtain ⟨links, binds, nearest⟩ := ih.1 id same
      refine ⟨links + 1, (further links id).mpr binds, fun m lt id' => ?_⟩
      cases m with
      | zero => exact here id'
      | succ m => exact mt (further m id').mp (nearest m (Nat.lt_of_succ_lt_succ lt) id')
    · cases m with
      | zero => exact here id'
      | succ m => exact mt (further m id').mp (ih.2 same m id')

/-- What a lookup finds is what the nearest frame outward binds the variable to. -/
theorem Descends.visibleFrom_eq_some_iff (d : s.Descends) :
    s.visibleFrom index key = some id ↔ ∃ links, s.BindsOutward key index links id ∧
      ∀ m, m < links → ∀ id', ¬ s.BindsOutward key index m id' := by
  obtain ⟨result, steps, search⟩ := d.exists_searches key index
  obtain ⟨found, unbound⟩ := search.nearest d
  rw [search.visibleFrom_eq d]
  refine ⟨found id, ?_⟩
  rintro ⟨links, binds, nearest⟩
  cases same : result with
  | none => exact absurd binds (unbound same links id)
  | some id' =>
    obtain ⟨links', binds', nearest'⟩ := found id' same
    rcases Nat.lt_trichotomy links links' with lt | rfl | gt
    · exact absurd binds (nearest' links lt id)
    · rw [binds.unique binds']
    · exact absurd binds' (nearest links' gt id')

theorem Descends.visibleFrom_eq_none_iff (d : s.Descends) :
    s.visibleFrom index key = none ↔ ∀ links id, ¬ s.BindsOutward key index links id := by
  obtain ⟨result, steps, search⟩ := d.exists_searches key index
  obtain ⟨found, unbound⟩ := search.nearest d
  rw [search.visibleFrom_eq d]
  refine ⟨unbound, fun nowhere => ?_⟩
  cases same : result with
  | none => rfl
  | some id =>
    obtain ⟨links, binds, -⟩ := found id same
    exact absurd binds (nowhere links id)

end CallStack

/-! ## Frames that stay -/

namespace Process

variable {p q : Process} {label : Option (Process × Instruction)} {log : Log} {f g : Frame}
  {k n : Nat}

/-- Whatever happens, a frame that is there before and after is the same call, unless the process
has been started anew. -/
theorem Happens.sameCall (h : p.Happens label q) (several : 1 < q.calls.depth)
    (there : p.calls.frames[k]? = some g) (stays : k < q.calls.depth) :
    ∃ g', q.calls.frames[k]? = some g' ∧ g.SameCall g' := by
  cases h with
  | step s => exact s.sameCall there stays
  | asked i => exact (Exec.shift_execute p i).sameCall there stays
  | request r silent =>
    cases r with
    | run | execute => exact silent.elim
    | load => exact ⟨g, there, .refl g⟩
    | start =>
      replace several : 1 < p.start.2.calls.frames.size := several
      rcases p.start_cases with same | ⟨-, -, none | ⟨m, entry, -, -, -, one⟩⟩
      · refine ⟨g, ?_, .refl g⟩
        show p.start.2.calls.frames[k]? = some g
        rw [same]
        exact there
      · rw [none] at several
        cases several
      · rw [one] at several
        exact absurd several (Nat.lt_irrefl 1)
    | deliver | handle | raise | collect | setRule | setVector | redirect =>
      exact Drops.sameCall (quiet_after trivial) there stays
    | reset | abandon => exact absurd stays (Nat.not_lt_zero k)

/-- While a frame above the first one stays, it and the frames below it remain the calls that they
are. -/
theorem Course.sameCall (c : p.Course (n < ·.calls.depth) log q) (above : 0 < n) (le : k ≤ n)
    (there : p.calls.frames[k]? = some g) : ∃ g', q.calls.frames[k]? = some g' ∧ g.SameCall g' := by
  induction c with
  | refl => exact ⟨g, there, .refl g⟩
  | next _ h stays ih =>
    obtain ⟨g₁, h₁, same₁⟩ := ih
    obtain ⟨g₂, h₂, same₂⟩ := h.sameCall (Nat.lt_of_le_of_lt above stays) h₁
      (Nat.lt_of_le_of_lt le stays)
    exact ⟨g₂, h₂, same₁.trans same₂⟩

/-- A frame that stays keeps its link, and the frame that this leads to remains the call that it
is. -/
theorem Nested.held (o : p.Nested) (c : p.Course (n < ·.calls.depth) log q)
    (hf : p.calls.frames[n]? = some f) (link : f.parent = some k)
    (hg : p.calls.frames[k]? = some g) :
    ∃ f' g', q.calls.frames[n]? = some f' ∧ f.SameCall f' ∧ f'.parent = some k ∧
      q.calls.frames[k]? = some g' ∧ g.SameCall g' := by
  obtain ⟨down, -⟩ := o n f k hf link
  have above := Nat.zero_lt_of_lt down
  obtain ⟨f', hf', same⟩ := c.sameCall above (Nat.le_refl n) hf
  obtain ⟨g', hg', same'⟩ := c.sameCall above (Nat.le_of_lt down) hg
  exact ⟨f', g', hf', same, same.parent.trans link, hg', same'⟩

theorem Nested.descends (o : p.Nested) : p.calls.Descends :=
  fun n f k there link => (o n f k there link).1

/-- Lexical links are well founded, and so is looking along them. -/
structure WellLinked (p : Process) : Prop where
  /-- A link leads down the stack, to a frame of a closure outward. -/
  nested : p.Nested
  /-- Whatever happens while a frame stays, its link leads to the same call. -/
  held : ∀ n k f g log q, p.calls.frames[n]? = some f → f.parent = some k →
    p.calls.frames[k]? = some g → p.Course (n < ·.calls.depth) log q →
      ∃ f' g', q.calls.frames[n]? = some f' ∧ f.SameCall f' ∧ f'.parent = some k ∧
        q.calls.frames[k]? = some g' ∧ g.SameCall g'
  /-- Every search for a variable ends. -/
  ends : ∀ key index, ∃ result steps, p.calls.Searches key index result steps
  /-- It looks into no more frames than there are, and what it finds is what a lookup returns. -/
  within : ∀ key index result steps, p.calls.Searches key index result steps →
    steps ≤ p.calls.depth ∧ p.calls.visibleFrom index key = result
  /-- A lookup returns what the nearest frame outward binds the variable to. -/
  found : ∀ key index id, p.calls.visibleFrom index key = some id ↔
    ∃ links, p.calls.BindsOutward key index links id ∧
      ∀ m, m < links → ∀ id', ¬ p.calls.BindsOutward key index m id'
  /-- It returns nothing where no frame outward binds the variable. -/
  unbound : ∀ key index, p.calls.visibleFrom index key = none ↔
    ∀ links id, ¬ p.calls.BindsOutward key index links id
  /-- Some links outward there is a frame, or a frame before has no link, or there has been none at
  the start. -/
  ancestors : ∀ index n,
    (∃ k f, p.calls.ancestor index n = .ok k ∧ p.calls.get? k = some f ∧ k + n ≤ index) ∨
      p.calls.ancestor index n = .error .frameNotFound ∧ (p.calls.get? index = none ∨
        ∃ m k f, m < n ∧ p.calls.ancestor index m = .ok k ∧ p.calls.get? k = some f ∧
          f.parent = none)
  /-- No chain of links is as long as the stack. -/
  beyond : ∀ index n, p.calls.depth ≤ n → p.calls.ancestor index n = .error .frameNotFound

end Process

/-- Lexical links are well founded wherever an instruction may be executed. -/
theorem lexical_links_hold {may : Compartment → Prop} {p q : Process} {i : Instruction}
    (r : p.Reachable may) (x : p.Executing q i) : q.WellLinked := by
  have nested := x.nested r.sound r.nested
  have d := nested.descends
  exact ⟨nested, fun n k f g log q hf link hg c => nested.held c hf link hg,
    d.exists_searches, fun key index result steps search =>
      ⟨(d.searches_le search).2, search.visibleFrom_eq d⟩,
    fun key index id => d.visibleFrom_eq_some_iff, fun key index => d.visibleFrom_eq_none_iff,
    fun index n => d.ancestor_cases n index, fun index n deep => d.ancestor_beyond deep index⟩

/-- A program with two closures that are each other's parents, one of which calls itself, and a main
closure whose parent is missing. -/
def circling : Compartment :=
  (Compartment.new "circling").withClosures
    #[.new Compartment.mainName 0 (some 9)
        #[.ofOp (.object .new), ⟨.object .setClosure, 1, 0⟩, .ofOp (.control .stage),
          .ofOp (.control .invoke)],
      .new "inner" 1 (some 2)
        #[.ofOp (.object .new), ⟨.object .setClosure, 1, 0⟩, ⟨.variable .store, 7, 0⟩,
          ⟨.variable .load, 7, 0⟩, .ofOp (.control .stage), .ofOp (.control .invoke)],
      .new "outer" 2 (some 1) #[]]

theorem lexical_links_hold_circling :
    (Process.ranFor circling 10).calls.frames.map (·.parent) = #[none, none, some 1] ∧
    (Process.ranFor circling 10).calls.visibleFrom 2 7 = some ⟨1, 0⟩ ∧
    (Process.ranFor circling 10).calls.ancestor 2 1 = .ok 1 ∧
    (Process.ranFor circling 10).Reachable (fun _ => True) ∧
    (Process.ranFor circling 10).WellLinked := by
  have reached : (Process.ranFor circling 10).Reachable (fun _ => True) :=
    Process.reachable_ranFor trivial 10
  exact ⟨by decide +kernel, by decide +kernel, by decide +kernel, reached,
    lexical_links_hold reached (.asked (.ofOp (.object .new)))⟩

end ObjectVM
