import ObjectVM.Proofs.Collection

/-!
# The arena

Whatever is asked of a heap, and in whatever order, the count, the free list and the slots agree
(`Heap.Arena`), a creation is refused only where there is no room, and makes objects that nothing
named before.

* `makes_allocateEach`: several creations in a row make as many different objects.
* `ages_serveAll`: a slot is one generation older for each time it was reclaimed.
* `arena_exact`: so an id that was given out still finds an object if its slot holds one and was
  reclaimed a multiple of 2^32 times since, and only then.

Generations have 32 bits and wrap, so an id held through 2^32 reclamations of its slot names what is
there by then.
-/
namespace ObjectVM.Heap

/-- What can be asked of a heap. -/
inductive Request where
  | create
  | createMany (n : Nat)
  | edit (id : ObjectId) (o : Object)
  | collect (roots : List ObjectId) (edges : HandleKey → List ObjectId)

/-- The ids that a request gives out, or why it is refused, and the heap afterwards. -/
def serve (h : Heap) : Request → Except HeapError (List ObjectId) × Heap
  | .create => match h.create with
    | .ok (id, h') => (.ok [id], h')
    | .error e => (.error e, h)
  | .createMany n => match h.createMany n with
    | .ok (ids, h') => (.ok ids, h')
    | .error e => (.error e, h)
  | .edit id o => match h.find id with
    | .ok _ => (.ok [], h.put id o)
    | .error e => (.error e, h)
  | .collect roots edges => (.ok [], (h.collect roots edges).2)

/-- The heap after requests that come one after another. -/
def serveAll (h : Heap) : List Request → Heap
  | [] => h
  | r :: rest => (h.serve r).2.serveAll rest

/-- How often a request reclaims the slot `i`. -/
def reclaims (h : Heap) (i : UInt32) : Request → Nat
  | .collect roots edges => ((h.collect roots edges).1.reclaimed.map (·.index)).count i
  | _ => 0

/-- How often requests that come one after another reclaim the slot `i`. -/
def reclamations (h : Heap) (i : UInt32) : List Request → Nat
  | [] => 0
  | r :: rest => h.reclaims i r + (h.serve r).2.reclamations i rest

/-- Whether there is a slot `i` and it holds an object. -/
def occupied (h : Heap) (i : UInt32) : Bool := h.slots[i.toNat]?.any (·.object.isSome)

/-- Whether there is a slot `i` and it holds none. -/
def vacant (h : Heap) (i : UInt32) : Bool := h.slots[i.toNat]?.any (·.object.isNone)

/-- `h'` is `h` with blank objects under `ids`, none of which named an object. -/
structure Makes (h : Heap) (ids : List ObjectId) (h' : Heap) : Prop where
  distinct : ids.Nodup
  fresh : ∀ id ∈ ids, h.get? id = none
  contents : ∀ id, h'.get? id = if id ∈ ids then some .blank else h.get? id

/-- The books of a heap agree, and creations are refused and made as they say. -/
structure Arena (h : Heap) : Prop where
  count : h.live = h.slots.countP (·.object.isSome)
  bound : h.live ≤ h.capacity
  indexed : ∀ i < h.slots.size, (UInt32.ofNat i).toNat = i
  free : ∀ i : UInt32, h.free.count i = if h.vacant i then 1 else 0
  full : h.live = h.capacity → h.create = .error (.exhausted h.capacity)
  room : h.live ≠ h.capacity → ∃ id h', h.create = .ok (id, h') ∧ h.Makes [id] h'
  tooMany : ∀ n, h.capacity - h.live < n → h.createMany n = .error (.exhausted h.capacity)
  roomForAll : ∀ n, n ≤ h.capacity - h.live →
    ∃ ids h', h.createMany n = .ok (ids, h') ∧ ids.length = n ∧ h.Makes ids h'

variable {h h' h'' : Heap} {id : ObjectId} {o : Object} {i : UInt32} {n m : Nat}

/-! ## Creations -/

namespace Makes

variable {ids ids' : List ObjectId}

theorem refl (h : Heap) : h.Makes [] h := by
  refine ⟨List.nodup_nil, fun id hid => ?_, fun id => ?_⟩
  · cases hid
  · rw [if_neg List.not_mem_nil]

/-- What is made later is under other ids, because those made before name objects by then. -/
theorem trans (a : h.Makes ids h') (b : h'.Makes ids' h'') : h.Makes (ids ++ ids') h'' := by
  have apart : ∀ id ∈ ids', id ∉ ids := by
    intro id hid' hid
    have none := b.fresh id hid'
    rw [a.contents, if_pos hid] at none
    cases none
  refine ⟨?_, ?_, ?_⟩
  · apply List.nodup_append.mpr
    refine ⟨a.distinct, b.distinct, ?_⟩
    intro j hj k hk same
    exact apart k hk (same ▸ hj)
  · intro id hid
    rcases List.mem_append.mp hid with first | later
    · exact a.fresh id first
    · have none := b.fresh id later
      rwa [a.contents, if_neg (apart id later)] at none
  · intro id
    rw [b.contents, a.contents]
    by_cases first : id ∈ ids <;> by_cases later : id ∈ ids' <;> simp [first, later]

end Makes

theorem makes_allocate (hw : h.WellFormed) (hr : h.isFull = false) :
    h.Makes [h.allocate.1] h.allocate.2 := by
  refine ⟨List.nodup_singleton _, ?_, ?_⟩
  · intro id hid
    rw [List.mem_singleton.mp hid]
    exact get?_allocate_fresh hw hr
  · intro id
    simp only [List.mem_singleton]
    exact get?_allocate hw hr id

/-- The ids made before only stand in front of the others. -/
theorem allocateEach_made (n : Nat) : ∀ (h : Heap) (made : List ObjectId),
    h.allocateEach made n =
      (made.reverse ++ (h.allocateEach [] n).1, (h.allocateEach [] n).2) := by
  induction n with
  | zero =>
    intro h made
    simp [allocateEach]
  | succ n ih =>
    intro h made
    simp only [allocateEach]
    rw [ih _ (h.allocate.1 :: made), ih _ [h.allocate.1]]
    simp

theorem allocateEach_succ (h : Heap) (n : Nat) :
    h.allocateEach [] (n + 1) =
      (h.allocate.1 :: (h.allocate.2.allocateEach [] n).1,
        (h.allocate.2.allocateEach [] n).2) := by
  simp only [allocateEach]
  rw [allocateEach_made]
  rfl

theorem makes_allocateEach (n : Nat) : ∀ {h : Heap}, h.WellFormed → n ≤ h.capacity - h.live →
    h.Makes (h.allocateEach [] n).1 (h.allocateEach [] n).2 ∧
      (h.allocateEach [] n).1.length = n := by
  induction n with
  | zero =>
    intro h _ _
    exact ⟨.refl h, rfl⟩
  | succ n ih =>
    intro h hw room
    have hr : h.isFull = false := by simp [isFull]; omega
    have left : n ≤ h.allocate.2.capacity - h.allocate.2.live := by
      rw [allocate_capacity, allocate_live]
      omega
    obtain ⟨others, length⟩ := ih (allocate_wellFormed hw hr) left
    rw [allocateEach_succ]
    refine ⟨(makes_allocate hw hr).trans others, ?_⟩
    rw [List.length_cons, length]

theorem arena_of_wellFormed (hw : h.WellFormed) : h.Arena := by
  have bound : h.live ≤ h.capacity := Nat.le_trans hw.live_le_size hw.size_le
  refine ⟨hw.live_eq, bound, fun i hi => hw.toNat_ofNat hi, ?_, ?_, ?_, ?_, ?_⟩
  · intro i
    have listed : i ∈ h.free ↔ h.vacant i = true := by
      rw [hw.mem_free, vacant, Option.any_eq_true]
      simp
    rw [hw.free_nodup.count]
    simp only [listed]
  · intro full
    rw [create, isFull, if_pos (decide_eq_true (Nat.le_of_eq full.symm))]
  · intro room
    have hr : h.isFull = false := by simp [isFull]; omega
    refine ⟨_, _, ?_, makes_allocate hw hr⟩
    rw [create, hr]
    rfl
  · intro n short
    rw [createMany, if_pos short]
  · intro n fits
    obtain ⟨makes, length⟩ := makes_allocateEach n hw fits
    refine ⟨_, _, ?_, length, makes⟩
    rw [createMany, if_neg (Nat.not_lt.mpr fits)]

/-! ## Histories -/

theorem built_serve (b : h.Built) (r : Request) : (h.serve r).2.Built := by
  cases r with
  | create =>
    rw [serve]
    cases made : h.create with
    | ok new => exact .create b made
    | error e => exact b
  | createMany n =>
    rw [serve]
    cases made : h.createMany n with
    | ok new => exact .createMany b made
    | error e => exact b
  | edit id o =>
    rw [serve, find_eq]
    cases there : h.get? id with
    | some old => exact .put b (contains_of_get? there) o
    | none => exact b
  | collect roots edges => exact .collect b roots edges

theorem built_serveAll (requests : List Request) : ∀ {h : Heap}, h.Built →
    (h.serveAll requests).Built := by
  induction requests with
  | nil =>
    intro h b
    exact b
  | cons r rest ih =>
    intro h b
    exact ih (built_serve b r)

theorem allocateEach_capacity (n : Nat) : ∀ (h : Heap) (made : List ObjectId),
    (h.allocateEach made n).2.capacity = h.capacity := by
  induction n with
  | zero =>
    intro h made
    rfl
  | succ n ih =>
    intro h made
    exact (ih _ _).trans (allocate_capacity h)

theorem serve_capacity (h : Heap) (r : Request) : (h.serve r).2.capacity = h.capacity := by
  cases r with
  | create =>
    rw [serve, create]
    cases h.isFull with
    | true => rfl
    | false => exact allocate_capacity h
  | createMany n =>
    rw [serve, createMany]
    by_cases short : h.capacity - h.live < n
    · rw [if_pos short]
    · rw [if_neg short]
      exact allocateEach_capacity n h []
  | edit id o =>
    rw [serve]
    cases h.find id <;> rfl
  | collect roots edges => rfl

theorem serveAll_capacity (requests : List Request) : ∀ h : Heap,
    (h.serveAll requests).capacity = h.capacity := by
  induction requests with
  | nil =>
    intro h
    rfl
  | cons r rest ih =>
    intro h
    exact (ih _).trans (serve_capacity h r)

/-! ## Generations -/

/-- The slot `i` of `h` is still there in `h'`, and `n` generations older. -/
def Ages (h : Heap) (i : UInt32) (n : Nat) (h' : Heap) : Prop :=
  ∀ s, h.slots[i.toNat]? = some s →
    ∃ s', h'.slots[i.toNat]? = some s' ∧ s'.generation = s.generation + UInt32.ofNat n

theorem Ages.refl (h : Heap) (i : UInt32) : h.Ages i 0 h := by
  intro s hs
  exact ⟨s, hs, (UInt32.add_zero _).symm⟩

theorem Ages.trans (a : h.Ages i n h') (b : h'.Ages i m h'') : h.Ages i (n + m) h'' := by
  intro s hs
  obtain ⟨s', hs', aged⟩ := a s hs
  obtain ⟨s'', hs'', aged'⟩ := b s' hs'
  refine ⟨s'', hs'', ?_⟩
  rw [aged', aged, UInt32.ofNat_add, UInt32.add_assoc]

theorem ages_allocate (hw : h.WellFormed) (i : UInt32) : h.Ages i 0 h.allocate.2 := by
  intro s hs
  rcases allocate_slots hw with ⟨free, g, -, empty, -, e⟩ | ⟨-, -, e⟩
  · rw [e]
    simp only [Tally.getElem?_setIfInBounds_eq empty]
    by_cases same : h.allocate.1.index.toNat = i.toNat
    · rw [same, hs] at empty
      cases empty
      exact ⟨_, if_pos same, (UInt32.add_zero _).symm⟩
    · exact ⟨s, by rw [if_neg same, hs], (UInt32.add_zero _).symm⟩
  · rw [e]
    have lt := (Array.getElem?_eq_some_iff.mp hs).1
    refine ⟨s, ?_, (UInt32.add_zero _).symm⟩
    rw [Array.getElem?_push, if_neg (Nat.ne_of_lt lt), hs]

theorem ages_allocateEach (i : UInt32) (n : Nat) : ∀ {h : Heap}, h.WellFormed →
    n ≤ h.capacity - h.live → h.Ages i 0 (h.allocateEach [] n).2 := by
  induction n with
  | zero =>
    intro h _ _
    exact .refl h i
  | succ n ih =>
    intro h hw room
    have hr : h.isFull = false := by simp [isFull]; omega
    have left : n ≤ h.allocate.2.capacity - h.allocate.2.live := by
      rw [allocate_capacity, allocate_live]
      omega
    rw [allocateEach_succ]
    exact (ages_allocate hw i).trans (ih (allocate_wellFormed hw hr) left)

theorem ages_put (there : h.get? id = some o) (o' : Object) (i : UInt32) :
    h.Ages i 0 (h.put id o') := by
  intro s hs
  have old := get?_eq_some_iff.mp there
  rw [put_slots there, Tally.getElem?_setIfInBounds_eq old]
  by_cases same : id.index.toNat = i.toNat
  · rw [same, hs] at old
    cases old
    exact ⟨_, if_pos same, (UInt32.add_zero _).symm⟩
  · exact ⟨s, by rw [if_neg same, hs], (UInt32.add_zero _).symm⟩

/-- A collection reclaims the slots whose objects are not reached, each once. -/
theorem ages_collect (hw : h.WellFormed) (roots : List ObjectId)
    (edges : HandleKey → List ObjectId) (i : UInt32) :
    h.Ages i (((h.collect roots edges).1.reclaimed.map (·.index)).count i)
      (h.collect roots edges).2 := by
  have he := exact_collect hw roots edges
  have spared : (∀ id, id.index = i → h.contains id = true → Reached h roots edges id) →
      ((h.collect roots edges).1.reclaimed.map (·.index)).count i = 0 := by
    intro reached
    apply List.count_eq_zero_of_not_mem
    intro hi
    obtain ⟨id, gone, at'⟩ := List.mem_map.mp hi
    obtain ⟨live, out⟩ := (he.reclaimed id).mp gone
    exact out (reached id at' live)
  intro s hs
  obtain ⟨g, x⟩ := s
  cases x with
  | none =>
    rw [spared]
    · exact ⟨_, he.idle i.toNat g hs, (UInt32.add_zero _).symm⟩
    · intro id at' live
      obtain ⟨o, ho⟩ := contains_iff.mp live
      have slot := get?_eq_some_iff.mp ho
      rw [at', hs] at slot
      cases slot
  | some o =>
    have there : h.get? ⟨i, g⟩ = some o := get?_eq_some_iff.mpr hs
    have live := contains_of_get? there
    by_cases reached : Reached h roots edges ⟨i, g⟩
    · rw [spared]
      · have kept := get?_eq_some_iff.mp ((he.kept ⟨i, g⟩ o).mpr ⟨there, reached⟩)
        exact ⟨_, kept, (UInt32.add_zero _).symm⟩
      · intro id at' live'
        rw [eq_of_index_eq live' live at']
        exact reached
    · have once : ((h.collect roots edges).1.reclaimed.map (·.index)).Nodup := by
        rw [List.Nodup, List.pairwise_map]
        exact he.ascending.imp fun lt => UInt32.ne_of_lt lt
      have gone : i ∈ (h.collect roots edges).1.reclaimed.map (·.index) :=
        List.mem_map.mpr ⟨⟨i, g⟩, (he.reclaimed _).mpr ⟨live, reached⟩, rfl⟩
      rw [once.count, if_pos gone]
      exact ⟨_, he.emptied ⟨i, g⟩ live reached, rfl⟩

theorem ages_serve (hw : h.WellFormed) (r : Request) (i : UInt32) :
    h.Ages i (h.reclaims i r) (h.serve r).2 := by
  cases r with
  | create =>
    rw [serve, create]
    cases h.isFull with
    | true => exact .refl h i
    | false => exact ages_allocate hw i
  | createMany n =>
    rw [serve, createMany]
    by_cases short : h.capacity - h.live < n
    · rw [if_pos short]
      exact .refl h i
    · rw [if_neg short]
      exact ages_allocateEach i n hw (Nat.le_of_not_lt short)
  | edit id o =>
    rw [serve, find_eq]
    cases there : h.get? id with
    | some old => exact ages_put there o i
    | none => exact .refl h i
  | collect roots edges => exact ages_collect hw roots edges i

/-- Each time a slot is reclaimed it gets one generation older, and never otherwise. -/
theorem ages_serveAll (i : UInt32) (requests : List Request) : ∀ {h : Heap}, h.Built →
    h.Ages i (h.reclamations i requests) (h.serveAll requests) := by
  induction requests with
  | nil =>
    intro h _
    exact .refl h i
  | cons r rest ih =>
    intro h b
    exact (ages_serve b.wellFormed r i).trans (ih (built_serve b r))

/-- The ids that a request gives out name objects. -/
theorem get?_of_given (hw : h.WellFormed) {r : Request} {ids : List ObjectId}
    (given : (h.serve r).1 = .ok ids) (hid : id ∈ ids) : (h.serve r).2.get? id = some .blank := by
  have a := arena_of_wellFormed hw
  cases r with
  | create =>
    rw [serve] at given ⊢
    by_cases full : h.live = h.capacity
    · rw [a.full full] at given
      cases given
    · obtain ⟨new, h', made, makes⟩ := a.room full
      rw [made] at given ⊢
      cases given
      rw [makes.contents, if_pos hid]
  | createMany n =>
    rw [serve] at given ⊢
    by_cases short : h.capacity - h.live < n
    · rw [a.tooMany n short] at given
      cases given
    · obtain ⟨ids', h', made, -, makes⟩ := a.roomForAll n (Nat.le_of_not_lt short)
      rw [made] at given ⊢
      cases given
      rw [makes.contents, if_pos hid]
  | edit id' o =>
    rw [serve] at given
    cases found : h.find id' with
    | ok old =>
      rw [found] at given
      cases given
      cases hid
    | error e =>
      rw [found] at given
      cases given
  | collect roots edges =>
    cases given
    cases hid

/-- Adding `n` leads back to the same generation after every round of them. -/
theorem add_ofNat_eq_iff (g : UInt32) (n : Nat) : g + UInt32.ofNat n = g ↔ UInt32.size ∣ n := by
  rw [← UInt32.toNat_inj, UInt32.toNat_add, UInt32.toNat_ofNat']
  have := g.toNat_lt
  simp only [UInt32.size, Nat.reducePow] at *
  omega

/-- An id that names an object names one again, or still, where its slot holds an object and has
been through a whole round of generations, or none. -/
theorem contains_serveAll (b : h.Built) (there : h.get? id = some o) (requests : List Request) :
    (h.serveAll requests).contains id = true ↔
      (h.serveAll requests).occupied id.index = true ∧
        UInt32.size ∣ h.reclamations id.index requests := by
  obtain ⟨s, hs, aged⟩ := ages_serveAll id.index requests b _ (get?_eq_some_iff.mp there)
  replace aged : s.generation = id.generation + _ := aged
  rw [contains, get?, hs, occupied, hs, Option.any_some, ← add_ofNat_eq_iff id.generation, ← aged]
  by_cases same : s.generation = id.generation
  · simp [same]
  · simp [same]

/-- Every heap that requests lead to has its books in order and creates accordingly; and an id that
one of the requests gave out finds an object after any others exactly where its slot holds one and
was reclaimed a multiple of 2^32 times since. -/
theorem arena_exact {capacity : Nat} {start : Heap} (made : new? capacity = .ok start)
    (past : List Request) :
    (start.serveAll past).capacity = capacity ∧ (start.serveAll past).Arena ∧
    ∀ (r : Request) (ids : List ObjectId) (h : Heap),
      (start.serveAll past).serve r = (.ok ids, h) → ∀ id ∈ ids, ∀ rest : List Request,
        ((h.serveAll rest).contains id = true ↔
          (h.serveAll rest).occupied id.index = true ∧
            UInt32.size ∣ h.reclamations id.index rest) ∧
        (0 < h.reclamations id.index rest → h.reclamations id.index rest < UInt32.size →
          (h.serveAll rest).find id = .error (.objectNotFound id)) := by
  have b := built_serveAll past (Built.new made)
  refine ⟨?_, arena_of_wellFormed b.wellFormed, ?_⟩
  · rw [serveAll_capacity]
    unfold new? checkCapacity at made
    split at made
    · cases made
    · split at made
      · cases made
      · cases made
        rfl
  · intro r ids h served id hid rest
    have grants : ((start.serveAll past).serve r).1 = .ok ids := by rw [served]
    have given := get?_of_given b.wellFormed grants hid
    have b' := built_serve b r
    rw [served] at given b'
    have resolves := contains_serveAll b' given rest
    refine ⟨resolves, ?_⟩
    intro reclaimed few
    have gone : (h.serveAll rest).get? id = none := by
      cases found : (h.serveAll rest).get? id with
      | none => rfl
      | some o =>
        have rounds := (resolves.mp (contains_of_get? found)).2
        exact absurd (Nat.le_of_dvd reclaimed rounds) (Nat.not_le.mpr few)
    rw [find_eq, gone]
    rfl

/-- A heap that its only object fills. -/
def lone : Heap := ⟨1, #[⟨0, some .blank⟩], [], 1⟩

theorem arena_exact_reused :
    (empty 1).serve .create = (.ok [⟨0, 0⟩], lone) ∧
    lone.reclamations 0 [.collect [] fun _ => [], .create] = 1 ∧
    (lone.serveAll [.collect [] fun _ => [], .create]).find ⟨0, 0⟩ =
      .error (.objectNotFound ⟨0, 0⟩) := by
  have reclaimed : (lone.collect [] fun _ => []).1.reclaimed = [⟨0, 0⟩] := by
    rw [collect, show lone.rootIds [] = [] from rfl, mark]
    rfl
  have once : lone.reclamations 0 [.collect [] fun _ => [], .create] = 1 := by
    rw [reclamations, reclaims, reclaimed]
    rfl
  obtain ⟨-, -, ids⟩ := arena_exact (show new? 1 = .ok (empty 1) from rfl) []
  obtain ⟨-, stale⟩ := ids .create [⟨0, 0⟩] lone rfl ⟨0, 0⟩ List.mem_cons_self
    [.collect [] fun _ => [], .create]
  refine ⟨rfl, once, stale ?_ ?_⟩
  · rw [once]
    decide
  · rw [once]
    decide

end ObjectVM.Heap
