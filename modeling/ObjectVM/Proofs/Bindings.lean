import Mathlib.Data.Finmap
import ObjectVM.Proofs.PoolLaws

/-!
# The pool as a map

Whatever is asked of a pool, and in whatever order, it answers as a finite map from keys to values
that holds no more bindings than the pool has room for (`Pool.answers_as_map`). The map says
everything about an answer except which unbound key a creation takes.

* `Pool.Represents`: a pool and the map that it stands for.
* `Pool.serve_answers`: one request is answered as the map answers it, and the two stay together.
* `Pool.keysGiven_creates`: how many creations in a row find room.

A capacity may take up all keys there are, which is one more than the options of a process allow.
-/
namespace ObjectVM.Pool

/-- What can be asked of a pool. A creation that names no value stores the default one; an edit sees
the value under a key and leaves another. -/
inductive Request where
  | create (v : Value)
  | read (key : HandleKey)
  | edit (key : HandleKey) (change : Value → Value)
  | erase (key : HandleKey)

/-- What a pool answers: the new key, the value found, or why it refuses. -/
inductive Answer where
  | key (key : HandleKey)
  | value (v : Value)
  | refused (e : PoolError)
  deriving DecidableEq

/-- The answer to one request, and the pool afterwards. -/
def serve (p : Pool) : Request → Answer × Pool
  | .create v => match p.create v with
    | .ok (key, q) => (.key key, q)
    | .error e => (.refused e, p)
  | .read key => match p.find key with
    | .ok v => (.value v, p)
    | .error e => (.refused e, p)
  | .edit key change => match p.find key with
    | .ok v => match p.put key (change v) with
      | .ok q => (.value v, q)
      | .error e => (.refused e, p)
    | .error e => (.refused e, p)
  | .erase key => match p.erase key with
    | .ok (v, q) => (.value v, q)
    | .error e => (.refused e, p)

/-- The answers to requests that come one after another, and the pool after the last of them. -/
def serveAll (p : Pool) : List Request → List Answer × Pool
  | [] => ([], p)
  | r :: rest =>
    let (answer, q) := p.serve r
    let (answers, last) := q.serveAll rest
    (answer :: answers, last)

/-- A finite map from keys to values. -/
abbrev Bindings := Finmap fun _ : HandleKey => Value

/-- `m.Answers capacity r a m'` when a map of at most `capacity` keys may answer `r` by `a` and is
`m'` afterwards. -/
def Bindings.Answers (m : Bindings) (capacity : Nat) : Request → Answer → Bindings → Prop
  | .create v, a, m' =>
    if m.keys.card = capacity then a = .refused (.full capacity) ∧ m' = m
    else ∃ key, key ∉ m ∧ a = .key key ∧ m' = m.insert key v
  | .read key, a, m' => a = (m.lookup key).elim (.refused (.notLive key)) .value ∧ m' = m
  | .edit key change, a, m' =>
    a = (m.lookup key).elim (.refused (.notLive key)) .value ∧
      m' = (m.lookup key).elim m fun v => m.insert key (change v)
  | .erase key, a, m' =>
    a = (m.lookup key).elim (.refused (.notLive key)) .value ∧ m' = m.erase key

/-- The same of requests that come one after another. -/
inductive Bindings.AnswersAll (capacity : Nat) :
    Bindings → List Request → List Answer → Bindings → Prop where
  | nil (m : Bindings) : AnswersAll capacity m [] [] m
  | cons {m m' m'' : Bindings} {r : Request} {a : Answer} {rest : List Request}
    {answers : List Answer} (first : m.Answers capacity r a m')
    (others : AnswersAll capacity m' rest answers m'') :
    AnswersAll capacity m (r :: rest) (a :: answers) m''

/-- The pool keeps its books and has the bindings of the map. -/
structure Represents (p : Pool) (m : Bindings) : Prop where
  books : p.WellFormed
  bound : ∀ key, p.get? key = m.lookup key

variable {p : Pool} {m : Bindings} {key : HandleKey} {v : Value}

/-! ## Reading the map off the pool -/

theorem represents_empty {capacity : Nat} (fits : capacity ≤ UInt32.size) :
    (empty capacity).Represents ∅ := by
  refine ⟨empty_wellFormed fits, ?_⟩
  intro key
  rw [get?_empty, Finmap.lookup_empty]

/-- The count of the pool is the number of keys that are bound. -/
theorem Represents.live_eq (r : p.Represents m) : p.live = m.keys.card := by
  have same : m.keys = p.keys.toFinset := by
    ext key
    rw [Finmap.mem_keys, ← Finmap.lookup_isSome, ← r.bound, List.mem_toFinset, mem_keys r.books,
      contains]
  rw [same, List.toFinset_card_of_nodup (nodup_keys r.books), length_keys r.books]

theorem Represents.le_capacity (r : p.Represents m) : p.live ≤ p.capacity :=
  Nat.le_trans r.books.live_le_size r.books.size_le

theorem Represents.full_iff (r : p.Represents m) :
    p.isFull = true ↔ m.keys.card = p.capacity := by
  have := r.le_capacity
  rw [← r.live_eq, isFull, decide_eq_true_iff]
  omega

/-! ## One request -/

theorem serve_full (full : p.isFull = true) (v : Value) :
    p.serve (.create v) = (.refused (.full p.capacity), p) := by
  rw [serve, create, if_pos full]

theorem serve_create (room : p.isFull = false) (v : Value) :
    p.serve (.create v) = (.key (p.allocate v).1, (p.allocate v).2) := by
  rw [serve, create, if_neg (by rw [room]; nofun)]

theorem serve_read (p : Pool) (key : HandleKey) :
    p.serve (.read key) = ((p.get? key).elim (.refused (.notLive key)) .value, p) := by
  rw [serve, find]
  cases p.get? key <;> rfl

theorem serve_edit (p : Pool) (key : HandleKey) (change : Value → Value) :
    p.serve (.edit key change) = ((p.get? key).elim (.refused (.notLive key)) .value,
      (p.get? key).elim p fun v => p.replace key (change v)) := by
  rw [serve, find]
  unfold put contains
  cases p.get? key <;> rfl

theorem serve_erase (p : Pool) (key : HandleKey) :
    p.serve (.erase key) = ((p.get? key).elim (.refused (.notLive key)) .value,
      (p.get? key).elim p fun _ => p.without key) := by
  rw [serve, erase, without]
  cases p.get? key <;> rfl

theorem allocate_counts (hw : p.WellFormed) (v : Value) :
    (p.allocate v).2.capacity = p.capacity ∧ (p.allocate v).2.live = p.live + 1 := by
  rcases allocate_slots hw v with ⟨_, -, -, e⟩ | ⟨-, -, e⟩ <;>
    exact ⟨by rw [e], by rw [e]⟩

theorem represents_allocate (r : p.Represents m) (room : p.isFull = false) (v : Value) :
    (p.allocate v).2.Represents (m.insert (p.allocate v).1 v) := by
  refine ⟨allocate_wellFormed r.books room v, ?_⟩
  intro j
  rw [get?_allocate r.books room]
  split
  · next new => rw [new, Finmap.lookup_insert]
  · next old => rw [Finmap.lookup_insert_of_ne _ old, r.bound]

theorem represents_replace (r : p.Represents m) (there : p.get? key = some v) (w : Value) :
    (p.replace key w).Represents (m.insert key w) := by
  refine ⟨replace_wellFormed r.books there w, ?_⟩
  intro j
  rw [get?_replace there]
  split
  · next this => rw [this, Finmap.lookup_insert]
  · next other => rw [Finmap.lookup_insert_of_ne _ other, r.bound]

theorem represents_without (r : p.Represents m) (there : p.get? key = some v) :
    (p.without key).Represents (m.erase key) := by
  refine ⟨without_wellFormed r.books there, ?_⟩
  intro j
  rw [get?_without there]
  split
  · next this => rw [this, Finmap.lookup_erase]
  · next other => rw [Finmap.lookup_erase_ne other, r.bound]

theorem erase_eq_self (unbound : m.lookup key = none) : m.erase key = m := by
  apply Finmap.ext_lookup
  intro j
  by_cases this : j = key
  · rw [this, Finmap.lookup_erase, unbound]
  · rw [Finmap.lookup_erase_ne this]

/-- A request is answered as the map answers it, and the pool goes on as the map does. -/
theorem serve_answers (r : p.Represents m) (request : Request) :
    ∃ m', m.Answers p.capacity request (p.serve request).1 m' ∧
      (p.serve request).2.Represents m' ∧ (p.serve request).2.capacity = p.capacity := by
  cases request with
  | create v =>
    cases room : p.isFull with
    | true =>
      rw [serve_full room]
      refine ⟨m, ?_, r, rfl⟩
      rw [Bindings.Answers, if_pos (r.full_iff.mp room)]
      exact ⟨rfl, rfl⟩
    | false =>
      rw [serve_create room]
      refine ⟨_, ?_, represents_allocate r room v, (allocate_counts r.books v).1⟩
      have unbound : m.lookup (p.allocate v).1 = none := by
        rw [← r.bound]
        exact get?_allocate_fresh r.books room v
      rw [Bindings.Answers, if_neg (mt r.full_iff.mpr (by rw [room]; nofun))]
      exact ⟨_, Finmap.lookup_eq_none.mp unbound, rfl, rfl⟩
  | read key =>
    rw [serve_read, r.bound]
    exact ⟨m, And.intro rfl rfl, r, rfl⟩
  | edit key change =>
    rw [serve_edit]
    refine ⟨(m.lookup key).elim m fun v => m.insert key (change v), ?_⟩
    rw [← r.bound]
    refine ⟨And.intro (by rw [r.bound]) (by rw [r.bound]), ?_⟩
    cases there : p.get? key with
    | none => exact ⟨r, rfl⟩
    | some v => exact ⟨represents_replace r there (change v), rfl⟩
  | erase key =>
    rw [serve_erase]
    refine ⟨m.erase key, And.intro (by rw [r.bound]) rfl, ?_⟩
    cases there : p.get? key with
    | none =>
      rw [erase_eq_self (r.bound key ▸ there)]
      exact ⟨r, rfl⟩
    | some v => exact ⟨represents_without r there, rfl⟩

/-! ## Requests one after another -/

theorem serveAll_answers (requests : List Request) : ∀ {p : Pool} {m : Bindings}, p.Represents m →
    ∃ m', Bindings.AnswersAll p.capacity m requests (p.serveAll requests).1 m' ∧
      (p.serveAll requests).2.Represents m' ∧ (p.serveAll requests).2.capacity = p.capacity := by
  induction requests with
  | nil =>
    intro p m r
    exact ⟨m, .nil m, r, rfl⟩
  | cons request rest ih =>
    intro p m r
    obtain ⟨m', first, r', same⟩ := serve_answers r request
    obtain ⟨m'', others, r'', same'⟩ := ih r'
    rw [same] at others
    exact ⟨m'', .cons first others, r'', same'.trans same⟩

/-- The keys among some answers, in order. -/
def keysGiven (answers : List Answer) : List HandleKey :=
  answers.filterMap fun a => match a with
    | .key key => some key
    | _ => none

/-- Creations in a row succeed until the pool is full, and then no more. -/
theorem keysGiven_creates (values : List Value) : ∀ {p : Pool} {m : Bindings}, p.Represents m →
    (keysGiven (p.serveAll (values.map .create)).1).length =
      min values.length (p.capacity - p.live) := by
  induction values with
  | nil =>
    intro p m r
    exact (Nat.zero_min _).symm
  | cons v rest ih =>
    intro p m r
    have notOver := r.le_capacity
    cases room : p.isFull with
    | true =>
      have full : p.capacity ≤ p.live := decide_eq_true_iff.mp room
      have none := ih r
      simp only [List.map_cons, serveAll, serve_full room, keysGiven, List.filterMap_cons,
        List.length_cons] at none ⊢
      omega
    | false =>
      have lt := live_lt room
      have ⟨capacity, live⟩ := allocate_counts r.books v
      have others := ih (represents_allocate r room v)
      simp only [List.map_cons, serveAll, serve_create room, keysGiven, List.filterMap_cons,
        List.length_cons] at others ⊢
      omega

/-- A pool answers whatever it is asked as a finite map does. Afterwards it has the bindings of the
map, counts its keys, and has room for as many creations as that count leaves. -/
theorem answers_as_map {capacity : Nat} (fits : capacity ≤ UInt32.size)
    (requests : List Request) (answers : List Answer) (p : Pool)
    (served : (empty capacity).serveAll requests = (answers, p)) :
    ∃ m : Bindings, Bindings.AnswersAll capacity ∅ requests answers m ∧
      (∀ key, p.get? key = m.lookup key) ∧ p.live = m.keys.card ∧ p.live ≤ capacity ∧
      ∀ values : List Value, (keysGiven (p.serveAll (values.map .create)).1).length =
        min values.length (capacity - p.live) := by
  obtain ⟨m, all, r, same⟩ := serveAll_answers requests (represents_empty fits)
  rw [served] at all r same
  replace same : p.capacity = capacity := same
  refine ⟨m, all, r.bound, r.live_eq, same ▸ r.le_capacity, ?_⟩
  intro values
  rw [← same]
  exact keysGiven_creates values r

/-- Two creations where there is room for one, an edit, a removal, and a read that is too late. -/
def oneAtATime : List Request :=
  [.create (.ofInt .int64 5), .create (.ofInt .int64 6), .edit ⟨0⟩ fun _ => .ofInt .int8 7,
    .erase ⟨0⟩, .read ⟨0⟩]

theorem answers_as_map_oneAtATime :
    ∃ m : Bindings, Bindings.AnswersAll 1 ∅ oneAtATime
        [.key ⟨0⟩, .refused (.full 1), .value (.ofInt .int64 5), .value (.ofInt .int8 7),
          .refused (.notLive ⟨0⟩)] m ∧ m.keys.card = 0 := by
  have counted : 1 ≤ UInt32.size := by decide
  obtain ⟨m, all, -, count, -, -⟩ := answers_as_map counted oneAtATime
    [.key ⟨0⟩, .refused (.full 1), .value (.ofInt .int64 5), .value (.ofInt .int8 7),
      .refused (.notLive ⟨0⟩)] ⟨1, #[none], [0], 0⟩ (by decide)
  exact ⟨m, all, count.symm⟩

end ObjectVM.Pool
