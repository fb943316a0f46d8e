/-!
# Maps from 64-bit keys

A finite map whose keys are 64-bit words, kept as entries in ascending key order without repeats.

* `get?_insert`, `get?_erase`: what the two edits do to every binding.
* `get?_eq_some_iff`: the bindings are the entries.
-/
namespace ObjectVM

/-- Bindings in ascending key order. -/
structure KeyMap (α : Type) where
  entries : List (UInt64 × α)
  ascending : entries.Pairwise fun a b => a.1 < b.1

namespace KeyMap

variable {α : Type}

instance [DecidableEq α] : DecidableEq (KeyMap α) := fun m n =>
  if h : m.entries = n.entries then
    isTrue (by cases m; cases n; cases h; rfl)
  else isFalse fun e => h (by rw [e])

instance [Repr α] : Repr (KeyMap α) := ⟨fun m n => reprPrec m.entries n⟩

/-- The map without bindings. -/
def empty : KeyMap α := ⟨[], .nil⟩

instance : EmptyCollection (KeyMap α) := ⟨empty⟩

instance : Inhabited (KeyMap α) := ⟨empty⟩

/-- The binding of `k` in a list of entries. -/
def lookup (k : UInt64) : List (UInt64 × α) → Option α
  | [] => none
  | (j, a) :: rest => if j = k then some a else lookup k rest

/-- Entries with `k` bound to `a`, put in its place in the order. -/
def insertEntry (k : UInt64) (a : α) : List (UInt64 × α) → List (UInt64 × α)
  | [] => [(k, a)]
  | (j, b) :: rest =>
    if k < j then (k, a) :: (j, b) :: rest
    else if k = j then (k, a) :: rest
    else (j, b) :: insertEntry k a rest

theorem mem_insertEntry {k : UInt64} {a : α} {l : List (UInt64 × α)} {e : UInt64 × α}
    (h : e ∈ insertEntry k a l) : e = (k, a) ∨ e ∈ l := by
  induction l with
  | nil => simpa [insertEntry] using h
  | cons x rest ih =>
    obtain ⟨j, b⟩ := x
    simp only [insertEntry] at h
    split at h
    · simpa using h
    · split at h
      · simp only [List.mem_cons] at h ⊢
        exact h.imp_right .inr
      · simp only [List.mem_cons] at h ⊢
        rcases h with h | h
        · exact .inr (.inl h)
        · exact (ih h).imp_right .inr

theorem insertEntry_ascending (k : UInt64) (a : α) {l : List (UInt64 × α)}
    (h : l.Pairwise fun a b => a.1 < b.1) : (insertEntry k a l).Pairwise fun a b => a.1 < b.1 := by
  induction l with
  | nil => simp [insertEntry]
  | cons x rest ih =>
    obtain ⟨j, b⟩ := x
    obtain ⟨hx, hr⟩ := List.pairwise_cons.mp h
    simp only [insertEntry]
    split
    · rename_i hk
      refine List.pairwise_cons.mpr ⟨fun e he => ?_, h⟩
      rcases List.mem_cons.mp he with rfl | he
      · exact hk
      · exact UInt64.lt_trans hk (hx e he)
    · split
      · rename_i hk
        subst hk
        exact List.pairwise_cons.mpr ⟨hx, hr⟩
      · rename_i h1 h2
        refine List.pairwise_cons.mpr ⟨fun e he => ?_, ih hr⟩
        rcases mem_insertEntry he with rfl | he
        · exact UInt64.lt_of_le_of_ne (UInt64.not_lt.mp h1) (Ne.symm h2)
        · exact hx e he

/-- What `k` is bound to. -/
def get? (m : KeyMap α) (k : UInt64) : Option α := lookup k m.entries

/-- Whether `k` is bound. -/
def contains (m : KeyMap α) (k : UInt64) : Bool := (m.get? k).isSome

/-- Binds `k` to `a` in place of what it was bound to. -/
def insert (m : KeyMap α) (k : UInt64) (a : α) : KeyMap α :=
  ⟨insertEntry k a m.entries, insertEntry_ascending k a m.ascending⟩

/-- Unbinds `k`. -/
def erase (m : KeyMap α) (k : UInt64) : KeyMap α :=
  ⟨m.entries.filter fun e => e.1 ≠ k, m.ascending.filter _⟩

/-- Number of bindings. -/
def size (m : KeyMap α) : Nat := m.entries.length

/-- Whether nothing is bound. -/
def isEmpty (m : KeyMap α) : Bool := m.entries.isEmpty

/-- The bound keys in ascending order. -/
def keys (m : KeyMap α) : List UInt64 := m.entries.map (·.1)

/-- What the keys are bound to, in ascending key order. -/
def values (m : KeyMap α) : List α := m.entries.map (·.2)

/-- Makes the bindings of a list one after another. -/
def insertAll (m : KeyMap α) (l : List (UInt64 × α)) : KeyMap α :=
  l.foldl (fun m e => m.insert e.1 e.2) m

/-- The map in which the last binding of each key in `l` stands. -/
def ofList (l : List (UInt64 × α)) : KeyMap α := (∅ : KeyMap α).insertAll l

/-- The binding of the greatest key up to `k`. -/
def floor? (m : KeyMap α) (k : UInt64) : Option α :=
  (m.entries.reverse.find? fun e => e.1 ≤ k).map (·.2)

@[simp] theorem get?_empty (k : UInt64) : (∅ : KeyMap α).get? k = none := rfl

theorem lookup_insertEntry (k j : UInt64) (a : α) (l : List (UInt64 × α)) :
    lookup j (insertEntry k a l) = if j = k then some a else lookup j l := by
  induction l with
  | nil => simp [insertEntry, lookup, eq_comm]
  | cons x rest ih =>
    obtain ⟨i, b⟩ := x
    simp only [insertEntry]
    split
    · simp [lookup, eq_comm]
    · split
      · rename_i hk
        subst hk
        by_cases hj : j = k
        · simp [lookup, hj]
        · simp [lookup, hj, Ne.symm hj]
      · rename_i hk
        by_cases hj : i = j
        · subst hj
          simp [lookup, Ne.symm hk]
        · simp [lookup, hj, ih]

theorem get?_insert (m : KeyMap α) (k j : UInt64) (a : α) :
    (m.insert k a).get? j = if j = k then some a else m.get? j :=
  lookup_insertEntry k j a m.entries

theorem get?_erase (m : KeyMap α) (k j : UInt64) :
    (m.erase k).get? j = if j = k then none else m.get? j := by
  obtain ⟨l, h⟩ := m
  simp only [get?, erase]
  clear h
  induction l with
  | nil => simp [lookup]
  | cons x rest ih =>
    by_cases hx : x.1 = k
    · rw [List.filter_cons_of_neg (by simpa using hx), ih]
      by_cases hj : j = k
      · simp [hj]
      · simp [hj, lookup, hx, Ne.symm hj]
    · rw [List.filter_cons_of_pos (by simpa using hx)]
      simp only [lookup]
      by_cases hj : x.1 = j
      · have : j ≠ k := fun e => hx (hj.trans e)
        simp [hj, this]
      · simpa [hj] using ih

theorem lookup_eq_some_iff {k : UInt64} {a : α} {l : List (UInt64 × α)}
    (h : l.Pairwise fun a b => a.1 < b.1) : lookup k l = some a ↔ (k, a) ∈ l := by
  induction l with
  | nil => simp [lookup]
  | cons x rest ih =>
    obtain ⟨j, b⟩ := x
    obtain ⟨hx, hr⟩ := List.pairwise_cons.mp h
    by_cases hj : j = k
    · subst hj
      have hn : (j, a) ∉ rest := fun hm => UInt64.lt_irrefl j (hx _ hm)
      simp [lookup, hn, eq_comm]
    · simp [lookup, hj, ih hr, Ne.symm hj]

theorem get?_eq_some_iff {m : KeyMap α} {k : UInt64} {a : α} :
    m.get? k = some a ↔ (k, a) ∈ m.entries :=
  lookup_eq_some_iff m.ascending

end KeyMap

end ObjectVM
