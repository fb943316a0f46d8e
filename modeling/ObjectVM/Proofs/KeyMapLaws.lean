import ObjectVM.KeyMap

/-!
# What is in a map

The values of a map after an edit are among those before it and the new ones. Of many bindings made
one after another, the last of each key stands. A key that is not bound may be answered for by the
greatest one below it (`floor?_eq_some_iff`).
-/
namespace ObjectVM.KeyMap

variable {α : Type} {m : KeyMap α} {a : α}

theorem mem_values : a ∈ m.values ↔ ∃ k, m.get? k = some a := by
  simp only [values, List.mem_map, get?_eq_some_iff, Prod.exists, exists_eq_right]

theorem mem_values_of_get? {k : UInt64} (h : m.get? k = some a) : a ∈ m.values :=
  mem_values.mpr ⟨k, h⟩

theorem mem_values_insert {k : UInt64} {b : α} (h : a ∈ (m.insert k b).values) :
    a = b ∨ a ∈ m.values := by
  obtain ⟨j, hj⟩ := mem_values.mp h
  rw [get?_insert] at hj
  split at hj
  · exact .inl (by cases hj; rfl)
  · exact .inr (mem_values_of_get? hj)

theorem mem_values_erase {k : UInt64} (h : a ∈ (m.erase k).values) : a ∈ m.values := by
  obtain ⟨j, hj⟩ := mem_values.mp h
  rw [get?_erase] at hj
  split at hj
  · cases hj
  · exact mem_values_of_get? hj

theorem mem_values_insertAll (l : List (UInt64 × α)) : ∀ {m : KeyMap α},
    a ∈ (m.insertAll l).values → a ∈ l.map (·.2) ∨ a ∈ m.values := by
  induction l with
  | nil => intro m h; exact .inr h
  | cons e l ih =>
    intro m h
    rw [List.map_cons, List.mem_cons]
    rcases ih h with h | h
    · exact .inl (.inr h)
    · rcases mem_values_insert h with h | h
      · exact .inl (.inl h)
      · exact .inr h

/-- The last binding of a key in a list stands, and where there is none, what the key was bound
to. -/
theorem get?_insertAll_eq (l : List (UInt64 × α)) (key : UInt64) :
    ∀ m : KeyMap α, (m.insertAll l).get? key = (l.reverse.lookup key).or (m.get? key) := by
  induction l with
  | nil => exact fun m => rfl
  | cons e l ih =>
    intro m
    obtain ⟨other, value⟩ := e
    show ((m.insert other value).insertAll l).get? key = _
    rw [ih, get?_insert, List.reverse_cons, List.lookup_append, Option.or_assoc]
    by_cases same : key = other
    · simp [same]
    · simp [List.lookup_cons, same, beq_eq_false_iff_ne.mpr same]

theorem get?_insertAll_of_notMem {k : UInt64} (l : List (UInt64 × α)) : ∀ {m : KeyMap α},
    k ∉ l.map (·.1) → (m.insertAll l).get? k = m.get? k := by
  induction l with
  | nil => intro m _; rfl
  | cons e l ih =>
    intro m hk
    rw [List.map_cons, List.mem_cons, not_or] at hk
    refine (ih hk.2).trans ?_
    rw [get?_insert, if_neg hk.1]

theorem contains_insert (m : KeyMap α) (k j : UInt64) (a : α) :
    (m.insert k a).contains j = true ↔ j = k ∨ m.contains j = true := by
  rw [contains, contains, get?_insert]
  by_cases h : j = k
  · simp [h]
  · simp [h]

/-! ## The greatest key up to another -/

theorem contains_iff {k : UInt64} : m.contains k = true ↔ ∃ a, (k, a) ∈ m.entries := by
  rw [contains, Option.isSome_iff_exists]
  exact exists_congr fun a => get?_eq_some_iff

/-- Nothing is found where all keys are above. -/
theorem floor?_eq_none_iff {k : UInt64} :
    m.floor? k = none ↔ ∀ j, m.contains j = true → k < j := by
  unfold floor?
  rw [Option.map_eq_none_iff, List.find?_eq_none]
  refine ⟨fun none j bound => ?_, fun above e mem => ?_⟩
  · obtain ⟨a, mem⟩ := contains_iff.mp bound
    simpa using none _ (List.mem_reverse.mpr mem)
  · simpa using above e.1 (contains_iff.mpr ⟨e.2, List.mem_reverse.mp mem⟩)

/-- What is found is the binding of a key, and no other key up to `k` is greater. -/
theorem exists_of_floor? {k : UInt64} (found : m.floor? k = some a) : ∃ j, m.get? j = some a ∧
    j ≤ k ∧ ∀ i, m.contains i = true → i ≤ k → i ≤ j := by
  obtain ⟨e, first, rfl⟩ := Option.map_eq_some_iff.mp found
  obtain ⟨low, before, after, whole, high⟩ := List.find?_eq_some_iff_append.mp first
  refine ⟨e.1, get?_eq_some_iff.mpr (List.mem_reverse.mp (whole ▸ by simp)), by simpa using low,
    fun i bound within => ?_⟩
  obtain ⟨b, mem⟩ := contains_iff.mp bound
  rw [← List.mem_reverse, whole] at mem
  have descending := List.pairwise_reverse.mpr m.ascending
  rw [whole, List.pairwise_append, List.pairwise_cons] at descending
  rcases List.mem_append.mp mem with skipped | mem
  · have above := high _ skipped
    simp [within] at above
  · rcases List.mem_cons.mp mem with rfl | last
    · exact UInt64.le_refl _
    · exact UInt64.le_of_lt (descending.2.1.1 _ last)

/-- The binding of the greatest key up to `k` is found. -/
theorem floor?_eq_some_iff {k : UInt64} : m.floor? k = some a ↔ ∃ j, m.get? j = some a ∧ j ≤ k ∧
    ∀ i, m.contains i = true → i ≤ k → i ≤ j := by
  refine ⟨exists_of_floor?, ?_⟩
  rintro ⟨j, there, within, greatest⟩
  have bound : m.contains j = true := by rw [contains, there]; rfl
  cases found : m.floor? k with
  | none => exact absurd (floor?_eq_none_iff.mp found j bound) (UInt64.not_lt.mpr within)
  | some b =>
    obtain ⟨j', there', within', greatest'⟩ := exists_of_floor? found
    have same : j' = j := UInt64.le_antisymm
      (greatest j' (by rw [contains, there']; rfl) within') (greatest' j bound within)
    rw [← there, ← there', same]

end ObjectVM.KeyMap
