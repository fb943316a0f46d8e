import Mathlib.Order.Bounds.Image
import ObjectVM.Proofs.EvaluationStack
import ObjectVM.Proofs.TextPlaces

/-!
# Searching texts

A text occurs in another one behind so many characters (`Text.OccursAt`). A search goes through the
places of the text, or of a part of it, and counts the characters before the first or the last place
at which it finds what it looks for; so its answer is the least or the greatest index of an
occurrence, or -1 where there is none (`Answer`).

* `best_firstPlace?`, `best_lastPlace?`: what is found in a text, and with `_sliceFrom` and `_sliceTo`
  in a part of it.
* `occursAt_drop`, `occursAt_front`: the occurrences in the part that is searched are those from a
  position on, or up to one.
* `searches_exact`: what the searches answer.
* `execute_search`: and what the opcodes leave on the evaluation stack.
-/
namespace ObjectVM

open Text

/-- The characters of `t` follow the first `i` of `s`. -/
def Text.OccursAt (t s : String) (i : Nat) : Prop :=
  ∃ front back : String, front.length = i ∧ front ++ t ++ back = s

/-- A way to choose a number from a set. -/
structure Choice (best : Set Nat → Nat → Prop) : Prop where
  mem : ∀ {S i}, best S i → i ∈ S
  unique : ∀ {S i j}, best S i → best S j → i = j

/-- The best number of a set, the least or the greatest, or nothing if there is none. -/
inductive Best (best : Set Nat → Nat → Prop) (S : Set Nat) : Option Nat → Prop where
  | found {i} (is : best S i) : Best best S (some i)
  | missing (empty : S = ∅) : Best best S none

/-- The answer to the question for the best of a set of indices: a number of 64 bits that is the
index, or -1 if there is none. -/
inductive Answer (best : Set Nat → Nat → Prop) (S : Set Nat) : Value → Prop where
  | found {i : Nat} (is : best S i) (exact : (Value.ofInt .int64 i).integer? = some (i : Int)) :
    Answer best S (.ofInt .int64 i)
  | missing (empty : S = ∅) : Answer best S (.ofInt .int64 (-1))

/-- What is least stays so if all numbers become greater alike. -/
theorem Best.map_add {S : Set Nat} {r : Option Nat} (least : Best IsLeast S r) (k : Nat) :
    Best IsLeast ((· + k) '' S) (r.map (· + k)) := by
  cases least with
  | found is => exact .found (Monotone.map_isLeast (fun _ _ le => Nat.add_le_add_right le k) is)
  | missing empty => exact .missing (Set.image_eq_empty.mpr empty)

namespace Text

variable {s t : String} {i k : Nat}

/-! ## Occurrences -/

theorem occursAt_iff : OccursAt t s i ↔ i ≤ s.length ∧ t.toList <+: s.toList.drop i := by
  constructor
  · rintro ⟨front, back, rfl, rfl⟩
    refine ⟨by simp only [String.length_append]; omega, back.toList, ?_⟩
    rw [String.toList_append, String.toList_append, List.append_assoc,
      List.drop_left' String.length_toList]
  · rintro ⟨le, back, eq⟩
    refine ⟨.ofList (s.toList.take i), .ofList back, ?_, ?_⟩
    · rw [String.length_ofList, List.length_take_of_le (String.length_toList ▸ le)]
    · rw [← String.toList_inj, String.toList_append, String.toList_append, String.toList_ofList,
        String.toList_ofList, List.append_assoc, eq, List.take_append_drop]

instance (t s : String) : DecidablePred (OccursAt t s) :=
  fun _ => decidable_of_iff _ occursAt_iff.symm

/-- A text is in front of another one that it occurs in behind no characters. -/
theorem prefix_iff : t.toList <+: s.toList ↔ OccursAt t s 0 := by
  rw [occursAt_iff, List.drop_zero]
  exact (and_iff_right (Nat.zero_le _)).symm

theorem OccursAt.le (occurs : OccursAt t s i) : i + t.length ≤ s.length := by
  obtain ⟨front, back, rfl, rfl⟩ := occurs
  simp only [String.length_append]
  omega

/-- A text is at the end of another one that it occurs in behind all but its own characters. -/
theorem suffix_iff :
    t.toList <:+ s.toList ↔ t.length ≤ s.length ∧ OccursAt t s (s.length - t.length) := by
  rw [occursAt_iff, List.suffix_iff_eq_drop, String.length_toList, String.length_toList]
  constructor
  · intro eq
    have le : t.length ≤ s.length := by
      rw [← String.length_toList, eq, List.length_drop, String.length_toList]
      omega
    exact ⟨le, Nat.sub_le _ _, eq ▸ List.prefix_rfl⟩
  · rintro ⟨le, -, starts⟩
    refine starts.eq_of_length ?_
    rw [List.length_drop, String.length_toList, String.length_toList, Nat.sub_sub_self le]

/-! ## Searching -/

theorem best_range (p : Nat → Bool) (n : Nat) :
    Best IsLeast {i | i < n ∧ p i} ((List.range n).find? p) := by
  cases result : (List.range n).find? p with
  | none =>
    refine .missing (Set.eq_empty_of_forall_notMem fun i ⟨lt, holds⟩ => ?_)
    exact List.find?_eq_none.mp result i (List.mem_range.mpr lt) holds
  | some i =>
    obtain ⟨holds, mem, before⟩ := List.find?_range_eq_some.mp result
    refine .found ⟨⟨List.mem_range.mp mem, holds⟩, fun j ⟨_, other⟩ => ?_⟩
    by_contra lt
    have differs := before j (Nat.lt_of_not_le lt)
    rw [other] at differs
    cases differs

/-- From the end back: the last number is the best one, or it is none. -/
theorem best_reverse_range (p : Nat → Bool) (n : Nat) :
    Best IsGreatest {i | i < n ∧ p i} ((List.range n).reverse.find? p) := by
  induction n with
  | zero => exact .missing (Set.eq_empty_of_forall_notMem fun i ⟨lt, _⟩ => Nat.not_lt_zero i lt)
  | succ n ih =>
    rw [List.range_succ, List.reverse_append, List.reverse_singleton, List.singleton_append,
      List.find?_cons]
    cases holds : p n with
    | true =>
      exact .found ⟨⟨Nat.lt_succ_self n, holds⟩, fun j ⟨lt, _⟩ => Nat.le_of_lt_succ lt⟩
    | false =>
      have same : {i | i < n + 1 ∧ p i} = {i | i < n ∧ p i} := by
        ext i
        refine and_congr_left fun other => ⟨fun lt => ?_, Nat.lt_succ_of_lt⟩
        refine Nat.lt_of_le_of_ne (Nat.le_of_lt_succ lt) ?_
        rintro rfl
        rw [holds] at other
        cases other
      rw [same]
      exact ih

/-- Whether the text goes on at a place depends on the characters before it. -/
theorem goesOnWith_eq (t : String) (s : String.Slice) : goesOnWith t (s := s) =
    (fun i => decide (t.toList <+: s.copy.toList.drop i)) ∘ countBefore := by
  funext p
  rw [Bool.eq_iff_iff, goesOnWith_iff]
  exact decide_eq_true_iff.symm

theorem occurrences_eq (t s : String) :
    {i | i < s.length + 1 ∧ decide (t.toList <+: s.toList.drop i)} = {i | OccursAt t s i} := by
  ext i
  exact (and_congr Nat.lt_succ_iff decide_eq_true_iff).trans occursAt_iff.symm

theorem best_firstPlace? (t : String) (s : String.Slice) :
    Best IsLeast {i | OccursAt t s.copy i} ((firstPlace? t s).map countBefore) := by
  rw [firstPlace?, goesOnWith_eq, ← List.find?_map, map_countBefore_places, ← occurrences_eq]
  exact best_range _ _

theorem best_lastPlace? (t : String) (s : String.Slice) :
    Best IsGreatest {i | OccursAt t s.copy i} ((lastPlace? t s).map countBefore) := by
  rw [lastPlace?, goesOnWith_eq, ← List.find?_map, List.map_reverse, map_countBefore_places,
    ← occurrences_eq]
  exact best_reverse_range _ _

/-! ## Searching a part -/

/-- What occurs in the rest of a text occurs so much later in the whole. -/
theorem occursAt_drop (le : k ≤ s.length) :
    OccursAt t (.ofList (s.toList.drop k)) i ↔ OccursAt t s (i + k) := by
  rw [occursAt_iff, occursAt_iff, String.length_ofList, String.toList_ofList, List.length_drop,
    List.drop_drop, String.length_toList, Nat.add_comm k i]
  exact and_congr_left fun _ => by omega

/-- What occurs at an index up to `k` ends in the part that reaches beyond `k` by its length. -/
theorem occursAt_take (k : Nat) :
    OccursAt t (.ofList (s.toList.take (k + t.length))) i ↔ i ≤ k ∧ OccursAt t s i := by
  rw [occursAt_iff, occursAt_iff, String.length_ofList, String.toList_ofList, List.length_take,
    List.drop_take, List.prefix_take_iff, String.length_toList, String.length_toList]
  constructor
  · rintro ⟨within, starts, ends⟩
    exact ⟨by omega, by omega, starts⟩
  · rintro ⟨low, within, starts⟩
    exact ⟨by omega, starts, by omega⟩

/-- The part of a text that is searched back from an index neither misses an occurrence there nor
has one behind it. -/
theorem occursAt_front (stored : Stored s) (w : UInt64) :
    OccursAt t (s.sliceTo (stretch s w (UInt64.ofNat t.length)).stop).copy i ↔
      i ≤ w.toNat ∧ OccursAt t s i := by
  show OccursAt t (s.sliceTo (placeOf s (total w (UInt64.ofNat t.length)))).copy i ↔ _
  rw [copy_sliceTo_placeOf, take_total stored]
  by_cases short : t.length < UInt64.size
  · rw [UInt64.toNat_ofNat_of_lt' short]
    exact occursAt_take w.toNat
  · -- a text that is longer than a word can tell is in no text in memory
    have longer : s.length < t.length :=
      Nat.lt_of_lt_of_le (Nat.lt_trans stored (by decide)) (Nat.le_of_not_lt short)
    refine iff_of_false (fun occurs => ?_) fun both => ?_
    · have le := occurs.le
      rw [String.length_ofList, List.length_take, String.length_toList] at le
      omega
    · have le := both.2.le
      omega

theorem best_firstPlace?_sliceFrom {w : UInt64} (le : w.toNat ≤ s.length) (t : String) :
    Best IsLeast {i | w.toNat ≤ i ∧ OccursAt t s i}
      ((firstPlace? t (s.sliceFrom (placeOf s w))).map
        fun q => countBefore (String.Pos.ofSliceFrom q).toSlice) := by
  have first := (best_firstPlace? t (s.sliceFrom (placeOf s w))).map_add w.toNat
  have later : (· + w.toNat) '' {i | OccursAt t (s.sliceFrom (placeOf s w)).copy i} =
      {i | w.toNat ≤ i ∧ OccursAt t s i} := by
    rw [copy_sliceFrom_placeOf]
    ext j
    constructor
    · rintro ⟨i, occurs, rfl⟩
      exact ⟨Nat.le_add_left _ _, (occursAt_drop le).mp occurs⟩
    · rintro ⟨ge, occurs⟩
      have add := Nat.sub_add_cancel ge
      exact ⟨j - w.toNat, (occursAt_drop le).mpr (add.symm ▸ occurs), add⟩
  have counted : (fun q => countBefore (String.Pos.ofSliceFrom q).toSlice) =
      (· + w.toNat) ∘ countBefore (s := s.sliceFrom (placeOf s w)) := by
    funext q
    rw [countBefore_ofSliceFrom, countBefore_placeOf le]
    rfl
  rw [later, Option.map_map, ← counted] at first
  exact first

theorem best_lastPlace?_sliceTo (stored : Stored s) (w : UInt64) (t : String) :
    Best IsGreatest {i | i ≤ w.toNat ∧ OccursAt t s i}
      ((lastPlace? t (s.sliceTo (stretch s w (UInt64.ofNat t.length)).stop)).map
        fun q => countBefore (String.Pos.ofSliceTo q).toSlice) := by
  have last := best_lastPlace? t (s.sliceTo (stretch s w (UInt64.ofNat t.length)).stop)
  have earlier : {i | OccursAt t (s.sliceTo (stretch s w (UInt64.ofNat t.length)).stop).copy i} =
      {i | i ≤ w.toNat ∧ OccursAt t s i} := Set.ext fun i => occursAt_front stored w
  have counted : (fun q => countBefore (String.Pos.ofSliceTo q).toSlice) =
      countBefore (s := s.sliceTo (stretch s w (UInt64.ofNat t.length)).stop) :=
    funext countBefore_ofSliceTo
  rw [earlier, ← counted] at last
  exact last

end Text

/-! ## Answers -/

section

variable {best : Set Nat → Nat → Prop} {S : Set Nat} {r : Option Nat} {v w : Value} {s t : String}

theorem choice_least : Choice IsLeast := ⟨fun is => is.1, fun is is' => is.unique is'⟩

theorem choice_greatest : Choice IsGreatest := ⟨fun is => is.1, fun is is' => is.unique is'⟩

/-- Indices in a text in memory are numbers of 64 bits with a sign. -/
theorem Best.answer (stored : Stored s) (choice : Choice best) (found : Best best S r)
    (occurs : ∀ i ∈ S, OccursAt t s i) : Answer best S (Texts.found r) := by
  cases found with
  | found is =>
    have le := (occurs _ (choice.mem is)).le
    unfold Stored at stored
    have limit : (2 ^ 63 : Nat) ≤ IntKind.int64.limit := by decide
    refine .found is (Value.integer?_ofInt ⟨?_, by omega⟩)
    exact Int.le_trans (by decide) (Int.natCast_nonneg _)
  | missing empty => exact .missing empty

/-- There is one answer. -/
theorem Answer.unique (choice : Choice best) (hv : Answer best S v) (hw : Answer best S w) :
    v = w := by
  have absurd_of_empty : ∀ {i}, best S i → S = ∅ → v = w := fun is empty =>
    absurd (choice.mem is) (empty ▸ Set.notMem_empty _)
  cases hv with
  | found is _ =>
    cases hw with
    | found is' _ => rw [choice.unique is is']
    | missing empty => exact absurd_of_empty is empty
  | missing empty =>
    cases hw with
    | found is _ => exact absurd_of_empty is empty
    | missing _ => rfl

variable (stored : Stored s) (t : String)
include stored

theorem answer_find : ∃ v, Texts.find (.text s) (.text t) = .ok v ∧
    Answer IsLeast {i | OccursAt t s i} v := by
  have first := best_firstPlace? t s.toSlice
  rw [String.copy_toSlice] at first
  exact ⟨Texts.found ((firstPlace? t s.toSlice).map countBefore), rfl,
    first.answer stored choice_least fun _ occurs => occurs⟩

theorem answer_findLast : ∃ v, Texts.findLast (.text s) (.text t) = .ok v ∧
    Answer IsGreatest {i | OccursAt t s i} v := by
  have last := best_lastPlace? t s.toSlice
  rw [String.copy_toSlice] at last
  exact ⟨Texts.found ((lastPlace? t s.toSlice).map countBefore), rfl,
    last.answer stored choice_greatest fun _ occurs => occurs⟩

variable {p : Value} {pos : Int} (hp : p.integer? = some pos) (within : Within s.length pos)
include hp within

theorem answer_findFrom : ∃ v, Texts.findFrom (.text s) (.text t) p = .ok v ∧
    Answer IsLeast {i : Nat | pos ≤ i ∧ OccursAt t s i} v := by
  obtain ⟨w, rfl, le, position⟩ := exists_position hp within
  have answer := (best_firstPlace?_sliceFrom le t).answer stored choice_least
    fun _ occurs => occurs.2
  simp only [Int.ofNat_le]
  refine ⟨_, ?_, answer⟩
  show Texts.position "strfnd2" s.length p >>= _ = _
  rw [position]
  rfl

theorem answer_findLastUpTo : ∃ v, Texts.findLastUpTo (.text s) (.text t) p = .ok v ∧
    Answer IsGreatest {i : Nat | i ≤ pos ∧ OccursAt t s i} v := by
  obtain ⟨w, rfl, -, position⟩ := exists_position hp within
  have answer := (best_lastPlace?_sliceTo stored w t).answer stored choice_greatest
    fun _ occurs => occurs.2
  simp only [Int.ofNat_le]
  refine ⟨_, ?_, answer⟩
  show Texts.position "strrfnd2" s.length p >>= _ = _
  rw [position]
  rfl

end

/-- From the start of a text everything is searched. -/
theorem find_eq_findFrom {s : String} (stored : Stored s) (t : String) {p : Value}
    (start : p.integer? = some 0) :
    Texts.find (.text s) (.text t) = Texts.findFrom (.text s) (.text t) p := by
  obtain ⟨v, find, answer⟩ := answer_find stored t
  obtain ⟨w, findFrom, answer'⟩ :=
    answer_findFrom stored t start ⟨Int.le_refl 0, Int.natCast_nonneg _⟩
  have whole : {i : Nat | (0 : Int) ≤ i ∧ OccursAt t s i} = {i | OccursAt t s i} :=
    Set.ext fun i => and_iff_right (Int.natCast_nonneg i)
  rw [find, findFrom, answer.unique choice_least (whole ▸ answer')]

/-- And so it is up to its end. -/
theorem findLast_eq_findLastUpTo {s : String} (stored : Stored s) (t : String) {p : Value}
    (stop : p.integer? = some (s.length : Int)) :
    Texts.findLast (.text s) (.text t) = Texts.findLastUpTo (.text s) (.text t) p := by
  obtain ⟨v, find, answer⟩ := answer_findLast stored t
  obtain ⟨w, findUpTo, answer'⟩ :=
    answer_findLastUpTo stored t stop ⟨Int.natCast_nonneg _, Int.le_refl _⟩
  have whole : {i : Nat | (i : Int) ≤ s.length ∧ OccursAt t s i} = {i | OccursAt t s i} :=
    Set.ext fun i => and_iff_right_of_imp fun occurs =>
      Int.ofNat_le.mpr (Nat.le_trans (Nat.le_add_right i _) occurs.le)
  rw [find, findUpTo, answer.unique choice_greatest (whole ▸ answer')]

theorem startsWith_eq (s t : String) :
    Texts.startsWith (.text s) (.text t) = .ok (.bool (OccursAt t s 0)) := by
  have same : s.startsWith t = decide (OccursAt t s 0) := by
    rw [Bool.eq_iff_iff, String.startsWith_string_iff, prefix_iff, decide_eq_true_iff]
  rw [← same]
  rfl

theorem endsWith_eq (s t : String) : Texts.endsWith (.text s) (.text t) =
    .ok (.bool (t.length ≤ s.length ∧ OccursAt t s (s.length - t.length))) := by
  have same : s.endsWith t =
      decide (t.length ≤ s.length ∧ OccursAt t s (s.length - t.length)) := by
    rw [Bool.eq_iff_iff, String.endsWith_eq_endsWith_toSlice, String.Slice.endsWith_string_iff,
      String.copy_toSlice, suffix_iff, decide_eq_true_iff]
  rw [← same]
  rfl

/-- In a text in memory, the searches answer with the least or the greatest index, counted in
characters, at which the other text occurs, from a position on or up to one if that is asked; and a
text starts or ends with what occurs at its first index or so far before its end. -/
theorem searches_exact {s : String} (stored : Stored s) (t : String) :
    (∃ v, Texts.find (.text s) (.text t) = .ok v ∧ Answer IsLeast {i | OccursAt t s i} v) ∧
    (∃ v, Texts.findLast (.text s) (.text t) = .ok v ∧
      Answer IsGreatest {i | OccursAt t s i} v) ∧
    (∀ (p : Value) (pos : Int), p.integer? = some pos → Within s.length pos →
      (∃ v, Texts.findFrom (.text s) (.text t) p = .ok v ∧
        Answer IsLeast {i : Nat | pos ≤ i ∧ OccursAt t s i} v) ∧
      ∃ v, Texts.findLastUpTo (.text s) (.text t) p = .ok v ∧
        Answer IsGreatest {i : Nat | i ≤ pos ∧ OccursAt t s i} v) ∧
    (∀ p : Value, p.integer? = some 0 →
      Texts.find (.text s) (.text t) = Texts.findFrom (.text s) (.text t) p) ∧
    (∀ p : Value, p.integer? = some (s.length : Int) →
      Texts.findLast (.text s) (.text t) = Texts.findLastUpTo (.text s) (.text t) p) ∧
    Texts.startsWith (.text s) (.text t) = .ok (.bool (OccursAt t s 0)) ∧
    Texts.endsWith (.text s) (.text t) =
      .ok (.bool (t.length ≤ s.length ∧ OccursAt t s (s.length - t.length))) :=
  ⟨answer_find stored t, answer_findLast stored t,
    fun _ _ hp within =>
      ⟨answer_findFrom stored t hp within, answer_findLastUpTo stored t hp within⟩,
    fun _ start => find_eq_findFrom stored t start,
    fun _ stop => findLast_eq_findLastUpTo stored t stop, startsWith_eq s t, endsWith_eq s t⟩

/-- Occurrences that overlap, with characters of two bytes: the second one starts just where the
search back does, and the empty text is found at the end. -/
theorem searches_exact_overlapping :
    Texts.findLastUpTo (.text "éaéaé") (.text "éaé") (.ofInt .uint8 2) =
      .ok (.ofInt .int64 2) ∧
    Texts.findFrom (.text "éaéaé") (.text "éaé") (.ofInt .uint8 3) = .ok (.ofInt .int64 (-1)) ∧
    Texts.endsWith (.text "éaéaé") (.text "éaéaéa") = .ok (.bool false) := by
  have stored : Stored "éaéaé" := by decide +kernel
  have length : "éaéaé".length = 5 := by decide +kernel
  obtain ⟨-, -, parts, -⟩ := searches_exact stored "éaé"
  refine ⟨?_, ?_, ?_⟩
  · obtain ⟨-, v, found, answer⟩ :=
      parts (.ofInt .uint8 2) 2 rfl ⟨by decide, by rw [length]; decide⟩
    have occurs : OccursAt "éaé" "éaéaé" 2 := by decide +kernel
    have two : Answer IsGreatest {i : Nat | (i : Int) ≤ 2 ∧ OccursAt "éaé" "éaéaé" i}
        (.ofInt .int64 2) := .found ⟨⟨by decide, occurs⟩, fun i is => Int.ofNat_le.mp is.1⟩ rfl
    rw [found, answer.unique choice_greatest two]
  · obtain ⟨⟨v, found, answer⟩, -⟩ :=
      parts (.ofInt .uint8 3) 3 rfl ⟨by decide, by rw [length]; decide⟩
    have short : "éaé".length = 3 := by decide +kernel
    have none : Answer IsLeast {i : Nat | (3 : Int) ≤ i ∧ OccursAt "éaé" "éaéaé" i}
        (.ofInt .int64 (-1)) := .missing (Set.eq_empty_of_forall_notMem fun i is => by
      have le := is.2.le
      rw [short, length] at le
      have ge := is.1
      omega)
    rw [found, answer.unique choice_least none]
  · obtain ⟨-, -, -, -, -, -, endsWith⟩ := searches_exact stored "éaéaéa"
    rw [endsWith]
    decide +kernel

/-! ## Opcodes -/

/-- `Asks s op operands owed`: an opcode that finds `s` below these operands, in the order in which
they were pushed, owes an answer that is `owed`. -/
inductive Text.Asks (s : String) : TextOp → List Value → (Value → Prop) → Prop where
  | find {t} : Asks s .find [.text t] (Answer IsLeast {i | OccursAt t s i})
  | findFrom {t p pos} (hp : p.integer? = some pos) (within : Within s.length pos) :
    Asks s .findFrom [.text t, p] (Answer IsLeast {i : Nat | pos ≤ i ∧ OccursAt t s i})
  | findLast {t} : Asks s .findLast [.text t] (Answer IsGreatest {i | OccursAt t s i})
  | findLastUpTo {t p pos} (hp : p.integer? = some pos) (within : Within s.length pos) :
    Asks s .findLastUpTo [.text t, p] (Answer IsGreatest {i : Nat | i ≤ pos ∧ OccursAt t s i})
  | startsWith {t} : Asks s .startsWith [.text t] (· = .bool (OccursAt t s 0))
  | endsWith {t} : Asks s .endsWith [.text t]
    (· = .bool (t.length ≤ s.length ∧ OccursAt t s (s.length - t.length)))

/-- The opcode that is asked computes what it owes. -/
theorem Text.Asks.computes {s : String} (stored : Stored s) {op : TextOp} {operands : List Value}
    {owed : Value → Prop} (asks : Asks s op operands owed) :
    ∃ v, (ValueOp.text op).Computes (.text s) operands (.ok v) ∧ owed v := by
  cases asks with
  | find =>
    obtain ⟨v, found, answer⟩ := answer_find stored _
    exact ⟨v, ⟨1, _, #v[_], rfl, rfl, found⟩, answer⟩
  | findFrom hp within =>
    obtain ⟨v, found, answer⟩ := answer_findFrom stored _ hp within
    exact ⟨v, ⟨2, _, #v[_, _], rfl, rfl, found⟩, answer⟩
  | findLast =>
    obtain ⟨v, found, answer⟩ := answer_findLast stored _
    exact ⟨v, ⟨1, _, #v[_], rfl, rfl, found⟩, answer⟩
  | findLastUpTo hp within =>
    obtain ⟨v, found, answer⟩ := answer_findLastUpTo stored _ hp within
    exact ⟨v, ⟨2, _, #v[_, _], rfl, rfl, found⟩, answer⟩
  | startsWith => exact ⟨_, ⟨1, _, #v[_], rfl, rfl, startsWith_eq s _⟩, rfl⟩
  | endsWith => exact ⟨_, ⟨1, _, #v[_], rfl, rfl, endsWith_eq s _⟩, rfl⟩

/-- Where a text in memory lies below the operands of a search, the opcode puts the answer in its
place. -/
theorem Exec.execute_search {p : Process} {f : Frame} {i : Instruction} {op : TextOp}
    {s : String} {operands below : List Value} {owed : Value → Prop} (stored : Stored s)
    (asks : Asks s op operands owed) (top : p.calls.top? = some f)
    (instructed : i.op = .value (.text op))
    (there : f.values = operands.reverse ++ .text s :: below) :
    ∃ v, owed v ∧ execute i p = .ok () (p.withStacks f (v :: below) p.objects) := by
  obtain ⟨v, computes, answer⟩ := asks.computes stored
  exact ⟨v, answer, execute_computes instructed computes top there⟩

end ObjectVM
