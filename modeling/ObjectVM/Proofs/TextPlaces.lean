import ObjectVM.Proofs.IntegerArithmetic
import ObjectVM.Value.Texts

/-!
# Places in a text and the characters before them

A place is the offset of a byte. What it means for the text is what it splits it into
(`String.Pos.Splits`): some characters before it and the others behind it. So counting characters
and finding places are the two directions of one relation, and cutting a text at places is taking
and dropping characters.

* `exists_position`: the position that an operand stands for.
* `inside_stretch`, `replace_stretch`: what is in a stretch, and what is left with another text in
  its place.
* `map_countBefore_places`: the places of a text are those behind its first 0, 1, … and all
  characters.
* `countBefore_ofSliceFrom`, `countBefore_ofSliceTo`: a place in a part of a text, counted in the
  whole.
-/
namespace ObjectVM.Text

/-- A text in memory: a word with a sign counts its characters. -/
def Stored (s : String) : Prop := s.length < 2 ^ 63

instance (s : String) : Decidable (Stored s) := inferInstanceAs (Decidable (_ < _))

/-- A position in a text of `n` characters. -/
def Within (n : Nat) (pos : Int) : Prop := 0 ≤ pos ∧ pos ≤ n

instance (n : Nat) (pos : Int) : Decidable (Within n pos) := inferInstanceAs (Decidable (_ ∧ _))

/-! ## Operands -/

section

variable {v : Value} {pos : Int} {n : Nat}

/-- An integer that is not negative is a word. -/
theorem toNat_word (h : v.integer? = some pos) :
    (UInt64.ofNat pos.toNat).toNat = pos.toNat := by
  have range := (Value.integer?_range h).2
  exact UInt64.toNat_ofNat_of_lt' (by simp only [UInt64.size]; omega)

/-- The word that an operand stands for if it is a position. -/
theorem exists_position (h : v.integer? = some pos) (within : Within n pos) :
    ∃ w : UInt64, (w.toNat : Int) = pos ∧ w.toNat ≤ n ∧
      ∀ operation, Texts.position operation n v = .ok w := by
  have word := toNat_word h
  refine ⟨UInt64.ofNat pos.toNat, ?_, ?_, fun operation => ?_⟩
  · rw [word, Int.toNat_of_nonneg within.1]
  · rw [word]
    exact Int.toNat_le.mpr within.2
  · unfold Texts.position Value.asIndex
    rw [h]
    exact if_pos within

end

/-! ## Stretches -/

section

variable {s : String}

theorem toNat_total (m n : UInt64) :
    (total m n).toNat = min (m.toNat + n.toNat) (2 ^ 64 - 1) := by
  have hm := m.toNat_lt
  have hn := n.toNat_lt
  unfold total
  split
  · rename_i le
    rw [UInt64.le_iff_toNat_le, UInt64.toNat_add] at le
    rw [UInt64.toNat_add]
    omega
  · rename_i gt
    rw [UInt64.le_iff_toNat_le, UInt64.toNat_add] at gt
    show 2 ^ 64 - 1 = _
    omega

/-- Where a sum is too great, no text has as many characters, so what is the same for all numbers
that no text reaches is not changed by it. -/
theorem at_total (stored : Stored s) (m n : UInt64) {part : Nat → List Char} {rest : List Char}
    (beyond : ∀ k, s.toList.length ≤ k → part k = rest) :
    part (total m n).toNat = part (m.toNat + n.toNat) := by
  have length : s.toList.length < 2 ^ 63 := String.length_toList ▸ stored
  rw [toNat_total]
  rcases Nat.le_total (m.toNat + n.toNat) (2 ^ 64 - 1) with le | ge
  · rw [Nat.min_eq_left le]
  · rw [Nat.min_eq_right ge, beyond _ (by omega), beyond _ (by omega)]

theorem take_total (stored : Stored s) (m n : UInt64) :
    s.toList.take (total m n).toNat = s.toList.take (m.toNat + n.toNat) :=
  at_total stored m n fun _ => List.take_of_length_le

theorem drop_total (stored : Stored s) (m n : UInt64) :
    s.toList.drop (total m n).toNat = s.toList.drop (m.toNat + n.toNat) :=
  at_total stored m n fun _ => List.drop_of_length_le

theorem splits_placeOf (s : String) (n : UInt64) : (placeOf s n).Splits
    (.ofList (s.toList.take n.toNat)) (.ofList (s.toList.drop n.toNat)) :=
  s.splits_nextn_startPos n.toNat

theorem copy_sliceTo_placeOf (s : String) (n : UInt64) :
    (s.sliceTo (placeOf s n)).copy = .ofList (s.toList.take n.toNat) :=
  (splits_placeOf s n).copy_sliceTo_eq

theorem copy_sliceFrom_placeOf (s : String) (n : UInt64) :
    (s.sliceFrom (placeOf s n)).copy = .ofList (s.toList.drop n.toNat) :=
  (splits_placeOf s n).copy_sliceFrom_eq

/-- A stretch holds as many characters as it is asked for, or all that are left. -/
theorem inside_stretch (stored : Stored s) (pos len : UInt64) :
    (stretch s pos len).inside = .ofList ((s.toList.drop pos.toNat).take len.toNat) := by
  let front := s.toList.take pos.toNat
  let middle := (s.toList.drop pos.toNat).take len.toNat
  let back := s.toList.drop (total pos len).toNat
  have middle_back : middle ++ back = s.toList.drop pos.toNat := by
    rw [show back = _ from drop_total stored pos len, ← List.drop_drop]
    exact List.take_append_drop len.toNat _
  have front_middle : front ++ middle = s.toList.take (total pos len).toNat := by
    rw [take_total stored, List.take_add]
  have start : (placeOf s pos).Splits (.ofList front) (.ofList middle ++ .ofList back) := by
    rw [← String.ofList_append, middle_back]
    exact splits_placeOf s pos
  have stop : (placeOf s (total pos len)).Splits (.ofList front ++ .ofList middle)
      (.ofList back) := by
    rw [← String.ofList_append, front_middle]
    exact splits_placeOf s (total pos len)
  obtain ⟨_, inside⟩ := String.copy_slice_eq_iff_splits.mpr ⟨_, _, start, stop⟩
  exact inside

/-- The text that is put in place of a stretch stands between the characters before and behind. -/
theorem replace_stretch (stored : Stored s) (pos len : UInt64) (t : String) :
    (stretch s pos len).replace t = .ofList (s.toList.take pos.toNat ++ t.toList ++
      s.toList.drop (pos.toNat + len.toNat)) := by
  rw [String.ofList_append, String.ofList_append, String.ofList_toList, ← drop_total stored,
    ← copy_sliceTo_placeOf, ← copy_sliceFrom_placeOf]
  rfl

end

/-! ## Counting the characters before a place -/

section

variable {s : String.Slice} {p : s.Pos} {front back : String}

theorem countBefore_of_splits (splits : p.Splits front back) : countBefore p = front.length :=
  congrArg String.length splits.copy_sliceTo_eq

/-- A place is where the characters before it end and the others begin. -/
theorem splits_countBefore (p : s.Pos) :
    p.Splits (.ofList (s.copy.toList.take (countBefore p)))
      (.ofList (s.copy.toList.drop (countBefore p))) := by
  have splits := p.splits
  have length : (s.sliceTo p).copy.toList.length = countBefore p := String.length_toList
  rw [splits.eq_append, String.toList_append, List.take_left' length, List.drop_left' length,
    String.ofList_toList, String.ofList_toList]
  exact splits

theorem countBefore_startPos : countBefore s.startPos = 0 := countBefore_of_splits s.splits_startPos

theorem countBefore_endPos : countBefore s.endPos = s.copy.length :=
  countBefore_of_splits s.splits_endPos

/-- The place before another one has one character less before it. -/
theorem countBefore_prev (h : p ≠ s.startPos) : countBefore (p.prev h) + 1 = countBefore p := by
  have splits := p.splits
  have some_before : (s.sliceTo p).copy ≠ "" := mt splits.eq_startPos_iff.mpr h
  generalize (s.sliceTo p).copy = front at splits some_before
  have some_char : front.toList ≠ [] := mt String.toList_eq_nil_iff.mp some_before
  have last : .ofList front.toList.dropLast ++ .singleton (front.toList.getLast some_char)
      = front := by
    rw [String.singleton_eq_ofList, ← String.ofList_append, List.dropLast_concat_getLast,
      String.ofList_toList]
  rw [← last] at splits
  rw [countBefore_of_splits splits, countBefore_of_splits splits.prev, String.length_append,
    String.length_singleton]

theorem map_countBefore_placesUpTo (p : s.Pos) (more : List s.Pos) :
    (placesUpTo p more).map countBefore =
      List.range (countBefore p + 1) ++ more.map countBefore := by
  fun_induction placesUpTo p more with
  | case1 more => rw [List.map_cons, countBefore_startPos]; rfl
  | case2 p more h ih =>
    rw [ih, countBefore_prev h, List.range_succ (n := countBefore p), List.append_assoc]; rfl

/-- The places of a text are those behind its first 0, 1, … and all characters. -/
theorem map_countBefore_places (s : String.Slice) :
    (places s).map countBefore = List.range (s.copy.length + 1) := by
  rw [places, map_countBefore_placesUpTo, countBefore_endPos, List.map_nil, List.append_nil]

/-- What is behind a place is what the text goes on with. -/
theorem goesOnWith_iff (t : String) (p : s.Pos) :
    goesOnWith t p = true ↔ t.toList <+: s.copy.toList.drop (countBefore p) := by
  rw [goesOnWith, String.Slice.startsWith_string_iff, (splits_countBefore p).copy_sliceFrom_eq,
    String.toList_ofList]

end

/-! ## Places in a part of a text -/

section

variable {s : String} {p : s.Pos}

theorem countBefore_placeOf {n : UInt64} (le : n.toNat ≤ s.length) :
    countBefore (placeOf s n).toSlice = n.toNat := by
  rw [countBefore_of_splits (String.Pos.splits_toSlice_iff.mpr (splits_placeOf s n)),
    String.length_ofList, List.length_take, String.length_toList, Nat.min_eq_left le]

/-- In what follows a place, counting starts at that place. -/
theorem countBefore_ofSliceFrom (q : (s.sliceFrom p).Pos) :
    countBefore (String.Pos.ofSliceFrom q).toSlice = countBefore q + countBefore p.toSlice := by
  let before := (s.sliceTo p).copy
  let between := ((s.sliceFrom p).sliceTo q).copy
  let behind := ((s.sliceFrom p).sliceFrom q).copy
  have splits : (String.Pos.ofSliceFrom q).Splits (before ++ between) behind := by
    refine ⟨?_, ?_⟩
    · rw [String.append_assoc, ← q.splits.eq_append, ← p.splits.eq_append]
    · rw [String.Pos.offset_ofSliceFrom, q.splits.offset_eq_rawEndPos,
        p.splits.offset_eq_rawEndPos]
      exact String.Pos.Raw.ext String.utf8ByteSize_append.symm
  rw [countBefore_of_splits (String.Pos.splits_toSlice_iff.mpr splits), String.length_append,
    Nat.add_comm]
  rfl

/-- In what comes before a place, counting is the same. -/
theorem countBefore_ofSliceTo (q : (s.sliceTo p).Pos) :
    countBefore (String.Pos.ofSliceTo q).toSlice = countBefore q := by
  let before := ((s.sliceTo p).sliceTo q).copy
  let between := ((s.sliceTo p).sliceFrom q).copy
  let behind := (s.sliceFrom p).copy
  have splits : (String.Pos.ofSliceTo q).Splits before (between ++ behind) := by
    refine ⟨?_, ?_⟩
    · rw [← String.append_assoc, ← q.splits.eq_append, ← p.splits.eq_append]
    · rw [String.Pos.offset_ofSliceTo, q.splits.offset_eq_rawEndPos]
  rw [countBefore_of_splits (String.Pos.splits_toSlice_iff.mpr splits)]
  rfl

end

end ObjectVM.Text
