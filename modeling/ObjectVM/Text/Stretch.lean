/-!
# Stretches of a text

Positions and lengths count characters, but a text is stored in bytes, and a character may take
several of them. A place in a text (`String.Pos`) is the offset of a byte with which a character
starts, or of the end: a text can be cut there and nowhere else. A stretch goes from one place to
another that does not lie before it. It is found by counting characters, and where there are too few
of them it stops at the end.
-/
namespace ObjectVM.Text

/-- The greatest number that counts characters. -/
def greatestCount : UInt64 := UInt64.ofNat (UInt64.size - 1)

/-- The sum of two counts, or the greatest count where the sum is too great. -/
def total (m n : UInt64) : UInt64 := if m ≤ m + n then m + n else greatestCount

theorem le_greatestCount (n : UInt64) : n ≤ greatestCount :=
  UInt64.le_iff_toNat_le.mpr (Nat.le_of_lt_succ n.toNat_lt)

theorem le_total (m n : UInt64) : m ≤ total m n := by
  unfold total
  split
  · assumption
  · exact le_greatestCount m

/-- The place behind the first `n` characters of `s`, or its end. -/
def placeOf (s : String) (n : UInt64) : s.Pos := s.startPos.nextn n.toNat

/-- More characters take at least as much room. -/
theorem placeOf_le_placeOf (s : String) {m n : UInt64} (le : m ≤ n) :
    placeOf s m ≤ placeOf s n := by
  refine (s.splits_nextn_startPos m.toNat).le_iff_exists_eq_append
    (s.splits_nextn_startPos n.toNat) |>.mpr
    ⟨String.ofList ((s.toList.take n.toNat).drop m.toNat), ?_, ?_⟩
  · have shorter : (s.toList.take n.toNat).take m.toNat = s.toList.take m.toNat := by
      rw [List.take_take, Nat.min_eq_left (UInt64.le_iff_toNat_le.mp le)]
    rw [← String.ofList_append, ← shorter, List.take_append_drop]
  · rw [← String.ofList_append, List.drop_take, ← Nat.add_sub_cancel' (UInt64.le_iff_toNat_le.mp le),
      ← List.drop_drop, Nat.add_sub_cancel_left, List.take_append_drop]

/-- Two places in a text, the second one not before the first. -/
structure Stretch (s : String) where
  start : s.Pos
  stop : s.Pos
  start_le_stop : start ≤ stop

namespace Stretch

variable {s : String}

/-- What the text holds in the stretch. -/
def inside (r : Stretch s) : String := (s.slice r.start r.stop r.start_le_stop).copy

/-- The text with `t` in place of what it holds in the stretch. -/
def replace (r : Stretch s) (t : String) : String :=
  (s.sliceTo r.start).copy ++ t ++ (s.sliceFrom r.stop).copy

end Stretch

/-- The stretch of `len` characters behind the first `pos`. -/
def stretch (s : String) (pos len : UInt64) : Stretch s :=
  ⟨placeOf s pos, placeOf s (total pos len), placeOf_le_placeOf s (le_total pos len)⟩

end ObjectVM.Text
