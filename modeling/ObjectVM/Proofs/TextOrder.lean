import Mathlib.Data.Char
import Mathlib.Data.List.Lex
import Mathlib.Order.Compare
import ObjectVM.Text.Order

/-!
# The order of texts, character by character

Texts are compared by the bytes that they are stored in. That is the order of their characters by
code point, although characters take different numbers of bytes: of the bytes in which two
characters first differ, the lesser character has the lesser one (`rises_encode`). Neither character
ends before, so what follows them does not count.

* `bytes_eq`: the bytes of a text are those of its characters.
* `order_compares`: texts are ordered as the lists of their characters are.
-/
namespace ObjectVM.Text

/-- Of the first bytes in which two lists differ, the first list has the lesser one. -/
inductive Rises : List UInt8 → List UInt8 → Prop where
  | here {x y : UInt8} {a b : List UInt8} (lt : x < y) : Rises (x :: a) (y :: b)
  | later {x : UInt8} {a b : List UInt8} (rest : Rises a b) : Rises (x :: a) (x :: b)

variable {a b : List UInt8}

theorem Rises.append (rises : Rises a b) (c d : List UInt8) : Rises (a ++ c) (b ++ d) := by
  induction rises with
  | here lt => exact .here lt
  | later _ ih => exact .later ih

theorem Rises.compareLex (rises : Rises a b) : List.compareLex compare a b = .lt := by
  induction rises with
  | here lt =>
    rw [List.compareLex_cons_cons, Std.compare_eq_lt.mpr lt]
    rfl
  | later _ ih =>
    rw [List.compareLex_cons_cons, Std.compare_self]
    exact ih

theorem not_rises_nil : ¬ Rises [] [] := nofun

theorem rises_iff {m n : Nat} (hm : m < 256) (hn : n < 256) :
    Rises (UInt8.ofNat m :: a) (UInt8.ofNat n :: b) ↔ m < n ∨ m = n ∧ Rises a b := by
  have less : UInt8.ofNat m < UInt8.ofNat n ↔ m < n := by
    rw [UInt8.lt_iff_toNat_lt, UInt8.toNat_ofNat_of_lt' hm, UInt8.toNat_ofNat_of_lt' hn]
  constructor
  · intro rises
    generalize hx : UInt8.ofNat m = x, hy : UInt8.ofNat n = y at rises
    cases rises with
    | here lt =>
      subst hx hy
      exact .inl (less.mp lt)
    | later rest =>
      have same := congrArg UInt8.toNat (hx.trans hy.symm)
      rw [UInt8.toNat_ofNat_of_lt' hm, UInt8.toNat_ofNat_of_lt' hn] at same
      exact .inr ⟨same, rest⟩
  · rintro (lt | ⟨rfl, rest⟩)
    · exact .here (less.mpr lt)
    · exact .later rest

/-- The greater of two characters has the greater byte where they first differ. -/
theorem rises_encode {c d : Char} (lt : c < d) :
    Rises (String.utf8EncodeChar c) (String.utf8EncodeChar d) := by
  have bound : d.val.toNat < 0x110000 := by
    have := d.valid
    unfold UInt32.isValidChar Nat.isValidChar at this
    omega
  replace lt : c.val.toNat < d.val.toNat := UInt32.lt_iff_toNat_lt.mp lt
  unfold String.utf8EncodeChar
  generalize c.val.toNat = m at *
  generalize d.val.toNat = n at *
  have quotients : ∀ k, k / 4096 = k / 64 / 64 ∧ k / 262144 = k / 64 / 64 / 64 := by omega
  dsimp only
  -- one case for each two lengths; a shorter character has the lesser first byte
  repeat' split
  all_goals try omega
  all_goals
    simp (disch := omega) only [rises_iff, not_rises_nil, and_false, or_false, quotients]
    clear quotients
    omega

/-! ## Texts -/

theorem bytes_eq (s : String) : bytes s = s.toList.flatMap String.utf8EncodeChar := by
  unfold bytes
  rw [String.toUTF8_eq_toByteArray, ← String.utf8Encode_toList]
  exact List.toList_data_toByteArray

/-- What two lists start with alike does not count. -/
theorem compareLex_append (front a b : List UInt8) :
    List.compareLex compare (front ++ a) (front ++ b) = List.compareLex compare a b := by
  induction front with
  | nil => rfl
  | cons x front ih =>
    rw [List.cons_append, List.cons_append, List.compareLex_cons_cons, Std.compare_self]
    exact ih

theorem compareLex_encoded {cs ds : List Char} (lt : List.Lex (· < ·) cs ds) :
    List.compareLex compare (cs.flatMap String.utf8EncodeChar)
      (ds.flatMap String.utf8EncodeChar) = .lt := by
  induction lt with
  | nil =>
    rename_i d ds
    rw [List.flatMap_cons]
    cases first : String.utf8EncodeChar d with
    | nil => exact absurd first String.utf8EncodeChar_ne_nil
    | cons x more => rfl
  | rel lt =>
    rw [List.flatMap_cons, List.flatMap_cons]
    exact ((rises_encode lt).append _ _).compareLex
  | cons _ ih =>
    rw [List.flatMap_cons, List.flatMap_cons, compareLex_append]
    exact ih

theorem order_of_lt {s t : String} (lt : s.toList < t.toList) : order s t = .lt := by
  unfold order
  rw [bytes_eq, bytes_eq]
  exact compareLex_encoded lt

theorem order_self (s : String) : order s s = .eq := by
  unfold order
  exact Std.ReflCmp.compare_self

theorem order_of_gt {s t : String} (gt : t.toList < s.toList) : order s t = .gt := by
  have lt := order_of_lt gt
  unfold order at lt ⊢
  exact Std.OrientedCmp.gt_of_lt lt

/-- Texts are ordered as the lists of their characters are. -/
theorem order_compares (s t : String) : (order s t).Compares s.toList t.toList := by
  rcases lt_trichotomy s.toList t.toList with lt | eq | gt
  · rw [order_of_lt lt]
    exact lt
  · rw [String.toList_inj.mp eq, order_self]
    rfl
  · rw [order_of_gt gt]
    exact gt

end ObjectVM.Text
