import Mathlib.Algebra.Group.Nat.Defs
import ObjectVM.Binary.Codec

/-!
# Binary codecs

What a codec writes, it reads back, whatever comes behind it; and where the written bytes have been
cut off, it finds that bytes are missing (`Codec.Lawful`). The second is what makes codecs
compose: a part that is complete is never taken for one that goes on.

* `lawful_word16`, `lawful_word32`, `lawful_word64`, `lawful_floatBits`, `lawful_text`: the codecs
  of words, floats and texts.
* `Lawful.pair`, `Lawful.option`, `Lawful.list`, `Lawful.map`: codecs put together from codecs.
-/
namespace ObjectVM.Binary

/-- On values that fit, a codec reads back what it has written, whatever comes behind it, and finds
that bytes are missing where the written bytes have been cut off. -/
structure Codec.Lawful {α : Type} (c : Codec α) (Fits : α → Prop) : Prop where
  reads : ∀ a rest, Fits a → c.decode (c.encode a ++ rest) = .ok (a, rest)
  stops : ∀ a front, Fits a → front <+: c.encode a → front ≠ c.encode a →
    c.decode front = .error .endOfInput

/-- What is cut off from two parts is cut off in the first or in the second. -/
theorem prefix_append_cases {front x y : Bytes} (pre : front <+: x ++ y) (cut : front ≠ x ++ y) :
    (front <+: x ∧ front ≠ x) ∨ ∃ more, front = x ++ more ∧ more <+: y ∧ more ≠ y := by
  by_cases short : front.length < x.length
  · have inside : front <+: x :=
      List.prefix_of_prefix_length_le pre (List.prefix_append x y) (Nat.le_of_lt short)
    exact .inl ⟨inside, fun same => by simp [same] at short⟩
  · obtain ⟨more, rfl⟩ : x <+: front :=
      List.prefix_of_prefix_length_le (List.prefix_append x y) pre (Nat.le_of_not_lt short)
    refine .inr ⟨more, rfl, (List.prefix_append_right_inj x).mp pre, fun same => cut ?_⟩
    rw [same]

/-! ## Varints -/

theorem varint_small {n : Nat} (h : n < 128) : varint n = [UInt8.ofNat n] := by
  rw [varint, if_pos h]

theorem varint_large {n : Nat} (h : ¬ n < 128) :
    varint n = UInt8.ofNat (n % 128 + 128) :: varint (n / 128) := by
  rw [varint, if_neg h]

theorem toNat_byte {n : Nat} (h : n < 256) : (UInt8.ofNat n).toNat = n := by
  simp [Nat.mod_eq_of_lt h]

/-- Behind the first seven bits there is one byte less to come. -/
theorem rest_lt {lastLimit more n : Nat} (small : n < (lastLimit + 1) * 128 ^ (more + 1)) :
    n / 128 < (lastLimit + 1) * 128 ^ more := by
  rw [Nat.div_lt_iff_lt_mul (by omega), Nat.mul_assoc, ← Nat.pow_succ]
  exact small

/-- A varint is read back, if its bytes are not too many and the last is not above its limit. -/
theorem readVarint_varint {lastLimit : Nat} (low : lastLimit < 128) (more : Nat) :
    ∀ (n : Nat) (rest : Bytes), n < (lastLimit + 1) * 128 ^ more →
      readVarint lastLimit more (varint n ++ rest) = .ok (n, rest) := by
  -- on the bytes that may come: each takes seven bits off the number
  induction more with
  | zero =>
    intro n rest small
    have h : n < 128 := by omega
    simp only [varint_small h, List.singleton_append, readVarint, toNat_byte (n := n) (by omega)]
    rw [if_pos (by omega)]
  | succ more ih =>
    intro n rest small
    by_cases h : n < 128
    · simp only [varint_small h, List.singleton_append, readVarint, toNat_byte (n := n) (by omega)]
      rw [if_pos h]
    · simp only [varint_large h, List.cons_append, readVarint]
      rw [toNat_byte (by omega), if_neg (by omega), ih _ _ (rest_lt small)]
      show Except.ok _ = _
      congr 2
      omega

/-- A varint that has been cut off goes on after each of its bytes. -/
theorem readVarint_cut {lastLimit : Nat} (low : lastLimit < 128) (more : Nat) :
    ∀ (n : Nat) (front : Bytes), n < (lastLimit + 1) * 128 ^ more → front <+: varint n →
      front ≠ varint n → readVarint lastLimit more front = .error .endOfInput := by
  have nothing : ∀ more, readVarint lastLimit more [] = .error .endOfInput := by
    intro more
    cases more <;> rfl
  -- of a single byte nothing but the empty text can be cut off
  have single : ∀ {n : Nat} {front : Bytes} (more : Nat), n < 128 → front <+: varint n →
      front ≠ varint n → readVarint lastLimit more front = .error .endOfInput := by
    intro n front more h pre cut
    rw [varint_small h] at pre cut
    rcases List.prefix_cons_iff.mp pre with rfl | ⟨rest, rfl, tail⟩
    · exact nothing more
    · exact absurd (by rw [List.prefix_nil.mp tail]) cut
  induction more with
  | zero =>
    intro n front small pre cut
    exact single 0 (by omega) pre cut
  | succ more ih =>
    intro n front small pre cut
    by_cases h : n < 128
    · exact single _ h pre cut
    · rw [varint_large h] at pre cut
      rcases List.prefix_cons_iff.mp pre with rfl | ⟨rest, rfl, tail⟩
      · exact nothing _
      · have cut : rest ≠ varint (n / 128) := fun same => cut (by rw [same])
        simp only [readVarint]
        rw [toNat_byte (by omega), if_neg (by omega), ih _ _ (rest_lt small) tail cut]
        rfl

namespace Codec

variable {α β : Type} {c : Codec α} {d : Codec β} {Fits : α → Prop} {Fits' : β → Prop}

theorem lawful_varint (lastLimit more : Nat) (low : lastLimit < 128) :
    Lawful ⟨varint, readVarint lastLimit more⟩ fun n => n < (lastLimit + 1) * 128 ^ more :=
  ⟨readVarint_varint low more, readVarint_cut low more⟩

/-! ## Codecs put together -/

theorem Lawful.mono (h : c.Lawful Fits) {Fits'' : α → Prop} (fits : ∀ a, Fits'' a → Fits a) :
    c.Lawful Fits'' :=
  ⟨fun a rest ha => h.reads a rest (fits a ha), fun a front ha => h.stops a front (fits a ha)⟩

theorem Lawful.map (h : c.Lawful Fits) {make : α → β} {parts : β → α}
    (whole : ∀ b, Fits (parts b) → make (parts b) = b) :
    (c.map make parts).Lawful fun b => Fits (parts b) := by
  refine ⟨fun b rest fits => ?_, fun b front fits pre cut => ?_⟩
  · simp only [Codec.map, h.reads _ rest fits]
    show Except.ok (make (parts b), rest) = _
    rw [whole b fits]
  · simp only [Codec.map, h.stops _ front fits pre cut]
    rfl

theorem Lawful.pair (h : c.Lawful Fits) (h' : d.Lawful Fits') :
    (c.pair d).Lawful fun p => Fits p.1 ∧ Fits' p.2 := by
  refine ⟨fun p rest fits => ?_, fun p front fits pre cut => ?_⟩
  · simp only [Codec.pair, List.append_assoc, h.reads _ _ fits.1]
    show (d.decode _ >>= _) = _
    rw [h'.reads _ _ fits.2]
    rfl
  · rcases prefix_append_cases pre cut with ⟨pre, cut⟩ | ⟨more, rfl, pre, cut⟩
    · simp only [Codec.pair, h.stops _ _ fits.1 pre cut]
      rfl
    · simp only [Codec.pair, h.reads _ _ fits.1]
      show (d.decode _ >>= _) = _
      rw [h'.stops _ _ fits.2 pre cut]
      rfl

theorem Lawful.option (h : c.Lawful Fits) : c.option.Lawful fun a => ∀ b ∈ a, Fits b := by
  refine ⟨fun a rest fits => ?_, fun a front fits pre cut => ?_⟩
  · cases a with
    | none => rfl
    | some b =>
      simp only [Codec.option, List.cons_append, h.reads b rest (fits b rfl)]
      rfl
  · cases a with
    | none =>
      rcases List.prefix_cons_iff.mp pre with rfl | ⟨rest, rfl, tail⟩
      · rfl
      · exact absurd (by rw [List.prefix_nil.mp tail]; rfl) cut
    | some b =>
      rcases List.prefix_cons_iff.mp pre with rfl | ⟨rest, rfl, tail⟩
      · rfl
      · have cut : rest ≠ c.encode b := fun same => cut (by rw [same]; rfl)
        have missing := h.stops b rest (fits b rfl) tail cut
        show (c.decode rest >>= _) = _
        rw [missing]
        rfl

/-- The values of a list are read one by one, as many as the list has. -/
theorem decodeMany_encoded (h : c.Lawful Fits) (l : List α) :
    ∀ (done : List α) (rest : Bytes), (∀ a ∈ l, Fits a) →
      c.decodeMany done l.length (l.flatMap c.encode ++ rest) = .ok (done.reverse ++ l, rest) := by
  induction l with
  | nil =>
    intro done rest _
    simp [decodeMany]
  | cons a l ih =>
    intro done rest fits
    have first := h.reads a (l.flatMap c.encode ++ rest) (fits a List.mem_cons_self)
    simp only [List.length_cons, List.flatMap_cons, List.append_assoc, decodeMany, first]
    rw [ih _ _ fun b hb => fits b (List.mem_cons_of_mem a hb)]
    simp

theorem decodeMany_cut (h : c.Lawful Fits) (l : List α) :
    ∀ (done : List α) (front : Bytes), (∀ a ∈ l, Fits a) → front <+: l.flatMap c.encode →
      front ≠ l.flatMap c.encode → c.decodeMany done l.length front = .error .endOfInput := by
  induction l with
  | nil =>
    intro done front _ pre cut
    exact absurd (List.prefix_nil.mp pre) cut
  | cons a l ih =>
    intro done front fits pre cut
    have first := fits a List.mem_cons_self
    rw [List.flatMap_cons] at pre cut
    rcases prefix_append_cases pre cut with ⟨pre, cut⟩ | ⟨more, rfl, pre, cut⟩
    · simp only [List.length_cons, decodeMany, h.stops a front first pre cut]
    · simp only [List.length_cons, decodeMany, h.reads a more first]
      exact ih _ _ (fun b hb => fits b (List.mem_cons_of_mem a hb)) pre cut

/-! ## Words and lengths -/

theorem lawful_size : size.Lawful (· < UInt64.size) :=
  (lawful_varint 1 9 (by omega)).mono fun _ fits => fits

theorem lawful_word16 : word16.Lawful fun _ => True :=
  ((lawful_varint 3 2 (by omega)).map fun _ _ => UInt16.ofNat_toNat).mono
    fun w _ => w.toNat_lt

theorem lawful_word32 : word32.Lawful fun _ => True :=
  ((lawful_varint 15 4 (by omega)).map fun _ _ => UInt32.ofNat_toNat).mono
    fun w _ => w.toNat_lt

theorem lawful_word64 : word64.Lawful fun _ => True :=
  (lawful_size.map fun _ _ => UInt64.ofNat_toNat).mono fun w _ => w.toNat_lt

theorem Lawful.list (h : c.Lawful Fits) :
    c.list.Lawful fun l => l.length < UInt64.size ∧ ∀ a ∈ l, Fits a := by
  refine ⟨fun l rest fits => ?_, fun l front fits pre cut => ?_⟩
  · simp only [Codec.list, List.append_assoc, lawful_size.reads _ _ fits.1]
    exact decodeMany_encoded h l [] rest fits.2
  · rcases prefix_append_cases pre cut with ⟨pre, cut⟩ | ⟨more, rfl, pre, cut⟩
    · simp only [Codec.list, lawful_size.stops _ _ fits.1 pre cut]
      rfl
    · simp only [Codec.list, lawful_size.reads _ _ fits.1]
      exact decodeMany_cut h l [] more fits.2 pre cut

/-! ## Floats and texts -/

theorem takeBytes_append (x rest : Bytes) : takeBytes x.length (x ++ rest) = .ok (x, rest) := by
  simp [takeBytes]

theorem takeBytes_cut {x front : Bytes} (pre : front <+: x) (cut : front ≠ x) :
    takeBytes x.length front = .error .endOfInput := by
  have short : front.length ≠ x.length := fun same => cut (pre.eq_of_length same)
  have := pre.length_le
  have : min x.length front.length ≠ x.length := by omega
  simp [takeBytes, this]

/-- From the byte at `i` on, `n` bytes of a word spell the bits behind the first `8 * i`. -/
theorem toNat_wordOfBytes (w : UInt64) (n : Nat) : ∀ i, i + n ≤ 8 →
    (wordOfBytes ((List.range' i n).map fun i => (w >>> UInt64.ofNat (8 * i)).toUInt8)).toNat =
      w.toNat / 2 ^ (8 * i) % 2 ^ (8 * n) := by
  induction n with
  | zero =>
    intro i _
    simp [wordOfBytes, Nat.mod_one]
  | succ n ih =>
    intro i h
    have higher := ih (i + 1) (by omega)
    have byte : ((w >>> UInt64.ofNat (8 * i)).toUInt8).toNat = w.toNat / 2 ^ (8 * i) % 256 := by
      rw [UInt64.toNat_toUInt8, UInt64.toNat_shiftRight, UInt64.toNat_ofNat',
        Nat.mod_eq_of_lt (show 8 * i < 2 ^ 64 by omega),
        Nat.mod_eq_of_lt (show 8 * i < 64 by omega), Nat.shiftRight_eq_div_pow]
    have room : w.toNat / 2 ^ (8 * (i + 1)) % 2 ^ (8 * n) * 2 ^ 8 < 2 ^ 64 := by
      have := Nat.mod_lt (w.toNat / 2 ^ (8 * (i + 1))) (Nat.two_pow_pos (8 * n))
      have : 2 ^ (8 * n) * 2 ^ 8 ≤ 2 ^ 64 := by
        rw [← Nat.pow_add]
        exact Nat.pow_le_pow_right (by omega) (by omega)
      omega
    rw [List.range'_succ, List.map_cons]
    simp only [wordOfBytes, List.foldr_cons] at higher ⊢
    rw [UInt64.toNat_or, UInt64.toNat_shiftLeft, UInt8.toNat_toUInt64, higher, byte]
    simp only [UInt64.reduceToNat, Nat.reduceMod, Nat.shiftLeft_eq]
    rw [Nat.mod_eq_of_lt room, ← Nat.shiftLeft_eq,
      ← Nat.shiftLeft_add_eq_or_of_lt (Nat.mod_lt _ (by omega)), Nat.shiftLeft_eq,
      show 8 * (n + 1) = 8 + 8 * n by omega, Nat.pow_add, Nat.mod_mul, Nat.div_div_eq_div_mul,
      ← Nat.pow_add, show 8 * i + 8 = 8 * (i + 1) by omega]
    omega

theorem wordOfBytes_wordBytes (w : UInt64) : wordOfBytes (wordBytes w) = w := by
  apply UInt64.toNat_inj.mp
  have all := toNat_wordOfBytes w 8 0 (by omega)
  rw [← List.range_eq_range'] at all
  rw [wordBytes, all]
  simp [Nat.mod_eq_of_lt w.toNat_lt]

theorem lawful_floatBits : floatBits.Lawful fun _ => True := by
  have eight : ∀ w, (wordBytes w).length = 8 := by
    intro w
    simp [wordBytes]
  refine ⟨fun w rest _ => ?_, fun w front _ pre cut => ?_⟩
  · have taken := takeBytes_append (wordBytes w) rest
    rw [eight] at taken
    simp only [floatBits, taken]
    show Except.ok (wordOfBytes (wordBytes w), rest) = _
    rw [wordOfBytes_wordBytes]
  · have missing := takeBytes_cut pre cut
    rw [show (floatBits.encode w).length = 8 from eight w] at missing
    simp only [floatBits, missing]
    rfl

theorem toList_loop (bytes : ByteArray) (i : Nat) (done : List UInt8) :
    ByteArray.toList.loop bytes i done = done.reverse ++ bytes.data.toList.drop i := by
  fun_induction ByteArray.toList.loop bytes i done with
  | case1 i done h ih =>
    have inside : i < bytes.data.toList.length := h
    rw [ih, List.drop_eq_getElem_cons inside]
    simp [ByteArray.get!, h]
  | case2 i done h =>
    rw [List.drop_eq_nil_of_le (Nat.le_of_not_lt h), List.append_nil]

theorem toList_eq (bytes : ByteArray) : bytes.toList = bytes.data.toList :=
  toList_loop bytes 0 []

/-- The bytes of a text spell that text. -/
theorem fromUTF8?_toUTF8 (s : String) : String.fromUTF8? ⟨s.toUTF8.toList.toArray⟩ = some s := by
  have same : (⟨s.toUTF8.toList.toArray⟩ : ByteArray) = s.toByteArray := by
    rw [toList_eq]
    rfl
  rw [same]
  exact dif_pos s.isValidUTF8

theorem length_toUTF8 (s : String) : s.toUTF8.toList.length = s.utf8ByteSize := by
  rw [toList_eq]
  rfl

theorem lawful_text : text.Lawful fun s => s.utf8ByteSize < UInt64.size := by
  refine ⟨fun s rest fits => ?_, fun s front fits pre cut => ?_⟩
  · have taken := takeBytes_append s.toUTF8.toList rest
    rw [length_toUTF8] at taken
    simp only [text, List.append_assoc, lawful_size.reads _ _ fits]
    show (takeBytes _ _ >>= _) = _
    rw [taken]
    dsimp only [bind, Except.bind]
    rw [fromUTF8?_toUTF8]
  · rcases prefix_append_cases pre cut with ⟨pre, cut⟩ | ⟨more, rfl, pre, cut⟩
    · simp only [text, lawful_size.stops _ _ fits pre cut]
      rfl
    · have missing := takeBytes_cut pre cut
      rw [length_toUTF8] at missing
      simp only [text, lawful_size.reads _ _ fits]
      show (takeBytes _ _ >>= _) = _
      rw [missing]
      rfl

end Codec

end ObjectVM.Binary
