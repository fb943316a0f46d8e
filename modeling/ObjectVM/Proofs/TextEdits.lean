import ObjectVM.Proofs.EvaluationStack
import ObjectVM.Proofs.TextPlaces

/-!
# Edits of texts

An edit is asked for in characters (`TextEdit`): where it is, how many characters it takes, and what
it puts in. It gives what taking and dropping characters gives (`TextEdit.result`), or it does not
fit (`TextEdit.Fits`) and is refused for something that is wrong with it (`TextEdit.Wrong`); where
more than one thing is wrong, the opcode decides which of them it names.

* `passes_position`, `passes_count`, `passes_character`: the checks of single operands.
* `Asked.computes`: they make up all edits, each in its own order.
* `edits_count_characters`: what an edit does to the evaluation stack.
-/
namespace ObjectVM

open Text

/-- An edit of a text: a part that is kept, put in, taken out or replaced. -/
inductive TextEdit where
  | substring (pos : Int)
  | substringRange (pos len : Int)
  | insert (pos : Int) (t : String)
  | insertChar (pos code : Int)
  | erase (pos : Int)
  | eraseRange (pos len : Int)
  | replace (pos len : Int) (t : String)

namespace TextEdit

/-- How errors call the edit. -/
def name : TextEdit → String
  | substring .. => "strsub"
  | substringRange .. => "strsub2"
  | insert .. => "strist"
  | insertChar .. => "strist2"
  | erase .. => "strers"
  | eraseRange .. => "strers2"
  | replace .. => "strrplc"

/-- How many characters stay before the edit. -/
def position : TextEdit → Int
  | substring pos | substringRange pos _ | insert pos _ | insertChar pos _ | erase pos
  | eraseRange pos _ | replace pos _ _ => pos

/-- How many characters the edit takes, if that is asked for. -/
def length? : TextEdit → Option Int
  | substringRange _ len | eraseRange _ len | replace _ len _ => some len
  | _ => none

/-- The code point that the edit puts in, if it does. -/
def code? : TextEdit → Option Int
  | insertChar _ code => some code
  | _ => none

/-- What the edit makes of a text, in characters. -/
def result (cs : List Char) : TextEdit → List Char
  | substring pos => cs.drop pos.toNat
  | substringRange pos len => (cs.drop pos.toNat).take len.toNat
  | insert pos t => cs.take pos.toNat ++ t.toList ++ cs.drop pos.toNat
  | insertChar pos code => cs.take pos.toNat ++ [Char.ofNat code.toNat] ++ cs.drop pos.toNat
  | erase pos => cs.take pos.toNat
  | eraseRange pos len => cs.take pos.toNat ++ cs.drop (pos.toNat + len.toNat)
  | replace pos len t => cs.take pos.toNat ++ t.toList ++ cs.drop (pos.toNat + len.toNat)

/-- `edit.Asked op operands` when the opcode with these operands above a text asks for the edit. -/
inductive Asked : TextEdit → TextOp → List Value → Prop where
  | substring {p pos} (hp : p.integer? = some pos) : Asked (substring pos) .substring [p]
  | substringRange {p n pos len} (hp : p.integer? = some pos) (hn : n.integer? = some len) :
    Asked (substringRange pos len) .substringRange [p, n]
  | insert {p pos t} (hp : p.integer? = some pos) : Asked (insert pos t) .insert [p, .text t]
  | insertChar {p c pos code} (hp : p.integer? = some pos) (hc : c.integer? = some code) :
    Asked (insertChar pos code) .insertChar [p, c]
  | erase {p pos} (hp : p.integer? = some pos) : Asked (erase pos) .erase [p]
  | eraseRange {p n pos len} (hp : p.integer? = some pos) (hn : n.integer? = some len) :
    Asked (eraseRange pos len) .eraseRange [p, n]
  | replace {p n pos len t} (hp : p.integer? = some pos) (hn : n.integer? = some len) :
    Asked (replace pos len t) .replace [p, n, .text t]

/-- A number that is a character's code point. -/
def IsScalar (code : Int) : Prop := ∃ c : Char, code = c.toNat

/-- The edit can be made in a text of `n` characters. -/
structure Fits (edit : TextEdit) (n : Nat) : Prop where
  position : Within n edit.position
  length : ∀ len ∈ edit.length?, 0 ≤ len
  code : ∀ code ∈ edit.code?, IsScalar code

/-- The errors that say what is wrong with an edit of a text of `n` characters. -/
inductive Wrong (edit : TextEdit) (n : Nat) : ValueError → Prop where
  | position (out : ¬ Within n edit.position) : Wrong edit n (.indexOutOfRange edit.position n)
  | length {len} (asked : len ∈ edit.length?) (negative : len < 0) :
    Wrong edit n (.argument edit.name .negativeLength)
  | code {code} (asked : code ∈ edit.code?) (other : ¬ IsScalar code) :
    Wrong edit n (.argument edit.name .notACharacter)

/-- `edit.Passes n P a r` when `r` is the result `a` and `P` holds, or an error that says what is
wrong with the edit. -/
inductive Passes (edit : TextEdit) (n : Nat) (P : Prop) {α : Type} (a : α) :
    Except ValueError α → Prop where
  | passed (holds : P) : Passes edit n P a (.ok a)
  | refused {e} (wrong : edit.Wrong n e) : Passes edit n P a (.error e)

variable {edit : TextEdit} {n : Nat} {cs : List Char} {v p c : Value} {s t : String}
  {pos len code : Int}

theorem Wrong.not_fits {e : ValueError} (wrong : edit.Wrong n e) : ¬ edit.Fits n := by
  intro fits
  cases wrong with
  | position out => exact out fits.position
  | length asked negative => exact Int.not_lt_of_ge (fits.length _ asked) negative
  | code asked other => exact other (fits.code _ asked)

/-- A length is all that is asked for besides a position. -/
theorem Fits.of_length (within : Within n edit.position) (asked : edit.length? = some len)
    (low : 0 ≤ len) (noCode : edit.code? = none) : edit.Fits n where
  position := within
  length := by
    intro len' asked'
    rw [Option.mem_def, asked] at asked'
    exact Option.some.inj asked' ▸ low
  code := by
    intro code asked'
    rw [noCode] at asked'
    cases asked'

/-! ## Checks -/

theorem Passes.bind {α β : Type} {P Q : Prop} {a : α} {b : β} {x : Except ValueError α}
    {f : α → Except ValueError β} (first : edit.Passes n P a x)
    (rest : P → edit.Passes n Q b (f a)) : edit.Passes n Q b (x >>= f) := by
  cases first with
  | passed holds => exact rest holds
  | refused wrong => exact .refused wrong

/-- A check of an integral operand. -/
theorem passes_test {α : Type} {P : Prop} {C : Int → Prop} [DecidablePred C] {i : Int} {a : α}
    {f : Int → α} {e : Int → ValueError} {operation : String} (h : v.integer? = some i)
    (same : C i ↔ P) (result : f i = a) (wrong : ¬ P → edit.Wrong n (e i)) :
    edit.Passes n P a
      (v.asIndex operation >>= fun i => if C i then .ok (f i) else .error (e i)) := by
  unfold Value.asIndex
  rw [h]
  show edit.Passes n P a (if C i then .ok (f i) else .error (e i))
  split
  · exact result ▸ .passed (same.mp ‹_›)
  · exact .refused (wrong (mt same.mpr ‹_›))

theorem passes_position (edit : TextEdit) (h : v.integer? = some edit.position)
    (operation : String) :
    edit.Passes n (Within n edit.position) (UInt64.ofNat edit.position.toNat)
      (Texts.position operation n v) := by
  unfold Texts.position
  exact passes_test h Iff.rfl rfl .position

/-- A length is never too great for a word. -/
theorem passes_count (edit : TextEdit) (asked : len ∈ edit.length?) (h : v.integer? = some len) :
    edit.Passes n (0 ≤ len) (UInt64.ofNat len.toNat) (Texts.count edit.name v) := by
  unfold Texts.count
  exact passes_test h ⟨And.left, fun low => ⟨low, (Value.integer?_range h).2⟩⟩ rfl
    fun negative => .length asked (Int.not_le.mp negative)

theorem isScalar_iff (code : Int) : 0 ≤ code ∧ code.toNat.isValidChar ↔ IsScalar code := by
  constructor
  · rintro ⟨low, valid⟩
    exact ⟨.ofNatAux code.toNat valid, (Int.toNat_of_nonneg low).symm⟩
  · rintro ⟨c, rfl⟩
    exact ⟨Int.natCast_nonneg _, by rw [Int.toNat_natCast]; exact c.valid⟩

theorem passes_character (edit : TextEdit) (asked : code ∈ edit.code?)
    (h : v.integer? = some code) :
    edit.Passes n (IsScalar code) (Char.ofNat code.toNat) (Texts.character edit.name v) := by
  unfold Texts.character
  exact passes_test h (isScalar_iff code) rfl (.code asked)

/-! ## Edits -/

/-- `edit.Made s r` when the work `r` on `s` gives the result of the edit, which fits, or says what
is wrong with it. -/
def Made (edit : TextEdit) (s : String) (r : Except ValueError Value) : Prop :=
  edit.Passes s.length (edit.Fits s.length) (Value.text (.ofList (edit.result s.toList))) r

theorem Fits.made {r : String} (fits : edit.Fits s.length)
    (equal : r = .ofList (edit.result s.toList)) : edit.Made s (.ok (.text r)) :=
  equal ▸ .passed fits

theorem Made.of_fits {r : Except ValueError Value} (made : edit.Made s r)
    (fits : edit.Fits s.length) : r = .ok (.text (.ofList (edit.result s.toList))) := by
  cases made with
  | passed => rfl
  | refused wrong => exact absurd fits wrong.not_fits

theorem Made.of_misfit {r : Except ValueError Value} (made : edit.Made s r)
    (misfit : ¬ edit.Fits s.length) : ∃ e, edit.Wrong s.length e ∧ r = .error e := by
  cases made with
  | passed fits => exact absurd fits misfit
  | refused wrong => exact ⟨_, wrong, rfl⟩

section

variable (hp : p.integer? = some pos)
include hp

theorem made_substring : (substring pos).Made s (Texts.substring (.text s) p) := by
  refine (passes_position (substring pos) hp "strsub").bind fun within => ?_
  have rest := copy_sliceFrom_placeOf s (UInt64.ofNat pos.toNat)
  rw [toNat_word hp] at rest
  exact Fits.made ⟨within, nofun, nofun⟩ rest

theorem made_erase : (erase pos).Made s (Texts.erase (.text s) p) := by
  refine (passes_position (erase pos) hp "strers").bind fun within => ?_
  have front := copy_sliceTo_placeOf s (UInt64.ofNat pos.toNat)
  rw [toNat_word hp] at front
  exact Fits.made ⟨within, nofun, nofun⟩ front

variable (stored : Stored s)
include stored

theorem made_substringRange (hn : c.integer? = some len) :
    (substringRange pos len).Made s (Texts.substringRange (.text s) p c) := by
  refine (passes_position (substringRange pos len) hp "strsub2").bind fun within => ?_
  refine (passes_count _ rfl hn).bind fun low => ?_
  have inside := inside_stretch stored (UInt64.ofNat pos.toNat) (UInt64.ofNat len.toNat)
  rw [toNat_word hp, toNat_word hn] at inside
  exact Fits.made (.of_length within rfl low rfl) inside

/-- What stands around another text in place of a stretch. -/
theorem replace_words (hn : c.integer? = some len) (t : String) :
    (stretch s (UInt64.ofNat pos.toNat) (UInt64.ofNat len.toNat)).replace t =
      .ofList (s.toList.take pos.toNat ++ t.toList ++ s.toList.drop (pos.toNat + len.toNat)) := by
  rw [replace_stretch stored, toNat_word hp, toNat_word hn]

theorem made_replace (hn : c.integer? = some len) :
    (replace pos len t).Made s (Texts.replace (.text s) p c (.text t)) := by
  refine (passes_count (replace pos len t) rfl hn).bind fun low => ?_
  refine (passes_position _ hp "strrplc").bind fun within => ?_
  exact Fits.made (.of_length within rfl low rfl) (replace_words hp stored hn t)

theorem made_eraseRange (hn : c.integer? = some len) :
    (eraseRange pos len).Made s (Texts.eraseRange (.text s) p c) := by
  refine (passes_count (eraseRange pos len) rfl hn).bind fun low => ?_
  refine (passes_position _ hp "strers2").bind fun within => ?_
  have around := replace_words hp stored hn ""
  rw [String.toList_empty, List.append_nil] at around
  exact Fits.made (.of_length within rfl low rfl) around

/-- What stands around a text that is put in. -/
theorem insert_word (t : String) :
    (stretch s (UInt64.ofNat pos.toNat) 0).replace t =
      .ofList (s.toList.take pos.toNat ++ t.toList ++ s.toList.drop pos.toNat) := by
  rw [replace_stretch stored, toNat_word hp]
  rfl

theorem made_insert : (insert pos t).Made s (Texts.insert (.text s) p (.text t)) := by
  refine (passes_position (insert pos t) hp "strist").bind fun within => ?_
  exact Fits.made ⟨within, nofun, nofun⟩ (insert_word hp stored t)

theorem made_insertChar (hc : c.integer? = some code) :
    (insertChar pos code).Made s (Texts.insertChar (.text s) p c) := by
  refine (passes_character (insertChar pos code) rfl hc).bind fun scalar => ?_
  refine (passes_position _ hp "strist2").bind fun within => ?_
  have around := insert_word hp stored (.singleton (Char.ofNat code.toNat))
  rw [String.toList_singleton] at around
  exact Fits.made ⟨within, nofun, fun _ eq => Option.some.inj eq ▸ scalar⟩ around

end

/-- The opcode that is asked for an edit computes it. -/
theorem Asked.computes (stored : Stored s) {op : TextOp} {operands : List Value}
    (asked : edit.Asked op operands) :
    ∃ r, (ValueOp.text op).Computes (.text s) operands r ∧ edit.Made s r := by
  cases asked with
  | substring hp => exact ⟨_, ⟨1, _, #v[_], rfl, rfl, rfl⟩, made_substring hp⟩
  | substringRange hp hn =>
    exact ⟨_, ⟨2, _, #v[_, _], rfl, rfl, rfl⟩, made_substringRange hp stored hn⟩
  | insert hp => exact ⟨_, ⟨2, _, #v[_, _], rfl, rfl, rfl⟩, made_insert hp stored⟩
  | insertChar hp hc => exact ⟨_, ⟨2, _, #v[_, _], rfl, rfl, rfl⟩, made_insertChar hp stored hc⟩
  | erase hp => exact ⟨_, ⟨1, _, #v[_], rfl, rfl, rfl⟩, made_erase hp⟩
  | eraseRange hp hn => exact ⟨_, ⟨2, _, #v[_, _], rfl, rfl, rfl⟩, made_eraseRange hp stored hn⟩
  | replace hp hn => exact ⟨_, ⟨3, _, #v[_, _, _], rfl, rfl, rfl⟩, made_replace hp stored hn⟩

/-! ## Edits that come to the same -/

/-- Work that has the same results piece by piece has the same result, whatever its errors. -/
theorem toOption_bind {α β : Type} {x y : Except ValueError α} {f g : α → Except ValueError β}
    (first : x.toOption = y.toOption) (rest : ∀ a, (f a).toOption = (g a).toOption) :
    (x >>= f).toOption = (y >>= g).toOption := by
  cases x with
  | error =>
    cases y with
    | error => rfl
    | ok b => cases first
  | ok a =>
    cases y with
    | error => cases first
    | ok b =>
      obtain rfl : a = b := Option.some.inj first
      exact rest a

theorem toOption_asText (v : Value) (operation operation' : String) :
    (v.asText operation).toOption = (v.asText operation').toOption := by
  cases v <;> rfl

theorem toOption_asIndex (v : Value) (operation operation' : String) :
    (v.asIndex operation).toOption = (v.asIndex operation').toOption := by
  unfold Value.asIndex
  cases v.integer? <;> rfl

theorem toOption_count (v : Value) (operation operation' : String) :
    (Texts.count operation v).toOption = (Texts.count operation' v).toOption :=
  toOption_bind (toOption_asIndex v operation operation') fun i => by split <;> rfl

theorem toOption_position (n : Nat) (v : Value) (operation operation' : String) :
    (Texts.position operation n v).toOption = (Texts.position operation' n v).toOption :=
  toOption_bind (toOption_asIndex v operation operation') fun _ => rfl

/-- To erase is to put nothing in place; only the errors tell which of the two was asked for. -/
theorem toOption_eraseRange (v p c : Value) :
    (Texts.eraseRange v p c).toOption = (Texts.replace v p c (.text "")).toOption :=
  toOption_bind (toOption_count c "strers2" "strrplc") fun _ =>
    toOption_bind (toOption_asText v "strers2" "strrplc") fun s =>
      toOption_bind (toOption_position s.length p "strers2" "strrplc") fun _ => rfl

/-- What was put into a list is between what was before and behind. -/
theorem without_inserted {k : Nat} (le : k ≤ cs.length) (ts : List Char) :
    (cs.take k ++ ts ++ cs.drop k).take k ++
      (cs.take k ++ ts ++ cs.drop k).drop (k + ts.length) = cs := by
  have front : (cs.take k).length = k := List.length_take_of_le le
  rw [List.drop_left' (by rw [List.length_append, front]), List.append_assoc,
    List.take_left' front, List.take_append_drop]

theorem length_inserted {k : Nat} (le : k ≤ cs.length) (ts : List Char) :
    (cs.take k ++ ts ++ cs.drop k).length = cs.length + ts.length := by
  rw [List.length_append, List.length_append, List.length_take_of_le le, List.length_drop]
  omega

/-- What was put in is taken out again. -/
theorem eraseRange_insert (stored : Stored (s ++ t)) (hp : p.integer? = some pos)
    (within : Within s.length pos) (hn : c.integer? = some (t.length : Int)) :
    ∃ whole, Texts.insert (.text s) p (.text t) = .ok whole ∧
      Texts.eraseRange whole p c = .ok (.text s) := by
  unfold Stored at stored
  rw [String.length_append] at stored
  have le : pos.toNat ≤ s.toList.length := by
    rw [String.length_toList]
    exact Int.toNat_le.mpr within.2
  have stored_s : Stored s := Nat.lt_of_le_of_lt (Nat.le_add_right _ _) stored
  have inserted := (made_insert (t := t) hp stored_s).of_fits ⟨within, nofun, nofun⟩
  refine ⟨_, inserted, ?_⟩
  generalize whole_eq : String.ofList ((insert pos t).result s.toList) = whole
  have restored : (eraseRange pos t.length).result whole.toList = s.toList := by
    rw [← whole_eq, String.toList_ofList, ← String.length_toList]
    exact without_inserted le t.toList
  have length : whole.length = s.length + t.length := by
    rw [← whole_eq, String.length_ofList, ← String.length_toList (s := s),
      ← String.length_toList (s := t)]
    exact length_inserted le t.toList
  have erased := (made_eraseRange hp (length.trans_lt stored) hn).of_fits
    (.of_length ⟨within.1, within.2.trans (by omega)⟩ rfl (Int.natCast_nonneg _) rfl)
  rw [erased, restored, String.ofList_toList]

end TextEdit

/-- Where a text lies below the operands of an edit that fits it, the opcode puts in its place what
taking and dropping characters makes of it. Where the edit does not fit, the opcode fails with
something that is wrong with it, the operands are gone and the text is as it was. To erase is to put
nothing in place, and what was put in may be erased again. -/
theorem edits_count_characters :
    (∀ (edit : TextEdit) (op : TextOp) (operands : List Value), edit.Asked op operands →
      ∀ s, Stored s → ∀ (p : Process) (f : Frame) (i : Instruction) (below : List Value),
        p.calls.top? = some f → i.op = .value (.text op) →
        f.values = operands.reverse ++ .text s :: below →
        (edit.Fits s.length → Exec.execute i p = .ok () (p.withStacks f
          (.text (.ofList (edit.result s.toList)) :: below) p.objects)) ∧
        (¬ edit.Fits s.length → ∃ e, edit.Wrong s.length e ∧
          Exec.execute i p = .error (.value e) (p.withStacks f (.text s :: below) p.objects))) ∧
    (∀ v p n, (Texts.eraseRange v p n).toOption = (Texts.replace v p n (.text "")).toOption) ∧
    ∀ (s t : String) (p n : Value) (pos : Int), Stored (s ++ t) → p.integer? = some pos →
      Within s.length pos → n.integer? = some (t.length : Int) →
      ∃ whole, Texts.insert (.text s) p (.text t) = .ok whole ∧
        Texts.eraseRange whole p n = .ok (.text s) := by
  refine ⟨?_, TextEdit.toOption_eraseRange,
    fun _ _ _ _ _ stored hp within hn => TextEdit.eraseRange_insert stored hp within hn⟩
  intro edit op operands asked s stored p f i below top instructed there
  obtain ⟨r, computes, made⟩ := asked.computes stored
  constructor
  · intro fits
    rw [made.of_fits fits] at computes
    exact Exec.execute_computes instructed computes top there
  · intro misfit
    obtain ⟨e, wrong, refused⟩ := made.of_misfit misfit
    rw [refused] at computes
    exact ⟨e, wrong, Exec.execute_refuses instructed computes top there⟩

/-- The length reaches past the end of the text and the greatest word; a length and a position are
both wrong; and characters of two, three and four bytes are put in and taken out. -/
theorem edits_count_characters_beyond : ∃ f, (Process.ranFor pushing 2).calls.top? = some f ∧
    Exec.execute (.ofOp (.value (.text .replace))) ((Process.ranFor pushing 2).withStacks f
        [.text "日本", .ofInt .uint64 (2 ^ 64 - 1), .ofInt .int8 1, .text "é😀a"] []) =
      .ok () ((Process.ranFor pushing 2).withStacks f [.text "é日本"] []) ∧
    (∃ e, TextEdit.Wrong (.eraseRange 4 (-1)) 3 e ∧
      Exec.execute (.ofOp (.value (.text .eraseRange))) ((Process.ranFor pushing 2).withStacks f
          [.ofInt .int8 (-1), .ofInt .uint8 4, .text "é😀a"] []) =
        .error (.value e) ((Process.ranFor pushing 2).withStacks f [.text "é😀a"] [])) ∧
    ∃ whole, Texts.insert (.text "é😀a") (.ofInt .int8 1) (.text "日本") = .ok whole ∧
      Texts.eraseRange whole (.ofInt .int8 1) (.ofInt .uint64 2) = .ok (.text "é😀a") := by
  have running : ((Process.ranFor pushing 2).calls.top?).isSome := by decide +kernel
  generalize Process.ranFor pushing 2 = p at *
  obtain ⟨f, top⟩ := Option.isSome_iff_exists.mp running
  obtain ⟨edits, -, restores⟩ := edits_count_characters
  have length : "é😀a".length = 3 := by decide +kernel
  have stored : Stored "é😀a" := by decide +kernel
  refine ⟨f, top, ?_, ?_, ?_⟩
  · have asked : (TextEdit.replace 1 (2 ^ 64 - 1) "日本").Asked .replace
        [.ofInt .int8 1, .ofInt .uint64 (2 ^ 64 - 1), .text "日本"] := .replace rfl rfl
    have made := (edits _ _ _ asked _ stored _ _ (.ofOp (.value (.text .replace))) []
      (Process.top?_withStacks top _ []) rfl rfl).1
      ⟨⟨by decide, by rw [length]; decide⟩, by decide, nofun⟩
    have result : String.ofList ((TextEdit.replace 1 (2 ^ 64 - 1) "日本").result "é😀a".toList) =
        "é日本" := by decide +kernel
    rw [Process.withStacks_withStacks, result] at made
    exact made
  · have asked : (TextEdit.eraseRange 4 (-1)).Asked .eraseRange
        [.ofInt .uint8 4, .ofInt .int8 (-1)] := .eraseRange rfl rfl
    have refused := (edits _ _ _ asked _ stored _ _ (.ofOp (.value (.text .eraseRange))) []
      (Process.top?_withStacks top _ []) rfl rfl).2
      fun fits => absurd (fits.length (-1) rfl) (by decide)
    rw [Process.withStacks_withStacks, length] at refused
    exact refused
  · exact restores "é😀a" "日本" (.ofInt .int8 1) (.ofInt .uint64 2) 1 (by decide +kernel) rfl
      ⟨by decide, by rw [length]; decide⟩ rfl

end ObjectVM
