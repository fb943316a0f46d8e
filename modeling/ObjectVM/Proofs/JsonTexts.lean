import ObjectVM.Proofs.NumeralLaws

/-!
# JSON trees and their texts

A tree is read back from its own text (`Tree.ofText?_text`): its strings spell what they spelled,
its numerals are kept, and its arrays and objects hold the same in the same order. The text is cut
into the tokens of the tree, whatever the depth that it is printed at (`Token.cut_print`), and a
reader that expects a value takes the tokens of a tree for that tree, whatever is open around it
(`Reader.takes_tokens`).

A tree is `Written` if its strings are texts and its numerals well-formed.
-/
namespace ObjectVM.Json

/-! ## Strings -/

/-- What a string holds in place of a character: a control character without a letter of its own
is given by its number. -/
def Piece.ofChar (c : Char) : Piece :=
  if (escape c).length = 6 then .unit c.toNat else .char c

namespace Token

/-- A character that is escaped by a letter, and one that is escaped by its number. -/
inductive Escaped (c : Char) : Prop where
  | letter (l : Char) (written : escape c = ['\\', l]) (other : l ≠ 'u')
      (read : escaped? l = some c)
  | number (a b d e : Char) (written : escape c = ['\\', 'u', a, b, d, e])
      (read : unitOf? a b d e = some c.toNat) (low : c.toNat < 0x20)
  | plain (written : escape c = [c]) (quote : c ≠ '"') (backslash : c ≠ '\\')
      (high : ¬ c.toNat < 0x20)

theorem escape_control : ∀ n < 0x20, let c := Char.ofNat n
    (['b', 'f', 'n', 'r', 't'].any fun l => escape c = ['\\', l] ∧ escaped? l = some c) = true ∨
    (let d := Nat.digitChar (n / 16)
     let e := Nat.digitChar (n % 16)
     escape c = ['\\', 'u', '0', '0', d, e] ∧ unitOf? '0' '0' d e = some c.toNat) := by
  decide

theorem escaped (c : Char) : Escaped c := by
  by_cases low : c.toNat < 0x20
  · have control := escape_control c.toNat low
    rw [Char.ofNat_toNat] at control
    rcases control with letters | ⟨written, read⟩
    · obtain ⟨l, hl, both⟩ := List.any_eq_true.mp letters
      obtain ⟨written, read⟩ := of_decide_eq_true both
      refine .letter l written ?_ read
      rintro rfl
      simp at hl
    · exact .number _ _ _ _ written read low
  · by_cases quote : c = '"'
    · subst quote
      exact .letter '"' rfl (by decide) rfl
    · by_cases backslash : c = '\\'
      · subst backslash
        exact .letter '\\' rfl (by decide) rfl
      · refine .plain ?_ quote backslash low
        have above : ∀ d : Char, d.toNat < 0x20 → c ≠ d := by
          rintro d hd rfl
          exact low hd
        simp [escape, quote, backslash, low, above _ (show '\x08'.toNat < 0x20 by decide),
          above _ (show '\x0c'.toNat < 0x20 by decide), above _ (show '\n'.toNat < 0x20 by decide),
          above _ (show '\r'.toNat < 0x20 by decide), above _ (show '\t'.toNat < 0x20 by decide)]

theorem readString_escape (done : List Piece) (c : Char) (rest : List Char) :
    readString done (escape c ++ rest) = readString (Piece.ofChar c :: done) rest := by
  cases escaped c with
  | letter l written other read =>
    simp [written, Piece.ofChar, readString, read, other]
  | number a b d e written read low =>
    simp [written, Piece.ofChar, readString, read]
  | plain written quote backslash high =>
    simp [written, Piece.ofChar, readString, backslash, high]

/-- A string is read up to its closing quote. -/
theorem readString_quoted (done : List Piece) (cs rest : List Char) :
    readString done (cs.flatMap escape ++ '"' :: rest) =
      some (done.reverse ++ cs.map Piece.ofChar, rest) := by
  induction cs generalizing done with
  | nil => simp [readString]
  | cons c cs ih =>
    rw [List.flatMap_cons, List.append_assoc, readString_escape, ih]
    simp

end Token

namespace Piece

theorem spell_char (done : List Char) (c : Char) (pieces : List Piece) :
    spell done (.char c :: pieces) = spell (c :: done) pieces := by
  rw [spell]

/-- A code unit below the pairs spells a character of its own. -/
theorem spell_unit {n : Nat} (low : n < 0xd800) (done : List Char) (pieces : List Piece) :
    spell done (.unit n :: pieces) = spell (Char.ofNat n :: done) pieces := by
  have first : isHigh n = false := by
    simp [isHigh]
    omega
  have second : isLow n = false := by
    simp [isLow]
    omega
  rcases pieces with _ | ⟨_ | m, pieces⟩ <;> simp [spell, first, second]

/-- What a string holds in place of characters spells them. -/
theorem spell_ofChar (done cs : List Char) :
    spell done (cs.map ofChar) = some (done.reverse ++ cs) := by
  induction cs generalizing done with
  | nil => simp [spell]
  | cons c cs ih =>
    rw [List.map_cons]
    cases Token.escaped c with
    | letter l written _ _ => simp [ofChar, written, spell_char, ih]
    | number a b d e written _ low =>
      simp [ofChar, written, spell_unit (show c.toNat < 0xd800 by omega), ih]
    | plain written _ _ _ => simp [ofChar, written, spell_char, ih]

end Piece

/-! ## Cutting texts -/

namespace Token

theorem cut_nil (done : List Token) : cut done [] = some done.reverse := by
  rw [cut]

theorem cut_blank {c : Char} (blank : isBlank c = true) (done : List Token) (cs : List Char) :
    cut done (c :: cs) = cut done cs := by
  rw [cut, if_pos blank]

theorem cut_take {c : Char} {cs rest : List Char} {t : Token} (solid : isBlank c = false)
    (taken : take c cs = some (t, rest)) (done : List Token) :
    cut done (c :: cs) = cut (t :: done) rest := by
  rw [cut, if_neg (by simp [solid])]
  split
  · rename_i taken'
    cases taken.symm.trans taken'
    rfl
  · rename_i none
    cases none.symm.trans taken

theorem cut_newLine (done : List Token) (depth : Nat) (rest : List Char) :
    cut done (newLine depth ++ rest) = cut done rest := by
  have blanks : ∀ n, cut done (List.replicate n ' ' ++ rest) = cut done rest := by
    intro n
    induction n with
    | zero => rfl
    | succ n ih => rw [List.replicate_succ, List.cons_append, cut_blank rfl, ih]
  rw [newLine, List.cons_append, cut_blank rfl, blanks]

theorem cut_quote (done : List Token) (s : String) (rest : List Char) :
    cut done (quote s ++ rest) = cut (.string (some s) :: done) rest := by
  have text : quote s ++ rest = '"' :: (s.toList.flatMap escape ++ '"' :: rest) := by
    simp [quote]
  rw [text]
  refine cut_take rfl ?_ done
  simp [take, readString_quoted, Piece.spell_ofChar]

/-- No other token starts with a digit or a minus sign. -/
theorem take_digit {c : Char} {cs rest : List Char} {n : Numeral}
    (first : Decimal.isDigit c = true ∨ c = '-')
    (taken : Numeral.take (c :: cs) = some (n, rest)) : take c cs = some (.numeral n, rest) := by
  unfold take
  split
  case h_11 => simp [taken]
  all_goals simp [Decimal.isDigit] at first

theorem isBlank_digit {c : Char} (first : Decimal.isDigit c = true ∨ c = '-') :
    isBlank c = false := by
  have apart : ∀ d, isBlank d = true → ¬ (Decimal.isDigit d = true ∨ d = '-') := by
    intro d blank
    simp only [isBlank, Bool.or_eq_true, decide_eq_true_eq] at blank
    rcases blank with ((rfl | rfl) | rfl) | rfl <;> decide
  exact Bool.eq_false_iff.mpr fun blank => apart c blank first

theorem cut_numeral {n : Numeral} (h : n.WellFormed) (done : List Token) {rest : List Char}
    (stop : Numeral.Ends rest) : cut done (n.text ++ rest) = cut (.numeral n :: done) rest := by
  obtain ⟨c, cs, text, first⟩ := Numeral.head_text h
  have taken := Numeral.take_text h stop
  rw [text, List.cons_append] at taken ⊢
  exact cut_take (isBlank_digit first) (take_digit first taken) done

end Token

namespace Tree

/-- The strings of a tree are texts, and its numerals are well-formed. -/
inductive Written : Tree → Prop where
  | null : Written .null
  | bool (b : Bool) : Written (.bool b)
  | numeral {n : Numeral} (h : n.WellFormed) : Written (.numeral n)
  | string (s : String) : Written (.string (some s))
  | array {ts : List Tree} (items : ∀ t ∈ ts, Written t) : Written (.array ts)
  | object {es : List (Option String × Tree)} (keys : ∀ e ∈ es, e.1.isSome = true)
      (values : ∀ e ∈ es, Written e.2) : Written (.object es)

mutual

/-- The tokens of a tree. -/
def tokens : Tree → List Token
  | .null => [.null]
  | .bool b => [.bool b]
  | .numeral n => [.numeral n]
  | .string s => [.string s]
  | .array [] => [.openArray, .closeArray]
  | .array (t :: ts) => .openArray :: tokens t ++ itemTokens ts ++ [.closeArray]
  | .object [] => [.openObject, .closeObject]
  | .object ((key, t) :: es) =>
    .openObject :: .string key :: .colon :: tokens t ++ entryTokens es ++ [.closeObject]

/-- The tokens of the items behind the first. -/
def itemTokens : List Tree → List Token
  | [] => []
  | t :: ts => .comma :: tokens t ++ itemTokens ts

/-- The tokens of the entries behind the first. -/
def entryTokens : List (Option String × Tree) → List Token
  | [] => []
  | (key, t) :: es => .comma :: .string key :: .colon :: tokens t ++ entryTokens es

end

end Tree

namespace Token

open Numeral (Ends ends_cons)

/-- The text of a tree is cut into the tokens of the tree, at any depth and in front of any text
that does not go on with a numeral. -/
def CutsTo (t : Tree) : Prop :=
  ∀ depth done rest, Ends rest →
    cut done (t.print depth ++ rest) = cut (t.tokens.reverse ++ done) rest

theorem cut_mark {c : Char} {t : Token} (solid : isBlank c = false)
    (mark : ∀ cs, take c cs = some (t, cs)) (done : List Token) (cs : List Char) :
    cut done (c :: cs) = cut (t :: done) cs :=
  cut_take solid (mark cs) done

theorem ends_newLine (depth : Nat) (rest : List Char) : Ends (newLine depth ++ rest) :=
  ends_cons (by decide)

theorem ends_printItems (depth : Nat) (ts : List Tree) {rest : List Char} (stop : Ends rest) :
    Ends (Tree.printItems depth ts ++ rest) := by
  cases ts with
  | nil => simpa [Tree.printItems] using stop
  | cons t ts => exact ends_cons (by decide)

theorem ends_printEntries (depth : Nat) (es : List (Option String × Tree)) {rest : List Char}
    (stop : Ends rest) : Ends (Tree.printEntries depth es ++ rest) := by
  cases es with
  | nil => simpa [Tree.printEntries] using stop
  | cons e es => exact ends_cons (by decide)

theorem cut_printItems {ts : List Tree} (items : ∀ t ∈ ts, CutsTo t) (depth : Nat)
    (done : List Token) {rest : List Char} (stop : Ends rest) :
    cut done (Tree.printItems depth ts ++ rest) =
      cut ((Tree.itemTokens ts).reverse ++ done) rest := by
  induction ts generalizing done with
  | nil => simp [Tree.printItems, Tree.itemTokens]
  | cons t ts ih =>
    have first := items t List.mem_cons_self depth (.comma :: done)
      (Tree.printItems depth ts ++ rest) (ends_printItems depth ts stop)
    have others := ih (fun u hu => items u (List.mem_cons_of_mem t hu))
    simp only [Tree.printItems, Tree.itemTokens, List.append_assoc, List.cons_append]
    rw [cut_mark rfl (fun _ => rfl), cut_newLine, first, others]
    simp

theorem cut_printEntries {es : List (Option String × Tree)} (keys : ∀ e ∈ es, e.1.isSome = true)
    (values : ∀ e ∈ es, CutsTo e.2) (depth : Nat) (done : List Token) {rest : List Char}
    (stop : Ends rest) :
    cut done (Tree.printEntries depth es ++ rest) =
      cut ((Tree.entryTokens es).reverse ++ done) rest := by
  induction es generalizing done with
  | nil => simp [Tree.printEntries, Tree.entryTokens]
  | cons e es ih =>
    obtain ⟨key, t⟩ := e
    obtain ⟨key, rfl⟩ := Option.isSome_iff_exists.mp (keys _ List.mem_cons_self)
    have first := values _ List.mem_cons_self depth (.colon :: .string (some key) :: .comma :: done)
      (Tree.printEntries depth es ++ rest) (ends_printEntries depth es stop)
    have others := ih (fun e he => keys e (List.mem_cons_of_mem _ he))
      (fun e he => values e (List.mem_cons_of_mem _ he))
    simp only [Tree.printEntries, Tree.entryTokens, List.append_assoc, List.cons_append,
      Option.getD_some]
    rw [cut_mark rfl (fun _ => rfl), cut_newLine, cut_quote, cut_mark rfl (fun _ => rfl),
      cut_blank rfl, first, others]
    simp

theorem cut_print {t : Tree} (written : t.Written) : CutsTo t := by
  intro depth done rest stop
  induction written generalizing depth done rest with
  | null => exact cut_take rfl rfl done
  | bool b => cases b <;> exact cut_take rfl rfl done
  | numeral h => exact cut_numeral h done stop
  | string s => exact cut_quote done s rest
  | array items ih =>
    rename_i ts
    cases ts with
    | nil =>
      simp only [Tree.print, Tree.tokens, List.cons_append, List.nil_append]
      rw [cut_mark rfl (fun _ => rfl), cut_mark rfl (fun _ => rfl)]
      rfl
    | cons t ts =>
      have close : Ends (newLine depth ++ ']' :: rest) := ends_newLine depth _
      have first := ih t List.mem_cons_self (depth + 1) (.openArray :: done) _
        (ends_printItems (depth + 1) ts close)
      have others := fun done => cut_printItems (fun u hu => ih u (List.mem_cons_of_mem t hu))
        (depth + 1) done close
      simp only [Tree.print, Tree.tokens, List.append_assoc, List.cons_append, List.nil_append]
      rw [cut_mark rfl (fun _ => rfl), cut_newLine, first, others, cut_newLine,
        cut_mark rfl (fun _ => rfl)]
      simp
  | object keys values ih =>
    rename_i es
    cases es with
    | nil =>
      simp only [Tree.print, Tree.tokens, List.cons_append, List.nil_append]
      rw [cut_mark rfl (fun _ => rfl), cut_mark rfl (fun _ => rfl)]
      rfl
    | cons e es =>
      obtain ⟨key, t⟩ := e
      obtain ⟨key, rfl⟩ := Option.isSome_iff_exists.mp (keys _ List.mem_cons_self)
      have close : Ends (newLine depth ++ '\x7d' :: rest) := ends_newLine depth _
      have first := ih _ List.mem_cons_self (depth + 1)
        (.colon :: .string (some key) :: .openObject :: done) _
        (ends_printEntries (depth + 1) es close)
      have others := fun done => cut_printEntries (fun e he => keys e (List.mem_cons_of_mem _ he))
        (fun e he => ih e (List.mem_cons_of_mem _ he)) (depth + 1) done close
      simp only [Tree.print, Tree.tokens, List.append_assoc, List.cons_append, List.nil_append,
        Option.getD_some]
      rw [cut_mark rfl (fun _ => rfl), cut_newLine, cut_quote, cut_mark rfl (fun _ => rfl),
        cut_blank rfl, first, others, cut_newLine, cut_mark rfl (fun _ => rfl)]
      simp

end Token

/-! ## Reading tokens -/

namespace Reader

/-- A reader takes the tokens of a tree for the tree, where a value is expected, alone or as the
first item of an array, and whatever is open around it. -/
def Takes (t : Tree) : Prop :=
  ∀ stage ∈ [Stage.value, .firstItem], ∀ opened rest,
    (t.tokens ++ rest).foldlM accept ⟨opened, stage⟩ = rest.foldlM accept (supply t opened)

theorem foldlM_cons_some {r s : Reader} {t : Token} (taken : r.accept t = some s)
    (rest : List Token) : (t :: rest).foldlM accept r = rest.foldlM accept s := by
  rw [List.foldlM_cons, taken]
  rfl

theorem takes_itemTokens {ts : List Tree} (items : ∀ t ∈ ts, Takes t) (done : List Tree)
    (opened : List Opened) (rest : List Token) :
    (Tree.itemTokens ts ++ .closeArray :: rest).foldlM accept ⟨.array done :: opened, .next⟩ =
      rest.foldlM accept (supply (.array (done.reverse ++ ts)) opened) := by
  induction ts generalizing done with
  | nil =>
    rw [List.append_nil]
    exact foldlM_cons_some rfl rest
  | cons t ts ih =>
    have first := items t List.mem_cons_self .value (by simp) (.array done :: opened)
      (Tree.itemTokens ts ++ .closeArray :: rest)
    have others := ih (fun u hu => items u (List.mem_cons_of_mem t hu)) (t :: done)
    simp only [Tree.itemTokens, List.append_assoc, List.cons_append]
    rw [foldlM_cons_some (s := ⟨.array done :: opened, .value⟩) rfl, first, supply, others]
    simp

theorem takes_entryTokens {es : List (Option String × Tree)} (values : ∀ e ∈ es, Takes e.2)
    (done : List (Option String × Tree)) (opened : List Opened) (rest : List Token) :
    (Tree.entryTokens es ++ .closeObject :: rest).foldlM accept
        ⟨.object done none :: opened, .next⟩ =
      rest.foldlM accept (supply (.object (done.reverse ++ es)) opened) := by
  induction es generalizing done with
  | nil =>
    rw [List.append_nil]
    exact foldlM_cons_some rfl rest
  | cons e es ih =>
    obtain ⟨key, t⟩ := e
    have first := values _ List.mem_cons_self .value (by simp) (.object done key :: opened)
      (Tree.entryTokens es ++ .closeObject :: rest)
    have others := ih (fun e he => values e (List.mem_cons_of_mem _ he)) ((key, t) :: done)
    simp only [Tree.entryTokens, List.append_assoc, List.cons_append]
    rw [foldlM_cons_some (s := ⟨.object done none :: opened, .key⟩) rfl,
      foldlM_cons_some (s := ⟨.object done key :: opened, .colon⟩) rfl,
      foldlM_cons_some (s := ⟨.object done key :: opened, .value⟩) rfl, first, supply, others]
    simp

/-- A token that is a value by itself is taken for it. -/
theorem takes_single {t : Tree} {token : Token} (tokens : t.tokens = [token])
    (begins : ∀ opened, beginValue opened token = some (supply t opened))
    (solid : token ≠ .closeArray) : Takes t := by
  intro stage hs opened rest
  rw [tokens, List.singleton_append]
  refine foldlM_cons_some ?_ rest
  simp only [List.mem_cons, List.not_mem_nil, or_false] at hs
  rcases hs with rfl | rfl
  · exact begins opened
  · rw [← begins opened]
    cases token with
    | closeArray => exact absurd rfl solid
    | _ => rfl

theorem takes_tokens (t : Tree) (written : t.Written) : Takes t := by
  induction written with
  | null => exact takes_single rfl (fun _ => rfl) nofun
  | bool b => exact takes_single rfl (fun _ => rfl) nofun
  | numeral h => exact takes_single rfl (fun _ => rfl) nofun
  | string s => exact takes_single rfl (fun _ => rfl) nofun
  | array items ih =>
    rename_i ts
    intro stage hs opened rest
    have start : (⟨opened, stage⟩ : Reader).accept .openArray =
        some ⟨.array [] :: opened, .firstItem⟩ := by
      simp only [List.mem_cons, List.not_mem_nil, or_false] at hs
      rcases hs with rfl | rfl <;> rfl
    cases ts with
    | nil => exact (foldlM_cons_some start _).trans (foldlM_cons_some rfl rest)
    | cons t ts =>
      have first := ih t List.mem_cons_self .firstItem (by simp) (.array [] :: opened)
        (Tree.itemTokens ts ++ .closeArray :: rest)
      have others := takes_itemTokens (fun u hu => ih u (List.mem_cons_of_mem t hu)) [t] opened rest
      simp only [Tree.tokens, List.append_assoc, List.cons_append, List.nil_append]
      rw [foldlM_cons_some start, first, supply, others]
      rfl
  | object keys values ih =>
    rename_i es
    intro stage hs opened rest
    have start : (⟨opened, stage⟩ : Reader).accept .openObject =
        some ⟨.object [] none :: opened, .firstKey⟩ := by
      simp only [List.mem_cons, List.not_mem_nil, or_false] at hs
      rcases hs with rfl | rfl <;> rfl
    cases es with
    | nil => exact (foldlM_cons_some start _).trans (foldlM_cons_some rfl rest)
    | cons e es =>
      obtain ⟨key, t⟩ := e
      have first := ih _ List.mem_cons_self .value (by simp) (.object [] key :: opened)
        (Tree.entryTokens es ++ .closeObject :: rest)
      have others := takes_entryTokens (fun e he => ih e (List.mem_cons_of_mem _ he)) [(key, t)]
        opened rest
      simp only [Tree.tokens, List.append_assoc, List.cons_append, List.nil_append]
      rw [foldlM_cons_some start, foldlM_cons_some (s := ⟨.object [] key :: opened, .colon⟩) rfl,
        foldlM_cons_some (s := ⟨.object [] key :: opened, .value⟩) rfl, first, supply, others]
      rfl

end Reader

/-- A tree is read back from its own text. -/
theorem Tree.ofText?_text {t : Tree} (written : t.Written) : ofText? t.text = some t := by
  have cut := Token.cut_print written 0 [] [] Numeral.ends_nil
  have taken := Reader.takes_tokens t written .value (by simp) [] []
  simp only [List.append_nil] at cut taken
  have tokens : Token.ofText? t.text = some t.tokens := by
    rw [Token.ofText?, text, String.toList_ofList, cut, Token.cut_nil, List.reverse_reverse]
  simp only [ofText?, tokens, ofTokens?, Reader.start, bind, Option.bind_some, taken]
  rfl

end ObjectVM.Json
