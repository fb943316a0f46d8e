import ObjectVM.Json.Numeral

/-!
# Tokens of JSON texts

A JSON text cut into marks, words, numerals and strings, with blanks between them. Inside a string a
backslash starts an escape; escapes for code units have to pair up to spell a text.
-/
namespace ObjectVM.Json

/-- A token. A string whose escapes spell no text is kept as such. -/
inductive Token where
  | openObject
  | closeObject
  | openArray
  | closeArray
  | comma
  | colon
  | null
  | bool (b : Bool)
  | numeral (n : Numeral)
  | string (s : Option String)
  deriving DecidableEq, Repr

/-- A piece of a string: a character, or a code unit given by its number. -/
inductive Piece where
  | char (c : Char)
  | unit (n : Nat)
  deriving DecidableEq, Repr

namespace Piece

/-- Whether a code unit is the first of a pair. -/
def isHigh (n : Nat) : Bool := 0xd800 ≤ n && n < 0xdc00

/-- Whether a code unit is the second of a pair. -/
def isLow (n : Nat) : Bool := 0xdc00 ≤ n && n < 0xe000

/-- The text that pieces spell behind the characters in `done`, of which the last comes first. Each
first code unit of a pair needs its second directly behind it. -/
def spell (done : List Char) : List Piece → Option (List Char)
  | [] => some done.reverse
  | .char c :: rest => spell (c :: done) rest
  | .unit n :: .unit m :: rest =>
    if isHigh n && isLow m then
      spell (Char.ofNat (0x10000 + (n - 0xd800) * 0x400 + (m - 0xdc00)) :: done) rest
    else if isHigh n || isLow n then none
    else spell (Char.ofNat n :: done) (.unit m :: rest)
  | .unit n :: rest =>
    if isHigh n || isLow n then none else spell (Char.ofNat n :: done) rest

end Piece

namespace Token

/-- Whether a character may stand between tokens. -/
def isBlank (c : Char) : Bool := c = ' ' || c = '\n' || c = '\t' || c = '\r'

/-- The value of a hexadecimal digit. -/
def hexValue? (c : Char) : Option Nat :=
  if Decimal.isDigit c then some (c.toNat - 48)
  else if 'a' ≤ c && c ≤ 'f' then some (c.toNat - 87)
  else if 'A' ≤ c && c ≤ 'F' then some (c.toNat - 55)
  else none

/-- The number that four hexadecimal digits spell. -/
def unitOf? (a b c d : Char) : Option Nat := do
  some ((((← hexValue? a) * 16 + (← hexValue? b)) * 16 + (← hexValue? c)) * 16 + (← hexValue? d))

/-- What a backslash and a letter stand for. -/
def escaped? (c : Char) : Option Char :=
  if c = '"' ∨ c = '\\' ∨ c = '/' then some c
  else if c = 'b' then some '\x08'
  else if c = 'f' then some '\x0c'
  else if c = 'n' then some '\n'
  else if c = 'r' then some '\r'
  else if c = 't' then some '\t'
  else none

/-- Reads a string behind its opening quote, up to the closing one. Control characters are not
allowed. The pieces read so far come last first. -/
def readString (done : List Piece) : List Char → Option (List Piece × List Char)
  | [] => none
  | '"' :: rest => some (done.reverse, rest)
  | '\\' :: 'u' :: a :: b :: c :: d :: rest =>
    match unitOf? a b c d with
    | some n => readString (.unit n :: done) rest
    | none => none
  | '\\' :: c :: rest =>
    match escaped? c with
    | some c => readString (.char c :: done) rest
    | none => none
  | c :: rest =>
    if c = '\\' ∨ c.toNat < 0x20 then none else readString (.char c :: done) rest

/-- The token that starts with `c` and goes on in `cs`, and what follows it. -/
def take (c : Char) (cs : List Char) : Option (Token × List Char) :=
  match c, cs with
  | '\x7b', _ => some (.openObject, cs)
  | '\x7d', _ => some (.closeObject, cs)
  | '[', _ => some (.openArray, cs)
  | ']', _ => some (.closeArray, cs)
  | ',', _ => some (.comma, cs)
  | ':', _ => some (.colon, cs)
  | 'n', 'u' :: 'l' :: 'l' :: rest => some (.null, rest)
  | 't', 'r' :: 'u' :: 'e' :: rest => some (.bool true, rest)
  | 'f', 'a' :: 'l' :: 's' :: 'e' :: rest => some (.bool false, rest)
  | '"', _ =>
    (readString [] cs).map fun (pieces, rest) =>
      (.string ((Piece.spell [] pieces).map String.ofList), rest)
  | _, _ => (Numeral.take (c :: cs)).map fun (n, rest) => (.numeral n, rest)

theorem readString_length {done ps : List Piece} {cs rest : List Char}
    (h : readString done cs = some (ps, rest)) : rest.length < cs.length := by
  fun_induction readString done cs with
  | case1 => simp at h
  | case2 => simp_all
  | case3 _ _ _ _ _ _ _ _ ih => have := ih h; simp only [List.length_cons]; omega
  | case4 => simp at h
  | case5 _ _ _ _ _ _ ih => have := ih h; simp only [List.length_cons]; omega
  | case6 => simp at h
  | case7 => simp at h
  | case8 _ _ _ _ _ _ _ ih => have := ih h; simp only [List.length_cons]; omega

/-- A token leaves a shorter text. -/
theorem take_length {c : Char} {cs rest : List Char} {t : Token}
    (h : take c cs = some (t, rest)) : rest.length ≤ cs.length := by
  unfold take at h
  split at h
  case h_10 =>
    obtain ⟨⟨ps, r⟩, hs, h⟩ := Option.map_eq_some_iff.mp h
    have := readString_length hs
    grind
  case h_11 =>
    obtain ⟨⟨n, r⟩, hn, h⟩ := Option.map_eq_some_iff.mp h
    have := Numeral.take_length hn
    grind
  all_goals grind

/-- Cuts a text into tokens, behind those in `done`, of which the last comes first. -/
def cut (done : List Token) : List Char → Option (List Token)
  | [] => some done.reverse
  | c :: cs =>
    if isBlank c then cut done cs
    else
      match h : take c cs with
      | some (t, rest) =>
        have : rest.length ≤ cs.length := take_length h
        cut (t :: done) rest
      | none => none
termination_by cs => cs.length

/-- The tokens of a text. -/
def ofText? (s : String) : Option (List Token) := cut [] s.toList

end Token

end ObjectVM.Json
