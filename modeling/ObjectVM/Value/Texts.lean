import ObjectVM.Text.Blank
import ObjectVM.Text.Case
import ObjectVM.Text.Order
import ObjectVM.Text.Search
import ObjectVM.Text.Stretch
import ObjectVM.Value.Basic

/-!
# Operations on texts

Positions and lengths count characters; the text is cut and searched at the places that they lead to
(`Text.placeOf`). A position may be the length itself, a length may reach past the end and is cut
there, and an operation that is refused says so before anything changes. Each operation returns its
result, or the text that takes the place of its first operand.

Specification: B.3.2 and B.6.
-/
namespace ObjectVM.Texts

open ObjectVM.Text

/-- The position that an operand stands for in a text of `n` characters: 0 to `n`. -/
def position (operation : String) (n : Nat) (pos : Value) : Except ValueError UInt64 := do
  let i ← pos.asIndex operation
  if 0 ≤ i ∧ i ≤ n then .ok (UInt64.ofNat i.toNat) else .error (.indexOutOfRange i n)

/-- The length that an operand stands for. Mirrors `length`. -/
def count (operation : String) (len : Value) : Except ValueError UInt64 := do
  let n ← len.asIndex operation
  if 0 ≤ n ∧ n < UInt64.size then .ok (UInt64.ofNat n.toNat)
  else .error (.argument operation .negativeLength)

/-- The character whose code point an operand is. Mirrors `to_char`. -/
def character (operation : String) (code : Value) : Except ValueError Char := do
  let n ← code.asIndex operation
  if 0 ≤ n ∧ n.toNat.isValidChar then .ok (Char.ofNat n.toNat)
  else .error (.argument operation .notACharacter)

/-- A text value from its characters. -/
def ofChars (cs : List Char) : Value := .text (String.ofList cs)

/-- A position as a result; -1 where there is none. Part of `char_index`. -/
def found (i : Option Nat) : Value :=
  Value.ofInt .int64 (match i with | some i => (i : Int) | none => -1)

/-- How many characters `s` has. -/
def length (s : Value) : Except ValueError Value := do
  let s ← s.asText "strlen"
  .ok (Value.ofInt .uint64 s.length)

/-- What `s` holds from `pos` on. Mirrors `substr`. -/
def substring (s pos : Value) : Except ValueError Value := do
  let s ← s.asText "strsub"
  let p ← position "strsub" s.length pos
  .ok (.text (s.sliceFrom (placeOf s p)).copy)

/-- `len` characters of `s` from `pos` on. Mirrors `substr_range`. -/
def substringRange (s pos len : Value) : Except ValueError Value := do
  let s ← s.asText "strsub2"
  let p ← position "strsub2" s.length pos
  let n ← count "strsub2" len
  .ok (.text (stretch s p n).inside)

/-- Where `t` first occurs in `s`. -/
def find (s t : Value) : Except ValueError Value := do
  let s ← s.asText "strfnd"
  let t ← t.asText "strfnd"
  .ok (found ((firstPlace? t s.toSlice).map countBefore))

/-- Where `t` first occurs in `s` at `pos` or after it. -/
def findFrom (s t pos : Value) : Except ValueError Value := do
  let s ← s.asText "strfnd2"
  let t ← t.asText "strfnd2"
  let p ← position "strfnd2" s.length pos
  let rest := s.sliceFrom (placeOf s p)
  .ok (found ((firstPlace? t rest).map fun p => countBefore (String.Pos.ofSliceFrom p).toSlice))

/-- Where `t` last occurs in `s`. Mirrors `rfind`. -/
def findLast (s t : Value) : Except ValueError Value := do
  let s ← s.asText "strrfnd"
  let t ← t.asText "strrfnd"
  .ok (found ((lastPlace? t s.toSlice).map countBefore))

/-- Where `t` last occurs in `s` at `pos` or before it. Mirrors `rfind_before`. -/
def findLastUpTo (s t pos : Value) : Except ValueError Value := do
  let s ← s.asText "strrfnd2"
  let t ← t.asText "strrfnd2"
  let p ← position "strrfnd2" s.length pos
  let front := s.sliceTo (stretch s p (UInt64.ofNat t.length)).stop
  .ok (found ((lastPlace? t front).map fun p => countBefore (String.Pos.ofSliceTo p).toSlice))

/-- How two texts are ordered: -1, 0 or 1. -/
def compare (s t : Value) : Except ValueError Value := do
  let s ← s.asText "strcmp"
  let t ← t.asText "strcmp"
  .ok (Value.ofOrdering (order s t))

/-- How `len` characters of `s` from `pos` on are ordered against `t`. -/
def compareRange (s pos len t : Value) : Except ValueError Value := do
  compare (← substringRange s pos len) t

/-- Whether `s` starts with `t`. -/
def startsWith (s t : Value) : Except ValueError Value := do
  let s ← s.asText "strstarts"
  let t ← t.asText "strstarts"
  .ok (.bool (s.startsWith t))

/-- Whether `s` ends with `t`. -/
def endsWith (s t : Value) : Except ValueError Value := do
  let s ← s.asText "strends"
  let t ← t.asText "strends"
  .ok (.bool (s.endsWith t))

/-- Nothing in place of `s`. -/
def clear (s : Value) : Except ValueError Value := do
  let _ ← s.asText "strclr"
  .ok (.text "")

/-- `s` followed by `t`. -/
def append (s t : Value) : Except ValueError Value := do
  let t ← t.asText "strapd"
  let s ← s.asText "strapd"
  .ok (.text (s ++ t))

/-- `s` followed by a character. Mirrors `push_char`. -/
def push (s code : Value) : Except ValueError Value := do
  let c ← character "strpsh" code
  let s ← s.asText "strpsh"
  .ok (.text (s.push c))

/-- `s` with `t` put in at `pos`. -/
def insert (s pos t : Value) : Except ValueError Value := do
  let t ← t.asText "strist"
  let s ← s.asText "strist"
  let p ← position "strist" s.length pos
  .ok (.text ((stretch s p 0).replace t))

/-- `s` with a character put in at `pos`. -/
def insertChar (s pos code : Value) : Except ValueError Value := do
  let c ← character "strist2" code
  let s ← s.asText "strist2"
  let p ← position "strist2" s.length pos
  .ok (.text ((stretch s p 0).replace (String.singleton c)))

/-- `s` without what it holds from `pos` on. -/
def erase (s pos : Value) : Except ValueError Value := do
  let s ← s.asText "strers"
  let p ← position "strers" s.length pos
  .ok (.text (s.sliceTo (placeOf s p)).copy)

/-- `s` without `len` characters from `pos` on. -/
def eraseRange (s pos len : Value) : Except ValueError Value := do
  let n ← count "strers2" len
  let s ← s.asText "strers2"
  let p ← position "strers2" s.length pos
  .ok (.text ((stretch s p n).replace ""))

/-- `s` with `t` in place of `len` characters from `pos` on. -/
def replace (s pos len t : Value) : Except ValueError Value := do
  let t ← t.asText "strrplc"
  let n ← count "strrplc" len
  let s ← s.asText "strrplc"
  let p ← position "strrplc" s.length pos
  .ok (.text ((stretch s p n).replace t))

/-- Two texts, each in place of the other. Mirrors `swap`. -/
def exchange (s t : Value) : Except ValueError (Value × Value) := do
  let t' ← t.asText "strswp"
  let s' ← s.asText "strswp"
  .ok (.text t', .text s')

/-- `s` with its characters rearranged or replaced by `f`. Mirrors `map_str`. -/
def mapChars (operation : String) (f : List Char → List Char) (s : Value) :
    Except ValueError Value := do
  let s ← s.asText operation
  .ok (ofChars (f s.toList))

/-- `s` back to front. -/
def reverse : Value → Except ValueError Value := mapChars "strrev" List.reverse

/-- `s` in upper case. Mirrors `to_upper`. -/
def upper : Value → Except ValueError Value := mapChars "strupper" toUpper

/-- `s` in lower case. Mirrors `to_lower`. -/
def lower : Value → Except ValueError Value := mapChars "strlower" toLower

/-- `s` without white space at its ends. -/
def trim : Value → Except ValueError Value := mapChars "strtrm" ObjectVM.Text.trim

/-- `s` without white space at its start. -/
def trimStart : Value → Except ValueError Value := mapChars "strtrml" ObjectVM.Text.trimStart

/-- `s` without white space at its end. -/
def trimEnd : Value → Except ValueError Value := mapChars "strtrmr" ObjectVM.Text.trimEnd

end ObjectVM.Texts
