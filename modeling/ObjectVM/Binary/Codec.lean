/-!
# Binary codecs

How values are laid out in bytes. A whole number is a varint: seven bits a byte, the lowest first,
with the high bit on every byte but the last. Texts and lists have their length in front, an option
has a byte that says whether there is a value, and records are their fields one behind the other, so
codecs are put together from codecs. Reading takes what belongs to the value from the front of the
bytes and leaves the rest.
-/
namespace ObjectVM

/-- Why bytes are not the encoding of a value. -/
inductive BinaryFault where
  | endOfInput
  | longVarint
  | invalidText
  | invalidTag
  deriving DecidableEq, Repr

/-- The fault in words. -/
def BinaryFault.message : BinaryFault → String
  | .endOfInput => "Hit the end of buffer, expected more data"
  | .longVarint => "Found a varint that didn't terminate. Is the usize too big for this platform?"
  | .invalidText => "Tried to parse invalid utf-8"
  | .invalidTag => "Found an Option discriminant that wasn't 0 or 1"

/-- A string of bytes. -/
abbrev Bytes := List UInt8

namespace Binary

/-- A way of writing values as bytes and of reading them back. -/
structure Codec (α : Type) where
  encode : α → Bytes
  decode : Bytes → Except BinaryFault (α × Bytes)

/-! ## Whole numbers -/

/-- A number as a varint. -/
def varint (n : Nat) : Bytes :=
  if n < 128 then [UInt8.ofNat n] else UInt8.ofNat (n % 128 + 128) :: varint (n / 128)

/-- Reads a varint of at most `more + 1` bytes. If all of them are used, the last may not be above
`lastLimit`. -/
def readVarint (lastLimit : Nat) : (more : Nat) → Bytes → Except BinaryFault (Nat × Bytes)
  | _, [] => .error .endOfInput
  | 0, b :: rest => if b.toNat ≤ lastLimit then .ok (b.toNat, rest) else .error .longVarint
  | more + 1, b :: rest =>
    if b.toNat < 128 then .ok (b.toNat, rest)
    else do
      let (n, rest) ← readVarint lastLimit more rest
      .ok (b.toNat - 128 + 128 * n, rest)

namespace Codec

/-- The codec of a type whose values another type's values stand for. -/
def map (c : Codec α) (make : α → β) (parts : β → α) : Codec β where
  encode b := c.encode (parts b)
  decode bytes := do
    let (a, rest) ← c.decode bytes
    .ok (make a, rest)

/-- One value behind another. -/
def pair (c : Codec α) (d : Codec β) : Codec (α × β) where
  encode p := c.encode p.1 ++ d.encode p.2
  decode bytes := do
    let (a, rest) ← c.decode bytes
    let (b, rest) ← d.decode rest
    .ok ((a, b), rest)

/-- A number below `2 ^ 64`; so are lengths written. -/
def size : Codec Nat := ⟨varint, readVarint 1 9⟩

/-- A word of 16 bits. -/
def word16 : Codec UInt16 := map ⟨varint, readVarint 3 2⟩ UInt16.ofNat UInt16.toNat

/-- A word of 32 bits. -/
def word32 : Codec UInt32 := map ⟨varint, readVarint 15 4⟩ UInt32.ofNat UInt32.toNat

/-- A word of 64 bits. -/
def word64 : Codec UInt64 := size.map UInt64.ofNat UInt64.toNat

/-! ## Fixed parts -/

/-- Reads `n` bytes. -/
def takeBytes (n : Nat) (bytes : Bytes) : Except BinaryFault (Bytes × Bytes) :=
  let (front, rest) := bytes.splitAt n
  if front.length = n then .ok (front, rest) else .error .endOfInput

/-- The eight bytes of a word, the lowest first. -/
def wordBytes (w : UInt64) : Bytes := (List.range 8).map fun i => (w >>> UInt64.ofNat (8 * i)).toUInt8

/-- The word that bytes spell, the lowest first. -/
def wordOfBytes (bytes : Bytes) : UInt64 :=
  bytes.foldr (fun b w => (w <<< 8) ||| b.toUInt64) 0

/-- The stored bits of a float: eight bytes, the lowest first. -/
def floatBits : Codec UInt64 where
  encode := wordBytes
  decode bytes := do
    let (front, rest) ← takeBytes 8 bytes
    .ok (wordOfBytes front, rest)

/-! ## Texts, options and lists -/

/-- A text: its length in UTF-8 bytes, and those bytes. -/
def text : Codec String where
  encode s := size.encode s.utf8ByteSize ++ s.toUTF8.toList
  decode bytes := do
    let (n, rest) ← size.decode bytes
    let (front, rest) ← takeBytes n rest
    match String.fromUTF8? ⟨front.toArray⟩ with
    | some s => .ok (s, rest)
    | none => .error .invalidText

/-- A value that may be missing: the byte 0, or the byte 1 and the value. -/
def option (c : Codec α) : Codec (Option α) where
  encode
    | none => [0]
    | some a => 1 :: c.encode a
  decode
    | [] => .error .endOfInput
    | b :: rest =>
      if b = 0 then .ok (none, rest)
      else if b = 1 then do
        let (a, rest) ← c.decode rest
        .ok (some a, rest)
      else .error .invalidTag

/-- Reads `n` values. Of those in `done` the last read comes first. -/
def decodeMany (c : Codec α) (done : List α) : (n : Nat) → Bytes →
    Except BinaryFault (List α × Bytes)
  | 0, bytes => .ok (done.reverse, bytes)
  | n + 1, bytes =>
    match c.decode bytes with
    | .ok (a, rest) => decodeMany c (a :: done) n rest
    | .error fault => .error fault

/-- A list: its length, and its values. -/
def list (c : Codec α) : Codec (List α) where
  encode as := size.encode as.length ++ as.flatMap c.encode
  decode bytes := do
    let (n, rest) ← size.decode bytes
    c.decodeMany [] n rest

end Codec

end Binary

end ObjectVM
