/-!
# Decimal digits

Whole numbers as decimal text, and back. `readDigits (digits n) = some n` (`readDigits_digits`), so
a written number is read as itself.
-/
namespace ObjectVM.Decimal

/-- The character of a digit below ten. -/
def digitChar (d : Nat) : Char := Char.ofNat (48 + d)

/-- Decimal digits of `n`, the leading one first; zero has one digit. -/
def digits (n : Nat) : List Char :=
  if n < 10 then [digitChar n] else digits (n / 10) ++ [digitChar (n % 10)]

/-- Decimal text of a whole number, with a sign if it is negative. -/
def signedDigits (n : Int) : List Char :=
  match n with
  | .ofNat m => digits m
  | .negSucc m => '-' :: digits (m + 1)

/-- A natural number as text. -/
def natText (n : Nat) : String := String.ofList (digits n)

/-- An integer as text. -/
def intText (n : Int) : String := String.ofList (signedDigits n)

/-- A natural number as text, right-aligned in at least four columns. -/
def columnText (n : Nat) : String :=
  let ds := digits n
  String.ofList (List.replicate (4 - ds.length) ' ' ++ ds)

/-- Whether `c` is one of the ten ASCII digits. -/
def isDigit (c : Char) : Bool := '0' ≤ c && c ≤ '9'

/-- The digit that an ASCII digit stands for. -/
def digitValue (c : Char) : Nat := c.toNat - 48

/-- The number that `cs` continues when `acc` was read before it. -/
def readDigitsFrom (acc : Nat) : List Char → Option Nat
  | [] => some acc
  | c :: cs => if isDigit c then readDigitsFrom (10 * acc + digitValue c) cs else none

/-- A group of digits is full when the power of ten behind it is this large. -/
def groupLimit : Nat := 1000000000000000000

/-- The number that `cs` continues when `acc` and then a group of digits were read before it. The
group has the value `word`, and `scale` is ten to the number of its digits. A group is gathered in a
word before it goes to `acc`, so long texts take few steps on long numbers. -/
def readGroups (acc word scale : Nat) : List Char → Option Nat
  | [] => some (acc * scale + word)
  | c :: cs =>
    if isDigit c then
      if scale < groupLimit then readGroups acc (10 * word + digitValue c) (10 * scale) cs
      else readGroups (acc * scale + word) (digitValue c) 10 cs
    else none

/-- The number that a text of at least one digit and nothing else stands for. -/
def readDigits (cs : List Char) : Option Nat :=
  if cs.isEmpty then none else readGroups 0 0 1 cs

/-- Reading in groups is reading digit by digit. -/
theorem readGroups_eq (acc word scale : Nat) (cs : List Char) :
    readGroups acc word scale cs = readDigitsFrom (acc * scale + word) cs := by
  induction cs generalizing acc word scale with
  | nil => rfl
  | cons c cs ih =>
    rw [readGroups, readDigitsFrom]
    split
    · split
      · rw [ih, Nat.mul_left_comm, Nat.mul_add, Nat.add_assoc]
      · rw [ih, Nat.mul_comm]
    · rfl

theorem readDigits_eq (cs : List Char) :
    readDigits cs = if cs.isEmpty then none else readDigitsFrom 0 cs := by
  rw [readDigits, readGroups_eq]

theorem digitChar_toNat {d : Nat} (h : d < 10) : (digitChar d).toNat = 48 + d := by
  have : ∀ d < 10, (digitChar d).toNat = 48 + d := by decide
  exact this d h

theorem isDigit_digitChar {d : Nat} (h : d < 10) : isDigit (digitChar d) = true := by
  have : ∀ d < 10, isDigit (digitChar d) = true := by decide
  exact this d h

@[simp] theorem digitValue_digitChar {d : Nat} (h : d < 10) : digitValue (digitChar d) = d := by
  simp [digitValue, digitChar_toNat h]

theorem digits_ne_nil (n : Nat) : digits n ≠ [] := by
  rw [digits]
  split <;> simp

theorem isDigit_of_mem_digits {n : Nat} {c : Char} (h : c ∈ digits n) : isDigit c = true := by
  induction n using Nat.strongRecOn with
  | ind n ih =>
    rw [digits] at h
    split at h
    · rename_i hn
      rw [List.mem_singleton.mp h]
      exact isDigit_digitChar hn
    · rcases List.mem_append.mp h with h | h
      · exact ih (n / 10) (by omega) h
      · rw [List.mem_singleton.mp h]
        exact isDigit_digitChar (Nat.mod_lt _ (by omega))

theorem readDigitsFrom_append (acc : Nat) (cs ds : List Char) :
    readDigitsFrom acc (cs ++ ds) = (readDigitsFrom acc cs).bind (readDigitsFrom · ds) := by
  induction cs generalizing acc with
  | nil => rfl
  | cons c cs ih =>
    simp only [List.cons_append, readDigitsFrom]
    split
    · exact ih _
    · rfl

theorem readDigitsFrom_digits (n : Nat) : readDigitsFrom 0 (digits n) = some n := by
  induction n using Nat.strongRecOn with
  | ind n ih =>
    rw [digits]
    split
    · rename_i hn
      simp [readDigitsFrom, isDigit_digitChar hn, digitValue_digitChar hn]
    · have hd : n % 10 < 10 := Nat.mod_lt _ (by omega)
      rw [readDigitsFrom_append, ih (n / 10) (by omega)]
      simp only [Option.bind_some, readDigitsFrom, isDigit_digitChar hd, if_pos,
        digitValue_digitChar hd]
      congr 1
      omega

/-- A number's own digits are read as that number. -/
theorem readDigits_digits (n : Nat) : readDigits (digits n) = some n := by
  have h : (digits n).isEmpty = false := by
    cases h : digits n with
    | nil => exact absurd h (digits_ne_nil n)
    | cons => rfl
  simp [readDigits_eq, h, readDigitsFrom_digits]

end ObjectVM.Decimal
