import ObjectVM.Text.CaseTable

/-!
# Upper and lower case

The full case mappings: one character may become several, and a capital sigma becomes `ς` at the
end of a word and `σ` anywhere else.
-/
namespace ObjectVM.Text

/-- Whether `run` holds the code point `n`. -/
def CaseRun.holds (run : CaseRun) (n : Nat) : Bool :=
  run.first ≤ n && n ≤ run.last && (n - run.first) % run.stride == 0

/-- The other case of `c`: its expansion if it has one, else its place in the runs, else itself. -/
def mapCase (expansions : List (Nat × List Nat)) (runs : List CaseRun) (c : Char) : List Char :=
  match expansions.find? (·.1 == c.toNat) with
  | some (_, out) => out.map Char.ofNat
  | none =>
    match runs.find? (·.holds c.toNat) with
    | some run => [Char.ofNat (c.toNat + run.shift).toNat]
    | none => [c]

/-- Upper case of one character. -/
def upperChar (c : Char) : List Char := mapCase upperExpansions upperRuns c

/-- Lower case of one character away from the final-sigma rule. -/
def lowerChar (c : Char) : List Char := mapCase lowerExpansions lowerRuns c

/-- Whether the first character that matters for case has case itself. -/
def reachesCased (s : List Char) : Bool :=
  match s.dropWhile (memberOf caseIgnorableRanges) with
  | c :: _ => memberOf casedRanges c
  | [] => false

/-- Upper case of a text. -/
def toUpper (s : List Char) : List Char := s.flatMap upperChar

/-- Lower case of a text whose preceding characters, last first, are `before`. A capital sigma that
follows a letter and precedes none ends a word. -/
def lowerFrom (before : List Char) : List Char → List Char
  | [] => []
  | c :: rest =>
    let out :=
      if c = 'Σ' then
        if reachesCased before && !reachesCased rest then ['ς'] else ['σ']
      else lowerChar c
    out ++ lowerFrom (c :: before) rest

/-- Lower case of a text. -/
def toLower (s : List Char) : List Char := lowerFrom [] s

end ObjectVM.Text
