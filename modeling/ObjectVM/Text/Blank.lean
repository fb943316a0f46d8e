import ObjectVM.Text.Ranges

/-!
# White space

The characters that trimming removes: the 25 code points of the Unicode property White_Space.
-/
namespace ObjectVM.Text

/-- The code points with the property White_Space. -/
def blankRanges : List CodeRange :=
  [⟨0x09, 0x0d⟩, ⟨0x20, 0x20⟩, ⟨0x85, 0x85⟩, ⟨0xa0, 0xa0⟩, ⟨0x1680, 0x1680⟩, ⟨0x2000, 0x200a⟩,
    ⟨0x2028, 0x2029⟩, ⟨0x202f, 0x202f⟩, ⟨0x205f, 0x205f⟩, ⟨0x3000, 0x3000⟩]

/-- Whether `c` is white space. -/
def isBlank (c : Char) : Bool := memberOf blankRanges c

/-- `s` without the white space it starts with. -/
def trimStart (s : List Char) : List Char := s.dropWhile isBlank

/-- `s` without the white space it ends with. -/
def trimEnd (s : List Char) : List Char := (s.reverse.dropWhile isBlank).reverse

/-- `s` without white space at either end. -/
def trim (s : List Char) : List Char := trimEnd (trimStart s)

end ObjectVM.Text
