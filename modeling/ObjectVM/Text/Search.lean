/-!
# Searching text

A text is looked for at one place after another, from the start on or from the end back. The empty
text is found at every place.
-/
namespace ObjectVM.Text

/-- The places of `s` up to `p`, in order, and then `more`. -/
def placesUpTo {s : String.Slice} (p : s.Pos) (more : List s.Pos) : List s.Pos :=
  if h : p = s.startPos then p :: more else placesUpTo (p.prev h) (p :: more)
termination_by p.down

/-- The places of `s` in order: one before each character, and the end. -/
def places (s : String.Slice) : List s.Pos := placesUpTo s.endPos []

/-- Whether `s` goes on with `t` from `p`. -/
def goesOnWith (t : String) {s : String.Slice} (p : s.Pos) : Bool := (s.sliceFrom p).startsWith t

/-- The first place at which `t` occurs in `s`. -/
def firstPlace? (t : String) (s : String.Slice) : Option s.Pos := (places s).find? (goesOnWith t)

/-- The last place at which `t` occurs in `s`. -/
def lastPlace? (t : String) (s : String.Slice) : Option s.Pos :=
  (places s).reverse.find? (goesOnWith t)

/-- How many characters of `s` lie before `p`. -/
def countBefore {s : String.Slice} (p : s.Pos) : Nat := (s.sliceTo p).copy.length

end ObjectVM.Text
