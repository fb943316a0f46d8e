/-!
# Ranges of code points

A character property is kept as a list of closed ranges of code points.
-/
namespace ObjectVM.Text

/-- The code points from `first` to `last`, both included. -/
structure CodeRange where
  first : Nat
  last : Nat
  deriving DecidableEq, Repr

/-- Whether `c` lies in one of `ranges`. -/
def memberOf (ranges : List CodeRange) (c : Char) : Bool :=
  ranges.any fun r => r.first ≤ c.toNat && c.toNat ≤ r.last

end ObjectVM.Text
