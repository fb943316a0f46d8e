import ObjectVM.Decimal.Digits
import ObjectVM.Decimal.Shortest

/-!
# Floats as text

Values print the shortest decimal of a float in plain notation: never an exponent, and no point for
a whole number.
-/
namespace ObjectVM.Decimal

/-- The power of ten that the leading digit of a decimal counts. -/
def Scaled.lead (s : Scaled) : Int := s.exponent + (digits s.coefficient).length - 1

/-- The decimal without an exponent. -/
def Scaled.plain (s : Scaled) : List Char :=
  let ds := digits s.coefficient
  if 0 ≤ s.exponent then ds ++ List.replicate s.exponent.toNat '0'
  else if 0 ≤ s.lead then
    ds.take (s.lead.toNat + 1) ++ '.' :: ds.drop (s.lead.toNat + 1)
  else '0' :: '.' :: List.replicate (-s.lead - 1).toNat '0' ++ ds

/-- A minus sign for a negative number. -/
def signed (negative : Bool) (s : List Char) : List Char := if negative then '-' :: s else s

/-- Text of a float with the digits of `l`: plain notation, a tie between two shortest decimals
going to the greater. -/
def Layout.plainText (l : Layout) : Parts → String
  | .nan => "NaN"
  | .infinite negative => String.ofList (signed negative "inf".toList)
  | .finite negative m e =>
    String.ofList <| signed negative <|
      if m = 0 then ['0'] else (l.shortest .upper m e).plain

/-- A double as it prints. -/
def plain64 (x : Float) : String := double.plainText (parts64 x)

/-- A single as it prints. -/
def plain32 (x : Float32) : String := single.plainText (parts32 x)

end ObjectVM.Decimal
