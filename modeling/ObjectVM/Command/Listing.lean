import ObjectVM.Decimal.Notation
import ObjectVM.Program.Compartment
import ObjectVM.Text.Quoted

/-!
# Listings

A compartment for people to read: its path, its literals, and of each closure the instructions with
their indices and the catch sites.
-/
namespace ObjectVM

/-- A literal's line: its table, its index, and how it is written. -/
def literalLine (table : String) (index : Nat) (text : String) : String :=
  "  " ++ table ++ "[" ++ Decimal.natText index ++ "] " ++ text ++ "\n"

namespace Closure

/-- The line of a closure's name and numbers. -/
def headLine (c : Closure) : String :=
  let parent := match c.parent with
    | some parent => ", parent " ++ Decimal.natText parent.toNat
    | none => ""
  c.name ++ " (id " ++ Decimal.natText c.id.toNat ++ parent ++ "):\n"

/-- An instruction's line. -/
def instructionLine (index : Nat) (i : Instruction) : String :=
  "  " ++ Decimal.columnText index ++ "  " ++ i.text ++ "\n"

/-- A catch site's line. -/
def catchLine (s : CatchSite) : String :=
  "  catch " ++ Decimal.natText s.first ++ "..=" ++ Decimal.natText s.last ++ " -> "
    ++ Decimal.natText s.target ++ "\n"

/-- The lines of a closure. -/
def listing (c : Closure) : String :=
  c.headLine
    ++ String.join (c.code.toList.zipIdx.map fun (i, index) => instructionLine index i)
    ++ String.join (c.catchSites.map catchLine)

end Closure

/-- The lines of a compartment. An empty line stands before each closure. -/
def Compartment.listing (c : Compartment) : String :=
  "== " ++ c.path ++ " ==\n"
    ++ String.join (c.strings.toList.zipIdx.map fun (s, i) => literalLine "str" i (Text.quote s))
    ++ String.join (c.floats.toList.zipIdx.map fun (bits, i) =>
      literalLine "fpt" i (Decimal.plain64 (Float.ofBits bits)))
    ++ String.join (c.closures.toList.map fun closure => "\n" ++ closure.listing)

end ObjectVM
