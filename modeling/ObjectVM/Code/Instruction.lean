import ObjectVM.Code.Op

/-!
# Instructions

An opcode with two operands of 64 bits. A relative jump reads its first operand as a signed offset.
-/
namespace ObjectVM

/-- One instruction. -/
structure Instruction where
  op : Op
  first : UInt64
  second : UInt64
  deriving DecidableEq, Repr

/-- The code of a closure or of a signal vector. -/
abbrev Code := Array Instruction

/-- A 64-bit word read as a number with a sign. -/
def signedWord (w : UInt64) : Int := w.toInt64.toInt

namespace Instruction

/-- The opcode without operands. -/
def ofOp (op : Op) : Instruction := ⟨op, 0, 0⟩

/-- The first operand as a signed offset. -/
def offset (i : Instruction) : Int := signedWord i.first

/-- The operand that follows another: left out when it is zero. -/
def trailing (w : UInt64) : String :=
  if w = 0 then "" else " " ++ Decimal.natText w.toNat

/-- How an instruction is written: its mnemonic and its operands up to the last that is not zero.
The offset of a jump is always written, with its sign. -/
def text (i : Instruction) : String :=
  let mnemonic := i.op.mnemonic
  match i.op with
  | .control .jump | .control .jumpIf | .control .jumpException =>
    let sign := if 0 ≤ i.offset then " +" else " "
    mnemonic ++ sign ++ Decimal.intText i.offset ++ trailing i.second
  | _ =>
    if i.second ≠ 0 then mnemonic ++ " " ++ Decimal.natText i.first.toNat ++ trailing i.second
    else mnemonic ++ trailing i.first

end Instruction

end ObjectVM
