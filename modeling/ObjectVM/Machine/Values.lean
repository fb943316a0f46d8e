import ObjectVM.Machine.Exec
import ObjectVM.Value.Arrays
import ObjectVM.Value.Maps
import ObjectVM.Value.Texts
import ObjectVM.Code.Instruction

/-!
# Instructions on values

Every operation on values has one of four shapes. Its last operands are on top of the evaluation
stack and its first one, usually a container, lies below them. When an operation is refused, the
operands above are gone and the first one is unchanged.

Specification: B.6.
-/
namespace ObjectVM

/-- What an operation does with the `n` values on top and the one below them: put a value in its
place, read an object id out of it, put a value made with a popped object in its place, or exchange
the two top values' contents. -/
inductive Action where
  | compute (n : Nat) (f : Value → Vector Value n → Except ValueError Value)
  | read (n : Nat) (f : Value → Vector Value n → Except ValueError ObjectId)
  | store (n : Nat) (f : Value → Vector Value n → ObjectId → Except ValueError Value)
  | exchange (f : Value → Value → Except ValueError (Value × Value))

namespace Operands

/-- The first operand. -/
def first (v : Vector Value (n + 1)) : Value := v.get ⟨0, Nat.zero_lt_succ n⟩

/-- The second operand. -/
def second (v : Vector Value (n + 2)) : Value := v.get ⟨1, Nat.le_add_left 2 n⟩

/-- The third operand. -/
def third (v : Vector Value (n + 3)) : Value := v.get ⟨2, Nat.le_add_left 3 n⟩

end Operands

open Operands

/-- What an opcode on texts does. -/
def TextOp.action : TextOp → Action
  | .length => .compute 0 fun s _ => Texts.length s
  | .clear => .compute 0 fun s _ => Texts.clear s
  | .append => .compute 1 fun s v => Texts.append s (first v)
  | .push => .compute 1 fun s v => Texts.push s (first v)
  | .insert => .compute 2 fun s v => Texts.insert s (first v) (second v)
  | .insertChar => .compute 2 fun s v => Texts.insertChar s (first v) (second v)
  | .erase => .compute 1 fun s v => Texts.erase s (first v)
  | .eraseRange => .compute 2 fun s v => Texts.eraseRange s (first v) (second v)
  | .replace => .compute 3 fun s v => Texts.replace s (first v) (second v) (third v)
  | .exchange => .exchange Texts.exchange
  | .substring => .compute 1 fun s v => Texts.substring s (first v)
  | .substringRange => .compute 2 fun s v => Texts.substringRange s (first v) (second v)
  | .find => .compute 1 fun s v => Texts.find s (first v)
  | .findFrom => .compute 2 fun s v => Texts.findFrom s (first v) (second v)
  | .findLast => .compute 1 fun s v => Texts.findLast s (first v)
  | .findLastUpTo => .compute 2 fun s v => Texts.findLastUpTo s (first v) (second v)
  | .compare => .compute 1 fun s v => Texts.compare s (first v)
  | .compareRange => .compute 3 fun s v => Texts.compareRange s (first v) (second v) (third v)
  | .startsWith => .compute 1 fun s v => Texts.startsWith s (first v)
  | .endsWith => .compute 1 fun s v => Texts.endsWith s (first v)
  | .reverse => .compute 0 fun s _ => Texts.reverse s
  | .upper => .compute 0 fun s _ => Texts.upper s
  | .lower => .compute 0 fun s _ => Texts.lower s
  | .trim => .compute 0 fun s _ => Texts.trim s
  | .trimStart => .compute 0 fun s _ => Texts.trimStart s
  | .trimEnd => .compute 0 fun s _ => Texts.trimEnd s

/-- What an opcode on arrays does. -/
def ArrayOp.action : ArrayOp → Action
  | .length => .compute 0 fun a _ => Arrays.length a
  | .isEmpty => .compute 0 fun a _ => Arrays.isEmpty a
  | .at => .read 1 fun a v => Arrays.at? a (first v)
  | .front => .read 0 fun a _ => Arrays.front a
  | .back => .read 0 fun a _ => Arrays.back a
  | .put => .store 1 fun a v id => Arrays.put a (first v) id
  | .append => .store 0 fun a _ id => Arrays.append a id
  | .erase => .compute 1 fun a v => Arrays.erase a (first v)
  | .pop => .compute 0 fun a _ => (Arrays.pop a).map (·.1)
  | .exchange => .exchange Arrays.exchange
  | .clear => .compute 0 fun a _ => Arrays.clear a
  | .merge => .compute 1 fun a v => Arrays.merge a (first v)
  | .slice => .compute 2 fun a v => Arrays.slice a (first v) (second v)
  | .stride => .compute 1 fun a v => Arrays.stride a (first v)
  | .reverse => .compute 0 fun a _ => Arrays.reverse a

/-- What an opcode on maps does. -/
def MapOp.action : MapOp → Action
  | .length => .compute 0 fun m _ => Maps.length m
  | .isEmpty => .compute 0 fun m _ => Maps.isEmpty m
  | .find => .compute 1 fun m v => Maps.find m (first v)
  | .at => .read 1 fun m v => Maps.at? m (first v)
  | .put => .store 1 fun m v id => Maps.put m (first v) id
  | .erase => .compute 1 fun m v => Maps.erase m (first v)
  | .clear => .compute 0 fun m _ => Maps.clear m
  | .exchange => .exchange Maps.exchange
  | .values => .compute 0 fun m _ => Maps.values m
  | .merge => .compute 1 fun m v => Maps.merge m (first v)

/-- What an opcode on values does. -/
def ValueOp.action : ValueOp → Action
  | .convert k => .compute 0 fun v _ => v.convert k
  | .unary op => .compute 0 fun v _ => v.unary op
  | .binary op => .compute 1 fun v w => v.binary op (first w)
  | .text op => op.action
  | .array op => op.action
  | .map op => op.action

namespace Exec

/-- Does what an action says. Mirrors `replace_top`, `mutate_top`, `read_element` and
`swap_top_two`. -/
def perform : Action → Exec Unit
  | .compute n f => do
    let operands ← popOperands n
    setTopValue (← liftValue (f (← topValue) operands))
  | .read n f => do
    let operands ← popOperands n
    pushObject (← liftValue (f (← topValue) operands))
  | .store n f => do
    let id ← popObject
    let operands ← popOperands n
    setTopValue (← liftValue (f (← topValue) operands id))
  | .exchange f => do
    let (a, b) ← lift (← topFrame).topTwoValues
    let (a, b) ← liftValue (f a b)
    updateFrame (·.setTopTwoValues a b)

/-- An instruction that rearranges the evaluation stack. Mirrors `epop`, `edup` and `eswap`. -/
def runStack (op : StackOp) : Exec Unit := do
  match op with
  | .pop => let _ ← popValue
  | .dup => pushValue (← topValue)
  | .swap => updateFrame (·.swapValues)

/-- A float literal of the running frame's compartment. -/
def floatLiteral (key : UInt64) : Exec Float := do
  let bits ← look fun p => do (← p.currentCompartment).floatBits key
  pure (Float.ofBits bits)

/-- An instruction that pushes a new value. An integer is cut out of the first operand. Mirrors
`boolean`, `dec1`, `dec2`, `string`, `ary` and `map`. -/
def runConstant (op : ConstantOp) (i : Instruction) : Exec Unit := do
  match op with
  | .int k => pushValue (.ofInt k i.first.toNat)
  | .bool => pushValue (.bool (i.first != 0))
  | .dec1 => pushValue (.dec1 (← floatLiteral i.first).toFloat32)
  | .dec2 => pushValue (.dec2 (← floatLiteral i.first))
  | .text => pushValue (.text (← look (·.stringLiteral i.first)))
  | .array => pushValue (.array [])
  | .map => pushValue (.map ∅)

end Exec

end ObjectVM
