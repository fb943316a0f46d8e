import ObjectVM.Text.Quoted
import ObjectVM.Value.Operator

/-!
# Opcodes

What an instruction does, family by family. Every opcode has a mnemonic and a code; the codes number
the opcodes without gaps, in the order of `Op.all`.
-/
namespace ObjectVM

/-- Opcodes that make, drop and compare objects and set what protects them. -/
inductive ObjectOp where
  | new | pop | swap | same | different | setClosure
  | setPinned | setIndelible | setUncallable | setImmutable
  deriving DecidableEq, Repr

/-- Opcodes on variables. A frame has visible variables, which inner closures see, and hidden ones. -/
inductive VariableOp where
  | load | store | storeOuter | loadHidden | storeHidden | delete | deleteHidden | loadEither
  deriving DecidableEq, Repr

/-- Opcodes on one attribute. -/
inductive AttributeOp where
  | get | set | delete | has
  deriving DecidableEq, Repr

/-- Where the name of an attribute comes from: the literal table, or the evaluation stack. -/
inductive NameSource where
  | literal
  | computed
  deriving DecidableEq, Repr

/-- Opcodes on the value in an object's handle. -/
inductive HandleOp where
  | get | set | getOf | setOf | clear | copy | copyText | truthy
  deriving DecidableEq, Repr

/-- Opcodes that move control. -/
inductive ControlOp where
  | stage | invoke | return
  | jump | jumpIf | jumpTo
  | raise | loadException | clearException | jumpException
  | exit
  deriving DecidableEq, Repr

/-- Opcodes that pass arguments. -/
inductive ArgumentOp where
  | put | putNamed | putAll | putAllNamed
  | take | takeNamed | takeAll | takeAllNamed
  | hasMore
  deriving DecidableEq, Repr

/-- Opcodes that reach outside the program. -/
inductive RuntimeOp where
  | collect | debug | print
  deriving DecidableEq, Repr

/-- Opcodes that rearrange the evaluation stack. -/
inductive StackOp where
  | pop | dup | swap
  deriving DecidableEq, Repr

/-- Opcodes that push a new value. -/
inductive ConstantOp where
  | int (k : IntKind)
  | bool | dec1 | dec2 | text | array | map
  deriving DecidableEq, Repr

/-- Opcodes on texts. -/
inductive TextOp where
  | length | clear | append | push | insert | insertChar | erase | eraseRange | replace | exchange
  | substring | substringRange | find | findFrom | findLast | findLastUpTo
  | compare | compareRange | startsWith | endsWith
  | reverse | upper | lower | trim | trimStart | trimEnd
  deriving DecidableEq, Repr

/-- Opcodes on arrays. -/
inductive ArrayOp where
  | length | isEmpty | at | front | back | put | append | erase | pop | exchange
  | clear | merge | slice | stride | reverse
  deriving DecidableEq, Repr

/-- Opcodes on maps. -/
inductive MapOp where
  | length | isEmpty | find | at | put | erase | clear | exchange | values | merge
  deriving DecidableEq, Repr

/-- Opcodes that work on values of the evaluation stack. -/
inductive ValueOp where
  | convert (k : Kind)
  | unary (op : UnaryOp)
  | binary (op : BinaryOp)
  | text (op : TextOp)
  | array (op : ArrayOp)
  | map (op : MapOp)
  deriving DecidableEq, Repr

/-- An opcode. -/
inductive Op where
  | object (op : ObjectOp)
  | variable (op : VariableOp)
  | attribute (op : AttributeOp) (source : NameSource)
  | setAttributes
  | handle (op : HandleOp)
  | control (op : ControlOp)
  | argument (op : ArgumentOp)
  | runtime (op : RuntimeOp)
  | stack (op : StackOp)
  | constant (op : ConstantOp)
  | value (op : ValueOp)
  deriving DecidableEq, Repr

/-! ## Mnemonics -/

/-- Mnemonic of an opcode on objects. -/
def ObjectOp.mnemonic : ObjectOp → String
  | .new => "NEW" | .pop => "POP" | .swap => "SWAP" | .same => "OBJEQ" | .different => "OBJNEQ"
  | .setClosure => "SETCTX" | .setPinned => "SETFLGC" | .setIndelible => "SETFLDEL"
  | .setUncallable => "SETFLCALL" | .setImmutable => "SETFLMUTE"

/-- Mnemonic of an opcode on variables. -/
def VariableOp.mnemonic : VariableOp → String
  | .load => "LDOBJ" | .store => "STOBJ" | .storeOuter => "STOBJN" | .loadHidden => "LDOBJ2"
  | .storeHidden => "STOBJ2" | .delete => "DELOBJ" | .deleteHidden => "DELOBJ2"
  | .loadEither => "CLDOBJ"

/-- Mnemonic of an opcode on one attribute. -/
def AttributeOp.mnemonic (op : AttributeOp) (source : NameSource) : String :=
  let base := match op with
    | .get => "GETATTR" | .set => "SETATTR" | .delete => "DELATTR" | .has => "HASATTR"
  match source with
  | .literal => base
  | .computed => base ++ "2"

/-- Mnemonic of an opcode on handles. -/
def HandleOp.mnemonic : HandleOp → String
  | .get => "GETHNDL" | .set => "SETHNDL" | .getOf => "GETHNDL2" | .setOf => "SETHNDL2"
  | .clear => "CLRHNDL" | .copy => "CPYHNDL" | .copyText => "CPYREPR" | .truthy => "ISTRUTHY"

/-- Mnemonic of an opcode that moves control. -/
def ControlOp.mnemonic : ControlOp → String
  | .stage => "PINVK" | .invoke => "INVK" | .return => "RTRN" | .jump => "JMP"
  | .jumpIf => "JMPIF" | .jumpTo => "JMPR" | .raise => "EXC" | .loadException => "EXCOBJ"
  | .clearException => "CLREXC" | .jumpException => "JMPEXC" | .exit => "EXIT"

/-- Mnemonic of an opcode that passes arguments. -/
def ArgumentOp.mnemonic : ArgumentOp → String
  | .put => "PUTARG" | .putNamed => "PUTKWARG" | .putAll => "PUTARGS"
  | .putAllNamed => "PUTKWARGS" | .take => "GETARG" | .takeNamed => "GETKWARG"
  | .takeAll => "GETARGS" | .takeAllNamed => "GETKWARGS" | .hasMore => "HASARGS"

/-- Mnemonic of an opcode that reaches outside. -/
def RuntimeOp.mnemonic : RuntimeOp → String
  | .collect => "GC" | .debug => "DEBUG" | .print => "PRINT"

/-- Mnemonic of an opcode that rearranges the evaluation stack. -/
def StackOp.mnemonic : StackOp → String
  | .pop => "EPOP" | .dup => "EDUP" | .swap => "ESWAP"

/-- Mnemonic of the opcode that makes integers of a kind. -/
def IntKind.mnemonic : IntKind → String
  | .int8 => "INT8" | .uint8 => "UINT8" | .int16 => "INT16" | .uint16 => "UINT16"
  | .int32 => "INT32" | .uint32 => "UINT32" | .int64 => "INT64" | .uint64 => "UINT64"

/-- Mnemonic of the opcode that makes a value of a kind. -/
def Kind.mnemonic : Kind → String
  | .numeric (.int k) => k.mnemonic
  | .numeric .bool => "BOOL" | .numeric .dec1 => "DEC1" | .numeric .dec2 => "DEC2"
  | .text => "STR" | .array => "ARY" | .map => "MAP"

/-- The kind of value that an opcode pushes. -/
def ConstantOp.kind : ConstantOp → Kind
  | .int k => .numeric (.int k)
  | .bool => .numeric .bool | .dec1 => .numeric .dec1 | .dec2 => .numeric .dec2
  | .text => .text | .array => .array | .map => .map

/-- Mnemonic of a unary operator. -/
def UnaryOp.mnemonic : UnaryOp → String
  | .pos => "POS" | .neg => "NEG" | .inc => "INC" | .dec => "DEC" | .abs => "ABS"
  | .sqrt => "SQRT" | .bnot => "BNOT" | .lnot => "LNOT" | .truthy => "TRUTHY"
  | .repr => "REPR" | .hash => "HASH"

/-- Mnemonic of a binary operator. -/
def BinaryOp.mnemonic : BinaryOp → String
  | .add => "ADD" | .sub => "SUB" | .mul => "MUL" | .div => "DIV" | .mod => "MOD" | .pow => "POW"
  | .band => "BAND" | .bor => "BOR" | .bxor => "BXOR" | .bls => "BLS" | .brs => "BRS"
  | .eq => "EQ" | .neq => "NEQ" | .gt => "GT" | .lt => "LT" | .gte => "GTE" | .lte => "LTE"
  | .land => "LAND" | .lor => "LOR" | .cmp => "CMP"

/-- Mnemonic of an opcode on texts. -/
def TextOp.mnemonic : TextOp → String
  | .length => "STRLEN" | .clear => "STRCLR" | .append => "STRAPD" | .push => "STRPSH"
  | .insert => "STRIST" | .insertChar => "STRIST2" | .erase => "STRERS" | .eraseRange => "STRERS2"
  | .replace => "STRRPLC" | .exchange => "STRSWP" | .substring => "STRSUB"
  | .substringRange => "STRSUB2" | .find => "STRFND" | .findFrom => "STRFND2"
  | .findLast => "STRRFND" | .findLastUpTo => "STRRFND2" | .compare => "STRCMP"
  | .compareRange => "STRCMP2" | .startsWith => "STRSTARTS" | .endsWith => "STRENDS"
  | .reverse => "STRREV" | .upper => "STRUPPER" | .lower => "STRLOWER" | .trim => "STRTRM"
  | .trimStart => "STRTRML" | .trimEnd => "STRTRMR"

/-- Mnemonic of an opcode on arrays. -/
def ArrayOp.mnemonic : ArrayOp → String
  | .length => "ARYLEN" | .isEmpty => "ARYEMP" | .at => "ARYAT" | .front => "ARYFRT"
  | .back => "ARYBAK" | .put => "ARYPUT" | .append => "ARYAPND" | .erase => "ARYERS"
  | .pop => "ARYPOP" | .exchange => "ARYSWP" | .clear => "ARYCLR" | .merge => "ARYMRG"
  | .slice => "ARYSLICE" | .stride => "ARYSTRD" | .reverse => "ARYREV"

/-- Mnemonic of an opcode on maps. -/
def MapOp.mnemonic : MapOp → String
  | .length => "MAPLEN" | .isEmpty => "MAPEMP" | .find => "MAPFIND" | .at => "MAPAT"
  | .put => "MAPPUT" | .erase => "MAPERS" | .clear => "MAPCLR" | .exchange => "MAPSWP"
  | .values => "MAPVALS" | .merge => "MAPMRG"

/-- Mnemonic of an opcode on values. -/
def ValueOp.mnemonic : ValueOp → String
  | .convert k => "TO" ++ k.mnemonic
  | .unary op => op.mnemonic
  | .binary op => op.mnemonic
  | .text op => op.mnemonic
  | .array op => op.mnemonic
  | .map op => op.mnemonic

namespace Op

/-- The opcode's mnemonic. -/
def mnemonic : Op → String
  | .object op => op.mnemonic
  | .variable op => op.mnemonic
  | .attribute op source => op.mnemonic source
  | .setAttributes => "SETATTRS"
  | .handle op => op.mnemonic
  | .control op => op.mnemonic
  | .argument op => op.mnemonic
  | .runtime op => op.mnemonic
  | .stack op => op.mnemonic
  | .constant op => op.kind.mnemonic
  | .value op => op.mnemonic

/-! ## Codes -/

/-- Opcodes on objects and what belongs to them, in code order. -/
def objectOps : List Op :=
  [.object .new, .variable .load, .variable .store, .variable .storeOuter,
    .attribute .get .literal, .attribute .set .literal, .attribute .delete .literal,
    .attribute .has .literal, .attribute .get .computed, .attribute .set .computed,
    .attribute .delete .computed, .attribute .has .computed, .object .pop,
    .variable .loadHidden, .variable .storeHidden, .variable .delete, .variable .deleteHidden,
    .handle .get, .handle .set, .handle .getOf, .handle .setOf, .handle .clear, .handle .copy,
    .handle .copyText, .handle .truthy, .object .same, .object .different, .object .setClosure,
    .variable .loadEither, .setAttributes, .object .swap, .object .setPinned,
    .object .setIndelible, .object .setUncallable, .object .setImmutable]

/-- Opcodes that move control, pass arguments and reach outside, in code order. -/
def controlOps : List Op :=
  [.control .stage, .control .invoke, .control .return, .control .jump, .control .jumpIf,
    .control .jumpTo, .control .raise, .control .loadException, .control .clearException,
    .control .jumpException, .control .exit, .argument .put, .argument .putNamed,
    .argument .putAll, .argument .putAllNamed, .argument .take, .argument .takeNamed,
    .argument .takeAll, .argument .takeAllNamed, .argument .hasMore, .runtime .collect,
    .runtime .debug, .runtime .print]

/-- Opcodes that rearrange and fill the evaluation stack, in code order. -/
def stackOps : List Op :=
  [.stack .pop, .stack .dup, .stack .swap, .constant (.int .int8), .constant (.int .int16),
    .constant (.int .int32), .constant (.int .int64), .constant (.int .uint8),
    .constant (.int .uint16), .constant (.int .uint32), .constant (.int .uint64),
    .constant .bool, .constant .dec1, .constant .dec2, .constant .text, .constant .array,
    .constant .map]

/-- The kinds that opcodes convert to, in code order. -/
def conversionKinds : List Kind :=
  [.numeric (.int .int8), .numeric (.int .int16), .numeric (.int .int32), .numeric (.int .int64),
    .numeric (.int .uint8), .numeric (.int .uint16), .numeric (.int .uint32),
    .numeric (.int .uint64), .numeric .bool, .numeric .dec1, .numeric .dec2, .text, .array, .map]

/-- Opcodes of the operators, in code order. -/
def operatorOps : List Op :=
  conversionKinds.map (fun k => .value (.convert k))
    ++ [UnaryOp.pos, .neg, .inc, .dec, .abs, .sqrt, .bnot, .lnot, .truthy, .repr, .hash].map
      (fun op => .value (.unary op))
    ++ [BinaryOp.add, .sub, .mul, .div, .mod, .pow, .band, .bor, .bxor, .bls, .brs, .eq, .neq, .gt,
      .lt, .gte, .lte, .land, .lor, .cmp].map (fun op => .value (.binary op))

/-- Opcodes on texts, arrays and maps, in code order. -/
def containerOps : List Op :=
  [TextOp.length, .clear, .append, .push, .insert, .insertChar, .erase, .eraseRange, .replace,
      .exchange, .substring, .substringRange, .find, .findFrom, .findLast, .findLastUpTo, .compare,
      .compareRange, .startsWith, .endsWith, .reverse, .upper, .lower, .trim, .trimStart,
      .trimEnd].map (fun op => .value (.text op))
    ++ [ArrayOp.length, .isEmpty, .at, .front, .back, .put, .append, .erase, .pop, .exchange, .clear,
      .merge, .slice, .stride, .reverse].map (fun op => .value (.array op))
    ++ [MapOp.length, .isEmpty, .find, .at, .put, .erase, .clear, .exchange, .values, .merge].map
      (fun op => .value (.map op))

/-- Every opcode, in code order. -/
def all : List Op := objectOps ++ controlOps ++ stackOps ++ operatorOps ++ containerOps

/-- Every opcode, by code. -/
def table : Array Op := all.toArray

/-- The opcode's code. -/
def code (op : Op) : UInt16 := UInt16.ofNat (all.idxOf op)

/-- The opcode with the given code. -/
def ofCode? (code : UInt16) : Option Op := table[code.toNat]?

/-- What is said of a code that no opcode has: the code in four hexadecimal digits. -/
def unknownMessage (code : UInt16) : String :=
  let ds := Text.hexDigits code.toNat
  "unknown opcode 0x" ++ String.ofList (List.replicate (4 - ds.length) '0' ++ ds)

/-- The opcode with the given mnemonic; the case of ASCII letters does not matter. -/
def ofMnemonic? (s : String) : Option Op :=
  all.find? fun op => op.mnemonic.toList.map Char.toLower == s.toList.map Char.toLower

end Op

end ObjectVM
