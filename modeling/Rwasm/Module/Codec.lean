import Rwasm.Library.Decoder
import Rwasm.Vm.Executor

/-!
# The binary format

The encoders and decoders of modules (`module/mod.rs`), instruction sets (`isa/mod.rs`) and opcodes
(`types/opcode.rs`), with the fixed-width little-endian words of bincode's legacy configuration.
An index (`usize`) has 64 bits. Every vector is preceded by its length, and the decoder reserves space for
as many elements before it reads the first one: that of opcodes here, those of bytes and of words in
bincode.

The codec of `TrapCode` is derived: a code stands for the 32-bit number of its variant. The
numbering belongs to the derive macro, so it is a parameter here.
-/

namespace Rwasm

open Codec

/-- The errors of a decoder (`DecodeError`). -/
inductive DecodeError where
  | unexpectedEnd (additional : Nat)
  | unexpectedVariant (found : Nat)
  | other (message : String)
  deriving DecidableEq

/-- What the vectors of a module hold. -/
inductive VecItem where
  | opcode
  | byte
  | word
  deriving DecidableEq

/-- A decoder of bytes. -/
abbrev Decode (α : Type) := Decoder VecItem Byte DecodeError α

/-- The encoding of an unsigned word of `n` bytes. -/
def encodeWord (n v : Nat) : List Byte :=
  UntypedValue.intoLeBytes n v

/-- The decoder of an unsigned word of `n` bytes. -/
def decodeWord (n : Nat) : Decode Nat := do
  let bytes ← Decoder.take .unexpectedEnd n
  pure (UntypedValue.fromLeBytes bytes)

/-- The encoding of an `i32`. -/
def encodeI32 (v : Int) : List Byte :=
  encodeWord 4 (BitVec.ofInt 32 v).toNat

/-- The decoder of an `i32`. -/
def decodeI32 : Decode Int := do
  let v ← decodeWord 4
  pure (BitVec.ofNat 32 v).toInt

/-- The trap codes. -/
def TrapCode.all : List TrapCode :=
  [.unreachableCodeReached, .memoryOutOfBounds, .tableOutOfBounds, .indirectCallToNull,
    .integerDivisionByZero, .integerOverflow, .badConversionToInteger, .stackOverflow,
    .badSignature, .outOfFuel, .unknownExternalFunction, .illegalOpcode, .interruptionCalled,
    .executionHalted]

/-- The variant numbers a derived codec gives to the trap codes. -/
structure TrapCode.Numbering where
  number : TrapCode → BitVec 32
  injective : Function.Injective number

/-- The numbers that count the variants in the order of their declaration. -/
def TrapCode.Numbering.declared : TrapCode.Numbering where
  number code := BitVec.ofNat 32 (TrapCode.all.idxOf code)
  injective := by
    intro a b h
    cases a <;> cases b <;> first | rfl | exact absurd h (by decide)

/-- The operands of opcodes, with the types they are encoded at. -/
inductive Operand where
  | u16 (v : Nat)
  | u32 (v : Nat)
  | i32 (v : Int)
  | trapCode (code : TrapCode)

/-- What follows the code of an opcode, and the opcode it makes. -/
inductive Shape where
  | plain (op : Opcode)
  | u16 (make : Nat → Opcode)
  | u16Pair (make : Nat → Nat → Opcode)
  | u32 (make : Nat → Opcode)
  | i32 (make : Int → Opcode)
  | trapCode (make : TrapCode → Opcode)

/-- Where the codes of the floating point opcodes begin. -/
def FPU_OPCODE_OFFSET : Nat := 1000

/-- The codes of the unary opcodes. -/
def UntypedValue.UnaryOp.code : UntypedValue.UnaryOp → Nat
  | .i32Eqz => 48
  | .i32Clz => 59
  | .i32Ctz => 60
  | .i32Popcnt => 61
  | .i32WrapI64 => 77
  | .i32Extend8S => 78
  | .i32Extend16S => 79

/-- The codes of the total binary opcodes. -/
def UntypedValue.BinaryOp.code : UntypedValue.BinaryOp → Nat
  | .i32Eq => 49
  | .i32Ne => 50
  | .i32LtS => 51
  | .i32LtU => 52
  | .i32GtS => 53
  | .i32GtU => 54
  | .i32LeS => 55
  | .i32LeU => 56
  | .i32GeS => 57
  | .i32GeU => 58
  | .i32Add => 62
  | .i32Sub => 63
  | .i32Mul => 64
  | .i32And => 69
  | .i32Or => 70
  | .i32Xor => 71
  | .i32Shl => 72
  | .i32ShrS => 73
  | .i32ShrU => 74
  | .i32Rotl => 75
  | .i32Rotr => 76

/-- The codes of the divisions. -/
def UntypedValue.FallibleOp.code : UntypedValue.FallibleOp → Nat
  | .i32DivS => 65
  | .i32DivU => 66
  | .i32RemS => 67
  | .i32RemU => 68

/-- The codes of the loads. -/
def UntypedValue.LoadOp.code : UntypedValue.LoadOp → Nat
  | .i32Load => 26
  | .i32Load8S => 27
  | .i32Load8U => 28
  | .i32Load16S => 29
  | .i32Load16U => 30

/-- The codes of the stores. -/
def UntypedValue.StoreOp.code : UntypedValue.StoreOp → Nat
  | .i32Store => 31
  | .i32Store8 => 32
  | .i32Store16 => 33

/-- The codes of the floating-point opcodes, without `FPU_OPCODE_OFFSET`. -/
def FpuOpcode.code : FpuOpcode → Nat
  | .f32Load _ => 0
  | .f64Load _ => 1
  | .f32Store _ => 2
  | .f64Store _ => 3
  | .f32Eq => 4
  | .f32Ne => 5
  | .f32Lt => 6
  | .f32Gt => 7
  | .f32Le => 8
  | .f32Ge => 9
  | .f64Eq => 10
  | .f64Ne => 11
  | .f64Lt => 12
  | .f64Gt => 13
  | .f64Le => 14
  | .f64Ge => 15
  | .f32Abs => 16
  | .f32Neg => 17
  | .f32Ceil => 18
  | .f32Floor => 19
  | .f32Trunc => 20
  | .f32Nearest => 21
  | .f32Sqrt => 22
  | .f32Add => 23
  | .f32Sub => 24
  | .f32Mul => 25
  | .f32Div => 26
  | .f32Min => 27
  | .f32Max => 28
  | .f32Copysign => 29
  | .f64Abs => 30
  | .f64Neg => 31
  | .f64Ceil => 32
  | .f64Floor => 33
  | .f64Trunc => 34
  | .f64Nearest => 35
  | .f64Sqrt => 36
  | .f64Add => 37
  | .f64Sub => 38
  | .f64Mul => 39
  | .f64Div => 40
  | .f64Min => 41
  | .f64Max => 42
  | .f64Copysign => 43
  | .i32TruncF32S => 44
  | .i32TruncF32U => 45
  | .i32TruncF64S => 46
  | .i32TruncF64U => 47
  | .i64TruncF32S => 48
  | .i64TruncF32U => 49
  | .i64TruncF64S => 50
  | .i64TruncF64U => 51
  | .f32ConvertI32S => 52
  | .f32ConvertI32U => 53
  | .f32ConvertI64S => 54
  | .f32ConvertI64U => 55
  | .f32DemoteF64 => 56
  | .f64ConvertI32S => 57
  | .f64ConvertI32U => 58
  | .f64ConvertI64S => 59
  | .f64ConvertI64U => 60
  | .f64PromoteF32 => 61
  | .i32TruncSatF32S => 62
  | .i32TruncSatF32U => 63
  | .i32TruncSatF64S => 64
  | .i32TruncSatF64U => 65
  | .i64TruncSatF32S => 66
  | .i64TruncSatF32U => 67
  | .i64TruncSatF64S => 68
  | .i64TruncSatF64U => 69

/-- The operands of the floating-point opcodes. -/
def FpuOpcode.operands : FpuOpcode → List Operand
  | .f32Load offset | .f64Load offset | .f32Store offset | .f64Store offset => [.u32 offset]
  | _ => []

/-- The code of an opcode (`Opcode::code`). -/
def Opcode.code : Opcode → Nat
  | .unreachable => 0
  | .trap _ => 1
  | .localGet _ => 2
  | .localSet _ => 3
  | .localTee _ => 4
  | .br _ => 5
  | .brIfEqz _ => 6
  | .brIfNez _ => 7
  | .brTable _ => 8
  | .consumeFuel _ => 9
  | .consumeFuelStack => 10
  | .ret => 11
  | .returnCallInternal _ => 12
  | .returnCall _ => 13
  | .returnCallIndirect _ => 14
  | .callInternal _ => 15
  | .call _ => 16
  | .callIndirect _ => 17
  | .signatureCheck _ => 18
  | .stackCheck _ => 19
  | .refFunc _ => 20
  | .i32Const _ => 21
  | .drop => 22
  | .select => 23
  | .globalGet _ => 24
  | .globalSet _ => 25
  | .memorySize => 34
  | .memoryGrow => 35
  | .memoryFill => 36
  | .memoryCopy => 37
  | .memoryInit _ => 38
  | .dataDrop _ => 39
  | .tableSize _ => 40
  | .tableGrow _ => 41
  | .tableFill _ => 42
  | .tableGet _ => 43
  | .tableSet _ => 44
  | .tableCopy _ _ => 45
  | .tableInit _ => 46
  | .elemDrop _ => 47
  | .i32Mul64 => 80
  | .i32Add64 => 81
  | .bulkConst _ => 82
  | .bulkDrop _ => 83
  | .load op _ => op.code
  | .store op _ => op.code
  | .unary op => op.code
  | .binary op => op.code
  | .fallible op => op.code
  | .fpu op => FPU_OPCODE_OFFSET + op.code

/-- The operands of an opcode in the order they are encoded in. -/
def Opcode.operands : Opcode → List Operand
  | .trap code => [.trapCode code]
  | .br offset | .brIfEqz offset | .brIfNez offset => [.i32 offset]
  | .i32Const value => [.u32 value.toNat]
  | .tableSize table | .tableGrow table | .tableFill table | .tableGet table | .tableSet table => [.u16 table]
  | .tableCopy dst src => [.u16 dst, .u16 src]
  | .localGet n | .localSet n | .localTee n | .brTable n | .consumeFuel n
  | .returnCallInternal n | .returnCall n | .returnCallIndirect n | .callInternal n | .call n
  | .callIndirect n | .signatureCheck n | .stackCheck n | .refFunc n | .globalGet n
  | .globalSet n | .memoryInit n | .dataDrop n | .tableInit n | .elemDrop n | .bulkConst n
  | .bulkDrop n => [.u32 n]
  | .load _ offset | .store _ offset => [.u32 offset]
  | .fpu op => op.operands
  | _ => []

/-- What the decoder reads for the code of a floating-point opcode. -/
def FpuOpcode.shape : Nat → Option Shape
  | 0 => some (.u32 fun offset => .fpu (.f32Load offset))
  | 1 => some (.u32 fun offset => .fpu (.f64Load offset))
  | 2 => some (.u32 fun offset => .fpu (.f32Store offset))
  | 3 => some (.u32 fun offset => .fpu (.f64Store offset))
  | 4 => some (.plain (.fpu .f32Eq))
  | 5 => some (.plain (.fpu .f32Ne))
  | 6 => some (.plain (.fpu .f32Lt))
  | 7 => some (.plain (.fpu .f32Gt))
  | 8 => some (.plain (.fpu .f32Le))
  | 9 => some (.plain (.fpu .f32Ge))
  | 10 => some (.plain (.fpu .f64Eq))
  | 11 => some (.plain (.fpu .f64Ne))
  | 12 => some (.plain (.fpu .f64Lt))
  | 13 => some (.plain (.fpu .f64Gt))
  | 14 => some (.plain (.fpu .f64Le))
  | 15 => some (.plain (.fpu .f64Ge))
  | 16 => some (.plain (.fpu .f32Abs))
  | 17 => some (.plain (.fpu .f32Neg))
  | 18 => some (.plain (.fpu .f32Ceil))
  | 19 => some (.plain (.fpu .f32Floor))
  | 20 => some (.plain (.fpu .f32Trunc))
  | 21 => some (.plain (.fpu .f32Nearest))
  | 22 => some (.plain (.fpu .f32Sqrt))
  | 23 => some (.plain (.fpu .f32Add))
  | 24 => some (.plain (.fpu .f32Sub))
  | 25 => some (.plain (.fpu .f32Mul))
  | 26 => some (.plain (.fpu .f32Div))
  | 27 => some (.plain (.fpu .f32Min))
  | 28 => some (.plain (.fpu .f32Max))
  | 29 => some (.plain (.fpu .f32Copysign))
  | 30 => some (.plain (.fpu .f64Abs))
  | 31 => some (.plain (.fpu .f64Neg))
  | 32 => some (.plain (.fpu .f64Ceil))
  | 33 => some (.plain (.fpu .f64Floor))
  | 34 => some (.plain (.fpu .f64Trunc))
  | 35 => some (.plain (.fpu .f64Nearest))
  | 36 => some (.plain (.fpu .f64Sqrt))
  | 37 => some (.plain (.fpu .f64Add))
  | 38 => some (.plain (.fpu .f64Sub))
  | 39 => some (.plain (.fpu .f64Mul))
  | 40 => some (.plain (.fpu .f64Div))
  | 41 => some (.plain (.fpu .f64Min))
  | 42 => some (.plain (.fpu .f64Max))
  | 43 => some (.plain (.fpu .f64Copysign))
  | 44 => some (.plain (.fpu .i32TruncF32S))
  | 45 => some (.plain (.fpu .i32TruncF32U))
  | 46 => some (.plain (.fpu .i32TruncF64S))
  | 47 => some (.plain (.fpu .i32TruncF64U))
  | 48 => some (.plain (.fpu .i64TruncF32S))
  | 49 => some (.plain (.fpu .i64TruncF32U))
  | 50 => some (.plain (.fpu .i64TruncF64S))
  | 51 => some (.plain (.fpu .i64TruncF64U))
  | 52 => some (.plain (.fpu .f32ConvertI32S))
  | 53 => some (.plain (.fpu .f32ConvertI32U))
  | 54 => some (.plain (.fpu .f32ConvertI64S))
  | 55 => some (.plain (.fpu .f32ConvertI64U))
  | 56 => some (.plain (.fpu .f32DemoteF64))
  | 57 => some (.plain (.fpu .f64ConvertI32S))
  | 58 => some (.plain (.fpu .f64ConvertI32U))
  | 59 => some (.plain (.fpu .f64ConvertI64S))
  | 60 => some (.plain (.fpu .f64ConvertI64U))
  | 61 => some (.plain (.fpu .f64PromoteF32))
  | 62 => some (.plain (.fpu .i32TruncSatF32S))
  | 63 => some (.plain (.fpu .i32TruncSatF32U))
  | 64 => some (.plain (.fpu .i32TruncSatF64S))
  | 65 => some (.plain (.fpu .i32TruncSatF64U))
  | 66 => some (.plain (.fpu .i64TruncSatF32S))
  | 67 => some (.plain (.fpu .i64TruncSatF32U))
  | 68 => some (.plain (.fpu .i64TruncSatF64S))
  | 69 => some (.plain (.fpu .i64TruncSatF64U))
  | _ => none

/-- What the decoder reads for a code. -/
def Opcode.shape : Nat → Option Shape
  | 0 => some (.plain .unreachable)
  | 1 => some (.trapCode .trap)
  | 2 => some (.u32 .localGet)
  | 3 => some (.u32 .localSet)
  | 4 => some (.u32 .localTee)
  | 5 => some (.i32 .br)
  | 6 => some (.i32 .brIfEqz)
  | 7 => some (.i32 .brIfNez)
  | 8 => some (.u32 .brTable)
  | 9 => some (.u32 .consumeFuel)
  | 10 => some (.plain .consumeFuelStack)
  | 11 => some (.plain .ret)
  | 12 => some (.u32 .returnCallInternal)
  | 13 => some (.u32 .returnCall)
  | 14 => some (.u32 .returnCallIndirect)
  | 15 => some (.u32 .callInternal)
  | 16 => some (.u32 .call)
  | 17 => some (.u32 .callIndirect)
  | 18 => some (.u32 .signatureCheck)
  | 19 => some (.u32 .stackCheck)
  | 20 => some (.u32 .refFunc)
  | 21 => some (.u32 fun n => .i32Const (BitVec.ofNat 32 n))
  | 22 => some (.plain .drop)
  | 23 => some (.plain .select)
  | 24 => some (.u32 .globalGet)
  | 25 => some (.u32 .globalSet)
  | 26 => some (.u32 .i32Load)
  | 27 => some (.u32 .i32Load8S)
  | 28 => some (.u32 .i32Load8U)
  | 29 => some (.u32 .i32Load16S)
  | 30 => some (.u32 .i32Load16U)
  | 31 => some (.u32 .i32Store)
  | 32 => some (.u32 .i32Store8)
  | 33 => some (.u32 .i32Store16)
  | 34 => some (.plain .memorySize)
  | 35 => some (.plain .memoryGrow)
  | 36 => some (.plain .memoryFill)
  | 37 => some (.plain .memoryCopy)
  | 38 => some (.u32 .memoryInit)
  | 39 => some (.u32 .dataDrop)
  | 40 => some (.u16 .tableSize)
  | 41 => some (.u16 .tableGrow)
  | 42 => some (.u16 .tableFill)
  | 43 => some (.u16 .tableGet)
  | 44 => some (.u16 .tableSet)
  | 45 => some (.u16Pair .tableCopy)
  | 46 => some (.u32 .tableInit)
  | 47 => some (.u32 .elemDrop)
  | 48 => some (.plain .i32Eqz)
  | 49 => some (.plain .i32Eq)
  | 50 => some (.plain .i32Ne)
  | 51 => some (.plain .i32LtS)
  | 52 => some (.plain .i32LtU)
  | 53 => some (.plain .i32GtS)
  | 54 => some (.plain .i32GtU)
  | 55 => some (.plain .i32LeS)
  | 56 => some (.plain .i32LeU)
  | 57 => some (.plain .i32GeS)
  | 58 => some (.plain .i32GeU)
  | 59 => some (.plain .i32Clz)
  | 60 => some (.plain .i32Ctz)
  | 61 => some (.plain .i32Popcnt)
  | 62 => some (.plain .i32Add)
  | 63 => some (.plain .i32Sub)
  | 64 => some (.plain .i32Mul)
  | 65 => some (.plain .i32DivS)
  | 66 => some (.plain .i32DivU)
  | 67 => some (.plain .i32RemS)
  | 68 => some (.plain .i32RemU)
  | 69 => some (.plain .i32And)
  | 70 => some (.plain .i32Or)
  | 71 => some (.plain .i32Xor)
  | 72 => some (.plain .i32Shl)
  | 73 => some (.plain .i32ShrS)
  | 74 => some (.plain .i32ShrU)
  | 75 => some (.plain .i32Rotl)
  | 76 => some (.plain .i32Rotr)
  | 77 => some (.plain .i32WrapI64)
  | 78 => some (.plain .i32Extend8S)
  | 79 => some (.plain .i32Extend16S)
  | 80 => some (.plain .i32Mul64)
  | 81 => some (.plain .i32Add64)
  | 82 => some (.u32 .bulkConst)
  | 83 => some (.u32 .bulkDrop)
  | code => if FPU_OPCODE_OFFSET ≤ code then FpuOpcode.shape (code - FPU_OPCODE_OFFSET) else none

section

variable (variants : TrapCode.Numbering)

/-- The derived encoder of trap codes. -/
def TrapCode.encode (code : TrapCode) : List Byte :=
  encodeWord 4 (variants.number code).toNat

/-- The derived decoder of trap codes. -/
def TrapCode.decode : Decode TrapCode := do
  let v ← decodeWord 4
  match TrapCode.all.find? fun code => (variants.number code).toNat = v with
  | some code => pure code
  | none => Decoder.fail (.unexpectedVariant v)

/-- The bytes of an operand. -/
def Operand.encode : Operand → List Byte
  | .u16 v => encodeWord 2 v
  | .u32 v => encodeWord 4 v
  | .i32 v => encodeI32 v
  | .trapCode code => code.encode variants

/-- Reads the operands of an opcode. -/
def Shape.decode : Shape → Decode Opcode
  | .plain op => pure op
  | .u16 make => do
    let v ← decodeWord 2
    pure (make v)
  | .u16Pair make => do
    let v ← decodeWord 2
    let w ← decodeWord 2
    pure (make v w)
  | .u32 make => do
    let v ← decodeWord 4
    pure (make v)
  | .i32 make => do
    let v ← decodeI32
    pure (make v)
  | .trapCode make => do
    let code ← TrapCode.decode variants
    pure (make code)

/-- `Encode for Opcode`. -/
def Opcode.encode (op : Opcode) : List Byte :=
  encodeWord 4 op.code ++ op.operands.flatMap (Operand.encode variants)

/-- `Decode for Opcode`. -/
def Opcode.decode : Decode Opcode := do
  let code ← decodeWord 4
  match Opcode.shape code with
  | some shape => shape.decode variants
  | none => Decoder.fail (.other "rwasm: invalid opcode")

/-- `Encode for InstructionSet`. -/
def InstructionSet.encode (code : List Opcode) : List Byte :=
  encodeWord 8 code.length ++ code.flatMap (Opcode.encode variants)

/-- The most opcodes of eight bytes a vector can have room for: its size is at most `isize::MAX`. -/
def MAX_OPCODE_CAPACITY : Nat := (2 ^ 63 - 1) / 8

/-- The most elements a vector can have room for. A word takes four bytes. -/
def VecItem.capacity : VecItem → Nat
  | opcode => MAX_OPCODE_CAPACITY
  | byte => 2 ^ 63 - 1
  | word => (2 ^ 63 - 1) / 4

/-- `Decode for InstructionSet`; `Vec::with_capacity` panics on a capacity overflow. -/
def InstructionSet.decode : Decode (List Opcode) := do
  let length ← decodeWord 8
  Decoder.reserve .opcode VecItem.opcode.capacity length
  (Opcode.decode variants).times length

/-- The encoding of a `Vec<u8>`. -/
def encodeBytes (bytes : List Byte) : List Byte :=
  encodeWord 8 bytes.length ++ bytes

/-- The decoder of a `Vec<u8>`, which makes a vector of as many zeros first. -/
def decodeBytes : Decode (List Byte) := do
  let length ← decodeWord 8
  Decoder.reserve .byte VecItem.byte.capacity length
  Decoder.take .unexpectedEnd length

/-- The encoding of a `Vec<u32>`. -/
def encodeWords (words : List UntypedValue) : List Byte :=
  encodeWord 8 words.length ++ words.flatMap fun word => encodeWord 4 word.toNat

/-- The decoder of a `Vec<u32>`, which reserves space for as many words first. -/
def decodeWords : Decode (List UntypedValue) := do
  let length ← decodeWord 8
  Decoder.reserve .word VecItem.word.capacity length
  let words ← (decodeWord 4).times length
  pure (words.map (BitVec.ofNat 32))

/-- The first byte of a module. -/
def RWASM_MAGIC_BYTE_0 : Nat := 0xef

/-- The second byte. -/
def RWASM_MAGIC_BYTE_1 : Nat := 0x52

/-- The third byte, the version. -/
def RWASM_VERSION_V1 : Nat := 0x01

/-- `Encode for RwasmModuleInner`. -/
def RwasmModule.encode (m : RwasmModule) : List Byte :=
  encodeWord 1 RWASM_MAGIC_BYTE_0 ++ (encodeWord 1 RWASM_MAGIC_BYTE_1 ++
    (encodeWord 1 RWASM_VERSION_V1 ++ (InstructionSet.encode variants m.codeSection ++
      (encodeBytes m.dataSection ++ (encodeWords m.elemSection ++
        (encodeBytes m.hintSection ++ encodeWord 4 m.sourcePc))))))

/-- The errors after which the last field of a module counts as absent. -/
def DecodeError.isMissingWord : DecodeError → Bool
  | .unexpectedEnd additional => additional = 4
  | _ => false

/-- `Decode for RwasmModuleInner`. -/
def RwasmModule.decode : Decode RwasmModule := do
  let sig0 ← decodeWord 1
  let sig1 ← decodeWord 1
  if sig0 ≠ RWASM_MAGIC_BYTE_0 ∨ sig1 ≠ RWASM_MAGIC_BYTE_1 then
    Decoder.fail (.other "rwasm: invalid magic bytes")
  else
    let version ← decodeWord 1
    if version ≠ RWASM_VERSION_V1 then
      Decoder.fail (.other "rwasm: not supported version")
    else
      let codeSection ← InstructionSet.decode variants
      let dataSection ← decodeBytes
      let elemSection ← decodeWords
      let hintSection ← decodeBytes
      let sourcePc ← (decodeWord 4).orDefault DecodeError.isMissingWord 0
      pure { codeSection, dataSection, elemSection, hintSection, sourcePc }

/-- `RwasmModule::serialize`. -/
def RwasmModule.serialize (m : RwasmModule) : List Byte :=
  m.encode variants

/-- The outcome of decoding a module: the module and the number of bytes read, or the way the
decoder stopped, and the space it reserved. -/
structure CheckedModule where
  result : Except (Stop DecodeError) (RwasmModule × Nat)
  reserved : List (Reservation VecItem)

/-- `RwasmModule::new_checked`. -/
def RwasmModule.newChecked (sink : List Byte) : CheckedModule :=
  match RwasmModule.decode variants ⟨sink, []⟩ with
  | (.ok m, r) => ⟨.ok (m, sink.length - r.symbols.length), r.reserved⟩
  | (.error stop, r) => ⟨.error stop, r.reserved⟩

end

end Rwasm
