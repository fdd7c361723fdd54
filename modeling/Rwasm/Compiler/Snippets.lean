import Rwasm.Isa.Arithmetic
import Rwasm.Isa.Bitwise
import Rwasm.Isa.Division
import Rwasm.Isa.Memory
import Rwasm.Wasm.Syntax

/-!
# Emitted sequences

The 64-bit operations that can be called as snippets (`compiler/snippets.rs`), and the sequence each
numeric operator, load and store is translated to, with the routine of the translator that does it.

Without the `fpu` feature every floating-point instruction is emitted as a trap.
-/

namespace Rwasm

open InstructionSet

/-- The operations that have a snippet (`Snippet`). -/
inductive Snippet where
  | i64Eq
  | i64Ne
  | i64LtS
  | i64LtU
  | i64GtS
  | i64GtU
  | i64LeS
  | i64LeU
  | i64GeS
  | i64GeU
  | i64Add
  | i64Sub
  | i64Mul
  | i64DivS
  | i64DivU
  | i64RemS
  | i64RemU
  | i64Shl
  | i64ShrS
  | i64ShrU
  | i64RotL
  | i64RotR
  deriving DecidableEq, Repr

/-- What a snippet consists of (`SnippetDefinition`). -/
structure SnippetDefinition where
  emitter : List Opcode
  maxStackHeight : Nat
  origParams : List ValType
  origResults : List ValType

namespace Snippet

/-- `definition`. -/
def definition : Snippet → SnippetDefinition
  | i64Eq => ⟨opI64Eq, MSH_I64_EQ, [.i64, .i64], [.i32]⟩
  | i64Ne => ⟨opI64Ne, MSH_I64_NE, [.i64, .i64], [.i32]⟩
  | i64LtS => ⟨opI64LtS, MSH_I64_LT_S, [.i64, .i64], [.i32]⟩
  | i64LtU => ⟨opI64LtU, MSH_I64_LT_U, [.i64, .i64], [.i32]⟩
  | i64GtS => ⟨opI64GtS, MSH_I64_GT_S, [.i64, .i64], [.i32]⟩
  | i64GtU => ⟨opI64GtU, MSH_I64_GT_U, [.i64, .i64], [.i32]⟩
  | i64LeS => ⟨opI64LeS, MSH_I64_LE_S, [.i64, .i64], [.i32]⟩
  | i64LeU => ⟨opI64LeU, MSH_I64_LE_U, [.i64, .i64], [.i32]⟩
  | i64GeS => ⟨opI64GeS, MSH_I64_GE_S, [.i64, .i64], [.i32]⟩
  | i64GeU => ⟨opI64GeU, MSH_I64_GE_U, [.i64, .i64], [.i32]⟩
  | i64Add => ⟨opI64Add, MSH_I64_ADD, [.i64, .i64], [.i64]⟩
  | i64Sub => ⟨opI64Sub, MSH_I64_SUB, [.i64, .i64], [.i64]⟩
  | i64Mul => ⟨opI64Mul, MSH_I64_MUL, [.i64, .i64], [.i64]⟩
  | i64DivS => ⟨opI64DivS, MSH_I64_DIV_S, [.i64, .i64], [.i64]⟩
  | i64DivU => ⟨opI64DivU, MSH_I64_DIV_U, [.i64, .i64], [.i64]⟩
  | i64RemS => ⟨opI64RemS, MSH_I64_REM_S, [.i64, .i64], [.i64]⟩
  | i64RemU => ⟨opI64RemU, MSH_I64_REM_U, [.i64, .i64], [.i64]⟩
  | i64Shl => ⟨opI64Shl, MSH_I64_SHL, [.i64, .i64], [.i64]⟩
  | i64ShrS => ⟨opI64ShrS, MSH_I64_SHR_S, [.i64, .i64], [.i64]⟩
  | i64ShrU => ⟨opI64ShrU, MSH_I64_SHR_U, [.i64, .i64], [.i64]⟩
  | i64RotL => ⟨opI64Rotl, MSH_I64_ROTL, [.i64, .i64], [.i64]⟩
  | i64RotR => ⟨opI64Rotr, MSH_I64_ROTR, [.i64, .i64], [.i64]⟩

/-- `func_type`: the type over slots. -/
def funcType (s : Snippet) : FuncType where
  params := expandTypes s.definition.origParams
  results := expandTypes s.definition.origResults

end Snippet

/-- A call of a snippet that is still to be linked (`SnippetCall`). -/
structure SnippetCall where
  loc : Nat
  snippet : Snippet
  deriving DecidableEq, Repr

/-- What a floating-point instruction is emitted as. -/
def InstructionSet.opFpu : List Opcode :=
  [.trap .illegalOpcode]

/-- The translator routine of a numeric operator, with what it emits and the slots that needs. -/
inductive Translation where
  | unary (emitted : List Opcode) (maxStackHeight : Nat)
  | binary (emitted : List Opcode) (maxStackHeight : Nat)
  | unaryCompare (emitted : List Opcode) (maxStackHeight : Nat)
  | binaryCompare (emitted : List Opcode) (maxStackHeight : Nat)
  | conversion (input output : ValType) (emitted : List Opcode) (maxStackHeight : Nat)
  | reinterpret (input output : ValType)
  | snippet (s : Snippet)

/-- The routine each numeric operator is visited with. -/
def NumericOperator.translation : NumericOperator → Translation
  | i32Eqz => .unaryCompare [.i32Eqz] 0
  | i32Eq => .binaryCompare [.i32Eq] 0
  | i32Ne => .binaryCompare [.i32Ne] 0
  | i32LtS => .binaryCompare [.i32LtS] 0
  | i32LtU => .binaryCompare [.i32LtU] 0
  | i32GtS => .binaryCompare [.i32GtS] 0
  | i32GtU => .binaryCompare [.i32GtU] 0
  | i32LeS => .binaryCompare [.i32LeS] 0
  | i32LeU => .binaryCompare [.i32LeU] 0
  | i32GeS => .binaryCompare [.i32GeS] 0
  | i32GeU => .binaryCompare [.i32GeU] 0
  | i64Eqz => .unaryCompare opI64Eqz MSH_I64_EQZ
  | i64Eq => .snippet .i64Eq
  | i64Ne => .snippet .i64Ne
  | i64LtS => .snippet .i64LtS
  | i64LtU => .snippet .i64LtU
  | i64GtS => .snippet .i64GtS
  | i64GtU => .snippet .i64GtU
  | i64LeS => .snippet .i64LeS
  | i64LeU => .snippet .i64LeU
  | i64GeS => .snippet .i64GeS
  | i64GeU => .snippet .i64GeU
  | f32Eq => .binaryCompare opFpu 0
  | f32Ne => .binaryCompare opFpu 0
  | f32Lt => .binaryCompare opFpu 0
  | f32Gt => .binaryCompare opFpu 0
  | f32Le => .binaryCompare opFpu 0
  | f32Ge => .binaryCompare opFpu 0
  | f64Eq => .binaryCompare opFpu 0
  | f64Ne => .binaryCompare opFpu 0
  | f64Lt => .binaryCompare opFpu 0
  | f64Gt => .binaryCompare opFpu 0
  | f64Le => .binaryCompare opFpu 0
  | f64Ge => .binaryCompare opFpu 0
  | i32Clz => .unary [.i32Clz] 0
  | i32Ctz => .unary [.i32Ctz] 0
  | i32Popcnt => .unary [.i32Popcnt] 0
  | i32Add => .binary [.i32Add] 0
  | i32Sub => .binary [.i32Sub] 0
  | i32Mul => .binary [.i32Mul] 0
  | i32DivS => .binary [.i32DivS] 0
  | i32DivU => .binary [.i32DivU] 0
  | i32RemS => .binary [.i32RemS] 0
  | i32RemU => .binary [.i32RemU] 0
  | i32And => .binary [.i32And] 0
  | i32Or => .binary [.i32Or] 0
  | i32Xor => .binary [.i32Xor] 0
  | i32Shl => .binary [.i32Shl] 0
  | i32ShrS => .binary [.i32ShrS] 0
  | i32ShrU => .binary [.i32ShrU] 0
  | i32Rotl => .binary [.i32Rotl] 0
  | i32Rotr => .binary [.i32Rotr] 0
  | i64Clz => .unary opI64Clz MSH_I64_CLZ
  | i64Ctz => .unary opI64Ctz MSH_I64_CTZ
  | i64Popcnt => .unary opI64Popcnt MSH_I64_POPCNT
  | i64Add => .snippet .i64Add
  | i64Sub => .snippet .i64Sub
  | i64Mul => .snippet .i64Mul
  | i64DivS => .snippet .i64DivS
  | i64DivU => .snippet .i64DivU
  | i64RemS => .snippet .i64RemS
  | i64RemU => .snippet .i64RemU
  | i64And => .binary opI64And MSH_I64_AND
  | i64Or => .binary opI64Or MSH_I64_OR
  | i64Xor => .binary opI64Xor MSH_I64_XOR
  | i64Shl => .snippet .i64Shl
  | i64ShrS => .snippet .i64ShrS
  | i64ShrU => .snippet .i64ShrU
  | i64Rotl => .snippet .i64RotL
  | i64Rotr => .snippet .i64RotR
  | f32Abs => .unary opFpu 0
  | f32Neg => .unary opFpu 0
  | f32Ceil => .unary opFpu 0
  | f32Floor => .unary opFpu 0
  | f32Trunc => .unary opFpu 0
  | f32Nearest => .unary opFpu 0
  | f32Sqrt => .unary opFpu 0
  | f32Add => .binary opFpu 0
  | f32Sub => .binary opFpu 0
  | f32Mul => .binary opFpu 0
  | f32Div => .binary opFpu 0
  | f32Min => .binary opFpu 0
  | f32Max => .binary opFpu 0
  | f32Copysign => .binary opFpu 0
  | f64Abs => .unary opFpu 0
  | f64Neg => .unary opFpu 0
  | f64Ceil => .unary opFpu 0
  | f64Floor => .unary opFpu 0
  | f64Trunc => .unary opFpu 0
  | f64Nearest => .unary opFpu 0
  | f64Sqrt => .unary opFpu 0
  | f64Add => .binary opFpu 0
  | f64Sub => .binary opFpu 0
  | f64Mul => .binary opFpu 0
  | f64Div => .binary opFpu 0
  | f64Min => .binary opFpu 0
  | f64Max => .binary opFpu 0
  | f64Copysign => .binary opFpu 0
  | i32TruncF32S => .conversion .f32 .i32 opFpu 0
  | i32TruncF32U => .conversion .f32 .i32 opFpu 0
  | i32TruncF64S => .conversion .f64 .i32 opFpu 0
  | i32TruncF64U => .conversion .f64 .i32 opFpu 0
  | i64ExtendI32S => .conversion .i32 .i64 opI64ExtendI32S MSH_I64_EXTEND_I32_S
  | i64ExtendI32U => .conversion .i32 .i64 opI64ExtendI32U MSH_I64_EXTEND_I32_U
  | i64TruncF32S => .conversion .f32 .i64 opFpu 0
  | i64TruncF32U => .conversion .f32 .i64 opFpu 0
  | i64TruncF64S => .conversion .f64 .i64 opFpu 0
  | i64TruncF64U => .conversion .f64 .i64 opFpu 0
  | f32ConvertI32S => .conversion .i32 .f32 opFpu 0
  | f32ConvertI32U => .conversion .i32 .f32 opFpu 0
  | f32ConvertI64S => .conversion .i64 .f32 opFpu 0
  | f32ConvertI64U => .conversion .i64 .f32 opFpu 0
  | f32DemoteF64 => .conversion .f64 .f32 opFpu 0
  | f64ConvertI32S => .conversion .i32 .f64 opFpu 0
  | f64ConvertI32U => .conversion .i32 .f64 opFpu 0
  | f64ConvertI64S => .conversion .i64 .f64 opFpu 0
  | f64ConvertI64U => .conversion .i64 .f64 opFpu 0
  | f64PromoteF32 => .conversion .f32 .f64 opFpu 0
  | i32ReinterpretF32 => .reinterpret .f32 .i32
  | i64ReinterpretF64 => .reinterpret .f64 .i64
  | f32ReinterpretI32 => .reinterpret .i32 .f32
  | f64ReinterpretI64 => .reinterpret .i64 .f64
  | i32Extend8S => .unary [.i32Extend8S] 0
  | i32Extend16S => .unary [.i32Extend16S] 0
  | i64Extend8S => .unary opI64Extend8S MSH_I64_EXTEND8_S
  | i64Extend16S => .unary opI64Extend16S MSH_I64_EXTEND16_S
  | i64Extend32S => .unary opI64Extend32S MSH_I64_EXTEND32_S
  | i32TruncSatF32S => .conversion .f32 .i32 opFpu 0
  | i32TruncSatF32U => .conversion .f32 .i32 opFpu 0
  | i32TruncSatF64S => .conversion .f64 .i32 opFpu 0
  | i32TruncSatF64U => .conversion .f64 .i32 opFpu 0
  | i64TruncSatF32S => .conversion .f32 .i64 opFpu 0
  | i64TruncSatF32U => .conversion .f32 .i64 opFpu 0
  | i64TruncSatF64S => .conversion .f64 .i64 opFpu 0
  | i64TruncSatF64U => .conversion .f64 .i64 opFpu 0

/-- The type a load pushes. -/
def LoadOperator.loadedType : LoadOperator → ValType
  | i32Load | i32Load8S | i32Load8U | i32Load16S | i32Load16U => .i32
  | f32Load => .f32
  | f64Load => .f64
  | _ => .i64

/-- What a load is emitted as. -/
def LoadOperator.emitted (op : LoadOperator) (offset : Nat) : List Opcode :=
  match op with
  | i32Load => [.i32Load offset]
  | i64Load => opI64Load offset
  | f32Load | f64Load => opFpu
  | i32Load8S => [.i32Load8S offset]
  | i32Load8U => [.i32Load8U offset]
  | i32Load16S => [.i32Load16S offset]
  | i32Load16U => [.i32Load16U offset]
  | i64Load8S => opI64Load8S offset
  | i64Load8U => opI64Load8U offset
  | i64Load16S => opI64Load16S offset
  | i64Load16U => opI64Load16U offset
  | i64Load32S => opI64Load32S offset
  | i64Load32U => opI64Load32U offset

/-- The slots a load needs above its operands. -/
def LoadOperator.maxStackHeight : LoadOperator → Nat
  | i64Load => MSH_I64_LOAD
  | i64Load8S => MSH_I64_LOAD8_S
  | i64Load8U => MSH_I64_LOAD8_U
  | i64Load16S => MSH_I64_LOAD16_S
  | i64Load16U => MSH_I64_LOAD16_U
  | i64Load32S => MSH_I64_LOAD32_S
  | i64Load32U => MSH_I64_LOAD32_U
  | _ => 0

/-- The type a store pops. -/
def StoreOperator.storedType : StoreOperator → ValType
  | i32Store | i32Store8 | i32Store16 => .i32
  | f32Store => .f32
  | f64Store => .f64
  | _ => .i64

/-- What a store is emitted as. -/
def StoreOperator.emitted (op : StoreOperator) (offset : Nat) : List Opcode :=
  match op with
  | i32Store => [.i32Store offset]
  | i64Store => opI64Store offset
  | f32Store | f64Store => opFpu
  | i32Store8 => [.i32Store8 offset]
  | i32Store16 => [.i32Store16 offset]
  | i64Store8 => opI64Store8 offset
  | i64Store16 => opI64Store16 offset
  | i64Store32 => opI64Store32 offset

/-- The slots a store needs above its operands. -/
def StoreOperator.maxStackHeight : StoreOperator → Nat
  | i64Store => MSH_I64_STORE
  | _ => 0

end Rwasm
