import Rwasm.Types.Value

/-!
# Opcodes

The instructions of the machine (`types/opcode.rs`). The arithmetic, load and store opcodes are
grouped by the shape of their handlers, the macros of `vm/executor/alu.rs` and
`vm/executor/memory.rs`; the names of the source stay available as abbreviations.

Immediates that only index something are natural numbers, branch offsets are integers, and the
immediate of `I32Const` is a slot.
-/

namespace Rwasm

open UntypedValue

/-- The floating-point opcodes; without the `fpu` feature the executor refuses all of them. -/
inductive FpuOpcode where
  | f32Load (offset : Nat)
  | f64Load (offset : Nat)
  | f32Store (offset : Nat)
  | f64Store (offset : Nat)
  | f32Eq
  | f32Ne
  | f32Lt
  | f32Gt
  | f32Le
  | f32Ge
  | f64Eq
  | f64Ne
  | f64Lt
  | f64Gt
  | f64Le
  | f64Ge
  | f32Abs
  | f32Neg
  | f32Ceil
  | f32Floor
  | f32Trunc
  | f32Nearest
  | f32Sqrt
  | f32Add
  | f32Sub
  | f32Mul
  | f32Div
  | f32Min
  | f32Max
  | f32Copysign
  | f64Abs
  | f64Neg
  | f64Ceil
  | f64Floor
  | f64Trunc
  | f64Nearest
  | f64Sqrt
  | f64Add
  | f64Sub
  | f64Mul
  | f64Div
  | f64Min
  | f64Max
  | f64Copysign
  | i32TruncF32S
  | i32TruncF32U
  | i32TruncF64S
  | i32TruncF64U
  | i64TruncF32S
  | i64TruncF32U
  | i64TruncF64S
  | i64TruncF64U
  | f32ConvertI32S
  | f32ConvertI32U
  | f32ConvertI64S
  | f32ConvertI64U
  | f32DemoteF64
  | f64ConvertI32S
  | f64ConvertI32U
  | f64ConvertI64S
  | f64ConvertI64U
  | f64PromoteF32
  | i32TruncSatF32S
  | i32TruncSatF32U
  | i32TruncSatF64S
  | i32TruncSatF64U
  | i64TruncSatF32S
  | i64TruncSatF32U
  | i64TruncSatF64S
  | i64TruncSatF64U
  deriving DecidableEq, Repr

/-- The opcodes (`Opcode`). -/
inductive Opcode where
  -- stack/system
  | unreachable
  | trap (code : TrapCode)
  | localGet (depth : Nat)
  | localSet (depth : Nat)
  | localTee (depth : Nat)
  | br (offset : Int)
  | brIfEqz (offset : Int)
  | brIfNez (offset : Int)
  | brTable (targets : Nat)
  | consumeFuel (fuel : Nat)
  | consumeFuelStack
  | ret
  | returnCallInternal (func : Nat)
  | returnCall (func : Nat)
  | returnCallIndirect (signature : Nat)
  | callInternal (func : Nat)
  | call (func : Nat)
  | callIndirect (signature : Nat)
  | signatureCheck (signature : Nat)
  | stackCheck (height : Nat)
  | refFunc (func : Nat)
  | i32Const (value : UntypedValue)
  | drop
  | select
  | globalGet (globalIdx : Nat)
  | globalSet (globalIdx : Nat)
  -- memory
  | load (op : LoadOp) (offset : Nat)
  | store (op : StoreOp) (offset : Nat)
  | memorySize
  | memoryGrow
  | memoryFill
  | memoryCopy
  | memoryInit (segment : Nat)
  | dataDrop (segment : Nat)
  -- table
  | tableSize (table : Nat)
  | tableGrow (table : Nat)
  | tableFill (table : Nat)
  | tableGet (table : Nat)
  | tableSet (table : Nat)
  | tableCopy (dst src : Nat)
  | tableInit (segment : Nat)
  | elemDrop (segment : Nat)
  -- alu
  | unary (op : UnaryOp)
  | binary (op : BinaryOp)
  | fallible (op : FallibleOp)
  | i32Mul64
  | i32Add64
  | bulkConst (locals : Nat)
  | bulkDrop (locals : Nat)
  -- fpu
  | fpu (op : FpuOpcode)
  deriving DecidableEq, Repr

namespace Opcode

@[match_pattern] abbrev i32Eqz : Opcode := .unary .i32Eqz
@[match_pattern] abbrev i32Clz : Opcode := .unary .i32Clz
@[match_pattern] abbrev i32Ctz : Opcode := .unary .i32Ctz
@[match_pattern] abbrev i32Popcnt : Opcode := .unary .i32Popcnt
@[match_pattern] abbrev i32WrapI64 : Opcode := .unary .i32WrapI64
@[match_pattern] abbrev i32Extend8S : Opcode := .unary .i32Extend8S
@[match_pattern] abbrev i32Extend16S : Opcode := .unary .i32Extend16S
@[match_pattern] abbrev i32Eq : Opcode := .binary .i32Eq
@[match_pattern] abbrev i32Ne : Opcode := .binary .i32Ne
@[match_pattern] abbrev i32LtS : Opcode := .binary .i32LtS
@[match_pattern] abbrev i32LtU : Opcode := .binary .i32LtU
@[match_pattern] abbrev i32GtS : Opcode := .binary .i32GtS
@[match_pattern] abbrev i32GtU : Opcode := .binary .i32GtU
@[match_pattern] abbrev i32LeS : Opcode := .binary .i32LeS
@[match_pattern] abbrev i32LeU : Opcode := .binary .i32LeU
@[match_pattern] abbrev i32GeS : Opcode := .binary .i32GeS
@[match_pattern] abbrev i32GeU : Opcode := .binary .i32GeU
@[match_pattern] abbrev i32Add : Opcode := .binary .i32Add
@[match_pattern] abbrev i32Sub : Opcode := .binary .i32Sub
@[match_pattern] abbrev i32Mul : Opcode := .binary .i32Mul
@[match_pattern] abbrev i32And : Opcode := .binary .i32And
@[match_pattern] abbrev i32Or : Opcode := .binary .i32Or
@[match_pattern] abbrev i32Xor : Opcode := .binary .i32Xor
@[match_pattern] abbrev i32Shl : Opcode := .binary .i32Shl
@[match_pattern] abbrev i32ShrS : Opcode := .binary .i32ShrS
@[match_pattern] abbrev i32ShrU : Opcode := .binary .i32ShrU
@[match_pattern] abbrev i32Rotl : Opcode := .binary .i32Rotl
@[match_pattern] abbrev i32Rotr : Opcode := .binary .i32Rotr
@[match_pattern] abbrev i32DivS : Opcode := .fallible .i32DivS
@[match_pattern] abbrev i32DivU : Opcode := .fallible .i32DivU
@[match_pattern] abbrev i32RemS : Opcode := .fallible .i32RemS
@[match_pattern] abbrev i32RemU : Opcode := .fallible .i32RemU
@[match_pattern] abbrev i32Load (offset : Nat) : Opcode := .load .i32Load offset
@[match_pattern] abbrev i32Load8S (offset : Nat) : Opcode := .load .i32Load8S offset
@[match_pattern] abbrev i32Load8U (offset : Nat) : Opcode := .load .i32Load8U offset
@[match_pattern] abbrev i32Load16S (offset : Nat) : Opcode := .load .i32Load16S offset
@[match_pattern] abbrev i32Load16U (offset : Nat) : Opcode := .load .i32Load16U offset
@[match_pattern] abbrev i32Store (offset : Nat) : Opcode := .store .i32Store offset
@[match_pattern] abbrev i32Store8 (offset : Nat) : Opcode := .store .i32Store8 offset
@[match_pattern] abbrev i32Store16 (offset : Nat) : Opcode := .store .i32Store16 offset

/-- Rewrites the offset of a branch (`update_branch_offset`); the source panics on other opcodes. -/
def updateBranchOffset (op : Opcode) (offset : Int) : Option Opcode :=
  match op with
  | br _ => some (br offset)
  | brIfEqz _ => some (brIfEqz offset)
  | brIfNez _ => some (brIfNez offset)
  | _ => none

end Opcode

/-- `BranchOffset::from_src_to_dst`: the offset must fit 32 signed bits. -/
def branchOffset (src dst : Nat) : Option Int :=
  let offset : Int := dst - src
  if -2 ^ 31 ≤ offset ∧ offset < 2 ^ 31 then some offset else none

end Rwasm
