import Rwasm.Compiler.FuncTypeRegistry

/-!
# Wasm operators

The operators of a function body: flat, as the parser reads them (`wasmparser::Operator`), and
structured, as an expression whose blocks nest. A body is the flat form of an expression, with the
`end` that closes it.

Proposals the compiler refuses are left out, and so are memory indices, which are always `0`.
-/

namespace Rwasm

/-- The numeric operators. -/
inductive NumericOperator where
  | i32Eqz
  | i32Eq
  | i32Ne
  | i32LtS
  | i32LtU
  | i32GtS
  | i32GtU
  | i32LeS
  | i32LeU
  | i32GeS
  | i32GeU
  | i64Eqz
  | i64Eq
  | i64Ne
  | i64LtS
  | i64LtU
  | i64GtS
  | i64GtU
  | i64LeS
  | i64LeU
  | i64GeS
  | i64GeU
  | f32Eq
  | f32Ne
  | f32Lt
  | f32Gt
  | f32Le
  | f32Ge
  | f64Eq
  | f64Ne
  | f64Lt
  | f64Gt
  | f64Le
  | f64Ge
  | i32Clz
  | i32Ctz
  | i32Popcnt
  | i32Add
  | i32Sub
  | i32Mul
  | i32DivS
  | i32DivU
  | i32RemS
  | i32RemU
  | i32And
  | i32Or
  | i32Xor
  | i32Shl
  | i32ShrS
  | i32ShrU
  | i32Rotl
  | i32Rotr
  | i64Clz
  | i64Ctz
  | i64Popcnt
  | i64Add
  | i64Sub
  | i64Mul
  | i64DivS
  | i64DivU
  | i64RemS
  | i64RemU
  | i64And
  | i64Or
  | i64Xor
  | i64Shl
  | i64ShrS
  | i64ShrU
  | i64Rotl
  | i64Rotr
  | f32Abs
  | f32Neg
  | f32Ceil
  | f32Floor
  | f32Trunc
  | f32Nearest
  | f32Sqrt
  | f32Add
  | f32Sub
  | f32Mul
  | f32Div
  | f32Min
  | f32Max
  | f32Copysign
  | f64Abs
  | f64Neg
  | f64Ceil
  | f64Floor
  | f64Trunc
  | f64Nearest
  | f64Sqrt
  | f64Add
  | f64Sub
  | f64Mul
  | f64Div
  | f64Min
  | f64Max
  | f64Copysign
  | i32TruncF32S
  | i32TruncF32U
  | i32TruncF64S
  | i32TruncF64U
  | i64ExtendI32S
  | i64ExtendI32U
  | i64TruncF32S
  | i64TruncF32U
  | i64TruncF64S
  | i64TruncF64U
  | f32ConvertI32S
  | f32ConvertI32U
  | f32ConvertI64S
  | f32ConvertI64U
  | f32DemoteF64
  | f64ConvertI32S
  | f64ConvertI32U
  | f64ConvertI64S
  | f64ConvertI64U
  | f64PromoteF32
  | i32ReinterpretF32
  | i64ReinterpretF64
  | f32ReinterpretI32
  | f64ReinterpretI64
  | i32Extend8S
  | i32Extend16S
  | i64Extend8S
  | i64Extend16S
  | i64Extend32S
  | i32TruncSatF32S
  | i32TruncSatF32U
  | i32TruncSatF64S
  | i32TruncSatF64U
  | i64TruncSatF32S
  | i64TruncSatF32U
  | i64TruncSatF64S
  | i64TruncSatF64U
  deriving DecidableEq, Repr

/-- The loads. -/
inductive LoadOperator where
  | i32Load
  | i64Load
  | f32Load
  | f64Load
  | i32Load8S
  | i32Load8U
  | i32Load16S
  | i32Load16U
  | i64Load8S
  | i64Load8U
  | i64Load16S
  | i64Load16U
  | i64Load32S
  | i64Load32U
  deriving DecidableEq, Repr

/-- The stores. -/
inductive StoreOperator where
  | i32Store
  | i64Store
  | f32Store
  | f64Store
  | i32Store8
  | i32Store16
  | i64Store8
  | i64Store16
  | i64Store32
  deriving DecidableEq, Repr

/-- The operators that go on with the next one. -/
inductive PlainOperator where
  | nop
  | call (func : Nat)
  | callIndirect (type table : Nat)
  | drop
  | select
  | typedSelect (type : ValType)
  | localGet (idx : Nat)
  | localSet (idx : Nat)
  | localTee (idx : Nat)
  | globalGet (idx : Nat)
  | globalSet (idx : Nat)
  | load (op : LoadOperator) (offset : Nat)
  | store (op : StoreOperator) (offset : Nat)
  | memorySize
  | memoryGrow
  | i32Const (value : BitVec 32)
  | i64Const (value : BitVec 64)
  | f32Const (bits : BitVec 32)
  | f64Const (bits : BitVec 64)
  | refNull (type : ValType)
  | refIsNull
  | refFunc (func : Nat)
  | i32WrapI64
  | numeric (op : NumericOperator)
  | memoryInit (segment : Nat)
  | dataDrop (segment : Nat)
  | memoryCopy
  | memoryFill
  | tableInit (segment table : Nat)
  | elemDrop (segment : Nat)
  | tableCopy (dst src : Nat)
  | tableFill (table : Nat)
  | tableGet (table : Nat)
  | tableSet (table : Nat)
  | tableGrow (table : Nat)
  | tableSize (table : Nat)
  deriving DecidableEq, Repr

/-- The operators that never go on with the next one. -/
inductive LeavingOperator where
  | unreachable
  | br (depth : Nat)
  | brTable (targets : List Nat) (default : Nat)
  | ret
  | returnCall (func : Nat)
  | returnCallIndirect (type table : Nat)
  deriving DecidableEq, Repr

/-- The operators, in the order of the binary format. -/
inductive Operator where
  | plain (op : PlainOperator)
  | leave (op : LeavingOperator)
  | brIf (depth : Nat)
  | block (type : BlockType)
  | loop (type : BlockType)
  | if (type : BlockType)
  | else
  | end
  deriving DecidableEq, Repr

/-- Structured instruction sequences. Each constructor holds the rest of its sequence. -/
inductive Expr where
  | nil
  | plain (op : PlainOperator) (rest : Expr)
  | leave (op : LeavingOperator) (rest : Expr)
  | brIf (depth : Nat) (rest : Expr)
  | block (type : BlockType) (body rest : Expr)
  | loop (type : BlockType) (body rest : Expr)
  | if (type : BlockType) (body rest : Expr)
  | ifElse (type : BlockType) (body orelse rest : Expr)

/-- The operators of an expression. -/
def Expr.flatten : Expr → List Operator
  | nil => []
  | plain op rest => .plain op :: rest.flatten
  | leave op rest => .leave op :: rest.flatten
  | brIf depth rest => .brIf depth :: rest.flatten
  | block type body rest => .block type :: (body.flatten ++ .end :: rest.flatten)
  | loop type body rest => .loop type :: (body.flatten ++ .end :: rest.flatten)
  | .if type body rest => .if type :: (body.flatten ++ .end :: rest.flatten)
  | ifElse type body orelse rest =>
    .if type :: (body.flatten ++ .else :: (orelse.flatten ++ .end :: rest.flatten))

/-- A function of a module: its type, the groups of its locals, and its body. -/
structure FuncBody where
  type : Nat
  locals : List (Nat × ValType)
  body : Expr

/-- The operators of a function body, with the `end` that closes it. -/
def FuncBody.operators (f : FuncBody) : List Operator :=
  f.body.flatten ++ [.end]

end Rwasm
