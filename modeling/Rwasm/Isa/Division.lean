import Rwasm.Types.Opcode

/-!
# 64-bit division

The sequences of the 64-bit divisions and remainders over 32-bit limbs (`isa/div_s.rs`,
`isa/div_u.rs`, `isa/rem_s.rs`, `isa/rem_u.rs`). Their backward branches are the loops of long
division, one bit of the quotient a turn.
-/

namespace Rwasm

namespace InstructionSet

open Opcode

/-- The height declared for `i64.div_s`. -/
def MSH_I64_DIV_S : Nat := 17

/-- The operands are made positive, divided bit by bit, and the quotient gets its sign. -/
def opI64DivS : List Opcode :=
  [i32Const 0, i32Const 0, i32Const 0, i32Const 0, i32Const 0, i32Const 0, i32Const 0, i32Const 0,
    i32Const 0, localGet 10, localGet 12, i32Or, brIfNez 2, trap .integerDivisionByZero,
    localGet 12, i32Const (-2147483648), i32Ne, brIfNez 12, localGet 10, i32Const (-1), i32Ne,
    brIfNez 8, localGet 13, brIfNez 43, localGet 11, i32Const (-1), i32Ne, brIfNez 39,
    trap .integerOverflow, localGet 12, i32Const (-1), i32GtS, brIfNez 17, i32Const 0,
    localGet 14, i32Sub, localSet 9, localGet 13, i32Eqz, localGet 13, i32Const (-1), i32Xor,
    i32Add, localSet 8, localGet 10, i32Const 0, i32LtS, brIfNez 28, br 13, localGet 13,
    localSet 9, localGet 12, localSet 8, localGet 10, i32Const (-1), i32LeS, brIfNez 19,
    localGet 13, localSet 9, localGet 12, localSet 8, localGet 10, localSet 7, localGet 11,
    localSet 6, br 21, i32Const 2147483647, i32Const (-2147483648), localGet 15, select,
    localSet 8, i32Const 0, localGet 14, i32Sub, localSet 9, i32Const 0, localGet 12, i32Sub,
    localSet 6, localGet 11, i32Eqz, localGet 11, i32Const (-1), i32Xor, i32Add, localSet 7,
    i32Const 0, localSet 11, i32Const 64, localSet 5, i32Const 0, localSet 4, i32Const 0,
    localSet 3, i32Const 0, localSet 2, localGet 4, i32Const 1, i32Shl, localGet 9, i32Const 31,
    i32ShrU, i32Or, localSet 13, localGet 11, i32Const 1, i32Shl, localGet 5, i32Const 31,
    i32ShrU, i32Or, localTee 12, localGet 8, i32GtU, brIfNez 14, i32Const 0, localSet 1,
    localGet 11, localGet 8, i32Ne, brIfNez 5, localGet 13, localGet 7, i32GeU, brIfNez 4,
    localGet 13, localSet 4, br 15, localGet 11, localGet 8, i32Sub, localGet 14, localGet 8,
    i32LtU, i32Sub, localSet 11, localGet 13, localGet 7, i32Sub, localSet 4, i32Const 1,
    localSet 1, localGet 8, i32Const 1, i32Shl, localGet 10, i32Const 31, i32ShrU, i32Or,
    localSet 8, localGet 9, i32Const 1, i32Shl, localSet 9, localGet 3, i32Const 1, i32Shl,
    localGet 3, i32Const 31, i32ShrU, i32Or, localSet 3, localGet 1, localGet 3, i32Const 1,
    i32Shl, i32Or, localSet 2, localGet 5, i32Const (-1), i32Add, localTee 6, brIfNez (-76),
    localGet 10, localGet 13, i32Xor, i32Const (-1), i32LeS, brIfNez 4, localGet 2, localSet 11,
    br 12, i32Const 0, localGet 3, i32Sub, localSet 11, localGet 2, i32Eqz, localGet 4,
    i32Const (-1), i32Xor, i32Add, localSet 3, localGet 3, i32Const 0, i32Const 32, i32Const 0,
    localGet 2, i32Const 63, i32And, localSet 2, localGet 2, brIfEqz 32, localGet 2, i32Const 31,
    i32GtU, brIfEqz 10, localGet 4, localGet 3, i32Const 32, i32Sub, i32Shl, localSet 3,
    i32Const 0, localSet 4, br 19, localGet 4, localGet 3, i32Shl, localSet 4, localGet 3,
    localGet 3, i32Shl, localSet 3, localGet 4, i32Const 32, localGet 4, i32Const 31, i32And,
    i32Sub, i32ShrU, localGet 4, i32Or, localSet 3, drop, drop, localGet 13, i32Const 0,
    localGet 3, i32Or, localSet 2, localGet 3, i32Or, localSet 2, localSet 13, localSet 13, drop,
    drop, drop, drop, drop, drop, drop, drop, drop, drop, drop]

/-- The height declared for `i64.div_u`. -/
def MSH_I64_DIV_U : Nat := 21

/-- Small divisors take shorter ways; for the other ones the quotient is found bit by bit. -/
def opI64DivU : List Opcode :=
  [i32Const 0, i32Const 0, i32Const 0, i32Const 0, i32Const 0, i32Const 0, i32Const 0, localGet 8,
    brIfNez 19, localGet 9, i32Eqz, brIfNez 25, localGet 10, brIfNez 9, i32Const 0, localSet 7,
    i32Const 0, localSet 6, localGet 11, localGet 10, i32LtU, brIfNez 251, localGet 9,
    i32Const 4294967295, i32GtS, brIfNez 12, br 159, i32Const 0, localSet 7, localGet 10,
    localGet 9, i32GeU, brIfNez 143, i32Const 0, localSet 6, br 237, trap .integerDivisionByZero,
    i32Const 0, localSet 7, i32Const 95, localSet 5, i32Const 0, localSet 4, localGet 4,
    i32Const 1, i32Shl, localSet 4, localGet 5, i32Const 4294967265, i32Add, localTee 7,
    i32Const 32, i32GtU, brIfNez 26, localGet 10, localGet 6, i32Const 4294967264, i32Add,
    localTee 5, i32ShrU, i32Const 1, i32And, localGet 5, i32Or, localTee 5, localGet 10, i32LtU,
    brIfNez 26, localGet 4, localGet 10, i32Sub, localSet 4, localGet 7, i32Const 1, localGet 5,
    i32Shl, i32Or, localSet 7, br 15, localGet 4, localGet 10, i32LtU, brIfNez 11, localGet 4,
    localGet 10, i32Sub, localSet 4, i32Const 1, localGet 6, i32Shl, localGet 8, i32Or,
    localSet 7, localGet 5, i32Const 4294967295, i32Add, localSet 5, localGet 6, i32Const 1,
    i32GtU, brIfNez (-57), i32Const 0, localSet 6, i32Const 95, localSet 5, i32Const 0,
    localSet 10, localGet 10, i32Const 1, i32Shl, localSet 10, localGet 5, i32Const 4294967265,
    i32Add, localTee 4, i32Const 32, i32GtU, brIfNez 26, localGet 11, localGet 6,
    i32Const 4294967264, i32Add, localTee 10, i32ShrU, i32Const 1, i32And, localGet 11, i32Or,
    localTee 11, localGet 10, i32LtU, brIfNez 35, localGet 10, localGet 10, i32Sub, localSet 10,
    localGet 6, i32Const 1, localGet 10, i32Shl, i32Or, localSet 6, br 24, localGet 4, localGet 6,
    i32ShrU, i32Const 1, i32And, localGet 11, i32Or, localTee 11, localGet 10, i32LtU, brIfNez 13,
    localGet 10, localGet 10, i32Sub, localSet 10, i32Const 1, localGet 6, i32Const 31, i32And,
    i32Shl, localGet 7, i32Or, localSet 6, localGet 5, i32Const 4294967295, i32Add, localSet 5,
    localGet 3, i32Const 1, i32GtU, brIfNez (-66), br 98, localGet 11, localGet 10, i32GeU,
    brIfNez 7, i32Const 0, localSet 6, localGet 10, localGet 9, i32Eq, brIfNez 88, i32Const 0,
    localSet 4, i32Const 64, localSet 2, i32Const 0, localSet 7, i32Const 0, localSet 6,
    i32Const 0, localSet 3, localGet 3, i32Const 1, i32Shl, localGet 11, i32Const 31, i32ShrU,
    i32Or, localSet 5, localGet 4, i32Const 1, i32Shl, localGet 4, i32Const 31, i32ShrU, i32Or,
    localTee 5, localGet 9, i32GtU, brIfNez 14, i32Const 0, localSet 1, localGet 4, localGet 9,
    i32Ne, brIfNez 5, localGet 5, localGet 10, i32GeU, brIfNez 4, localGet 5, localSet 3, br 15,
    localGet 4, localGet 9, i32Sub, localGet 6, localGet 11, i32LtU, i32Sub, localSet 4,
    localGet 5, localGet 10, i32Sub, localSet 3, i32Const 1, localSet 1, localGet 10, i32Const 1,
    i32Shl, localGet 12, i32Const 31, i32ShrU, i32Or, localSet 10, localGet 11, i32Const 1,
    i32Shl, localSet 11, localGet 7, i32Const 1, i32Shl, localGet 7, i32Const 31, i32ShrU, i32Or,
    localSet 7, localGet 1, localGet 7, i32Const 1, i32Shl, i32Or, localSet 6, localGet 2,
    i32Const 4294967295, i32Add, localTee 3, brIfNez (-76), localGet 7, i32Const 0, i32Const 32,
    i32Const 0, i32Const 0, i32Const 0, localGet 4, i32Const 63, i32And, localTee 3, brIfNez 4,
    localGet 6, localSet 1, br 44, localGet 2, i32Const 32, i32Eq, brIfNez 36, localGet 2,
    i32Const 4294967295, i32Add, i32Const 31, i32LtU, brIfNez 10, i32Const 0, localSet 1,
    localGet 2, i32Const 32, i32GtU, brIfNez 19, i32Const 0, localSet 5, br 25, localGet 5,
    localGet 5, i32Shl, localGet 7, i32Const 0, localGet 7, i32Sub, i32ShrU, i32Or, localSet 5,
    localGet 6, localGet 5, i32Shl, localSet 1, br 10, localGet 6, localGet 5, i32Shl, localSet 5,
    br 5, i32Const 0, localSet 1, localGet 6, localSet 5, localGet 5, i32Const 0, i32Const 32,
    i32Const 0, localGet 2, i32Const 63, i32And, localSet 2, localGet 2, brIfEqz 32, localGet 2,
    i32Const 31, i32GtU, brIfEqz 10, localGet 4, localGet 3, i32Const 32, i32Sub, i32Shl,
    localSet 3, i32Const 0, localSet 4, br 19, localGet 4, localGet 3, i32Shl, localSet 4,
    localGet 3, localGet 3, i32Shl, localSet 3, localGet 4, i32Const 32, localGet 4, i32Const 31,
    i32And, i32Sub, i32ShrU, localGet 4, i32Or, localSet 3, drop, drop, localGet 3, i32Const 0,
    localGet 3, i32Or, localSet 2, localGet 3, i32Or, localSet 2, localSet 6, localSet 6, drop,
    drop, drop, drop, localGet 8, i32Const 0, localGet 3, i32Or, localSet 2, localGet 3, i32Or,
    localSet 2, localSet 11, localSet 11, drop, drop, drop, drop, drop, drop, drop, drop, drop]

/-- The height declared for `i64.rem_s`. -/
def MSH_I64_REM_S : Nat := 12

/-- The operands are made positive, and the remainder gets the sign of the dividend. -/
def opI64RemS : List Opcode :=
  [i32Const 0, i32Const 0, i32Const 0, i32Const 0, localGet 5, localGet 7, i32Or, brIfNez 2,
    trap .integerDivisionByZero, localGet 7, i32Const (-1), i32LeS, brIfNez 147, i32Const 0,
    localSet 4, localGet 5, i32Const 0, i32LtS, brIfNez 67, i32Const 0, localSet 4, i32Const 64,
    localSet 3, i32Const 0, localSet 2, localGet 2, i32Const 1, i32Shl, localGet 8, i32Const 31,
    i32ShrU, i32Or, localSet 1, localGet 4, i32Const 1, i32Shl, localGet 3, i32Const 31, i32ShrU,
    i32Or, localTee 5, localGet 6, i32GtU, brIfNez 12, localGet 4, localGet 6, i32Ne, brIfNez 5,
    localGet 1, localGet 7, i32GeU, brIfNez 4, localGet 1, localSet 2, br 13, localGet 4,
    localGet 6, i32Sub, localGet 2, localGet 8, i32LtU, i32Sub, localSet 4, localGet 1,
    localGet 7, i32Sub, localSet 2, localGet 7, i32Const 1, i32Shl, localGet 9, i32Const 31,
    i32ShrU, i32Or, localSet 7, localGet 8, i32Const 1, i32Shl, localSet 8, localGet 3,
    i32Const (-1), i32Add, localTee 4, brIfNez (-58), br 240, i32Const 0, localGet 7, i32Sub,
    localTee 4, i32Eqz, localGet 6, i32Const (-1), i32Xor, i32Add, localSet 6, i32Const 64,
    localSet 1, i32Const 0, localSet 2, localGet 2, i32Const 1, i32Shl, localGet 8, i32Const 31,
    i32ShrU, i32Or, localSet 5, localGet 4, i32Const 1, i32Shl, localGet 3, i32Const 31, i32ShrU,
    i32Or, localTee 5, localGet 7, i32GtU, brIfNez 12, localGet 4, localGet 7, i32Ne, brIfNez 5,
    localGet 5, localGet 4, i32GeU, brIfNez 4, localGet 5, localSet 2, br 13, localGet 4,
    localGet 7, i32Sub, localGet 6, localGet 5, i32LtU, i32Sub, localSet 4, localGet 5,
    localGet 4, i32Sub, localSet 2, localGet 7, i32Const 1, i32Shl, localGet 9, i32Const 31,
    i32ShrU, i32Or, localSet 7, localGet 8, i32Const 1, i32Shl, localSet 8, localGet 1,
    i32Const (-1), i32Add, localTee 2, brIfNez (-58), br 166, i32Const 0, localSet 4, i32Const 0,
    localGet 9, i32Sub, localTee 3, i32Eqz, localGet 8, i32Const (-1), i32Xor, i32Add, localSet 8,
    localGet 5, i32Const 0, i32LtS, brIfNez 67, i32Const 0, localSet 4, i32Const 64, localSet 3,
    i32Const 0, localSet 7, localGet 7, i32Const 1, i32Shl, localGet 9, i32Const 31, i32ShrU,
    i32Or, localSet 1, localGet 4, i32Const 1, i32Shl, localGet 8, i32Const 31, i32ShrU, i32Or,
    localTee 5, localGet 6, i32GtU, brIfNez 12, localGet 4, localGet 6, i32Ne, brIfNez 5,
    localGet 1, localGet 7, i32GeU, brIfNez 4, localGet 1, localSet 7, br 13, localGet 4,
    localGet 6, i32Sub, localGet 2, localGet 8, i32LtU, i32Sub, localSet 4, localGet 1,
    localGet 7, i32Sub, localSet 7, localGet 8, i32Const 1, i32Shl, localGet 3, i32Const 31,
    i32ShrU, i32Or, localSet 8, localGet 2, i32Const 1, i32Shl, localSet 2, localGet 3,
    i32Const (-1), i32Add, localTee 4, brIfNez (-58), br 74, i32Const 0, localGet 7, i32Sub,
    localTee 4, i32Eqz, localGet 6, i32Const (-1), i32Xor, i32Add, localSet 6, i32Const 64,
    localSet 1, i32Const 0, localSet 7, localGet 7, i32Const 1, i32Shl, localGet 9, i32Const 31,
    i32ShrU, i32Or, localSet 5, localGet 4, i32Const 1, i32Shl, localGet 8, i32Const 31, i32ShrU,
    i32Or, localTee 5, localGet 7, i32GtU, brIfNez 12, localGet 4, localGet 7, i32Ne, brIfNez 5,
    localGet 5, localGet 4, i32GeU, brIfNez 4, localGet 5, localSet 7, br 13, localGet 4,
    localGet 7, i32Sub, localGet 6, localGet 5, i32LtU, i32Sub, localSet 4, localGet 5,
    localGet 4, i32Sub, localSet 7, localGet 8, i32Const 1, i32Shl, localGet 3, i32Const 31,
    i32ShrU, i32Or, localSet 8, localGet 2, i32Const 1, i32Shl, localSet 2, localGet 1,
    i32Const (-1), i32Add, localTee 2, brIfNez (-58), i32Const 0, localGet 8, i32Sub, localTee 3,
    i32Eqz, localGet 5, i32Const (-1), i32Xor, i32Add, localSet 4, localGet 4, i32Const 0,
    i32Const 32, i32Const 0, localGet 2, i32Const 63, i32And, localSet 2, localGet 2, brIfEqz 32,
    localGet 2, i32Const 31, i32GtU, brIfEqz 10, localGet 4, localGet 3, i32Const 32, i32Sub,
    i32Shl, localSet 3, i32Const 0, localSet 4, br 19, localGet 4, localGet 3, i32Shl, localSet 4,
    localGet 3, localGet 3, i32Shl, localSet 3, localGet 4, i32Const 32, localGet 4, i32Const 31,
    i32And, i32Sub, i32ShrU, localGet 4, i32Or, localSet 3, drop, drop, localGet 4, i32Const 0,
    localGet 3, i32Or, localSet 2, localGet 3, i32Or, localSet 2, localSet 8, localSet 8, drop,
    drop, drop, drop, drop, drop]

/-- The height declared for `i64.rem_u`. -/
def MSH_I64_REM_U : Nat := 20

/-- As `opI64DivU`, without the quotient. -/
def opI64RemU : List Opcode :=
  [i32Const 0, i32Const 0, i32Const 0, i32Const 0, i32Const 0, i32Const 0, localGet 7,
    brIfNez 144, localGet 8, brIfNez 2, trap .integerDivisionByZero, localGet 8, i32Const 0,
    i32LtS, brIfNez 137, i32Const 64, localSet 6, i32Const 0, localSet 5, localGet 6, i32Const 32,
    i32GtU, localSet 7, localGet 6, i32Const 4294967295, i32Add, localSet 4, i32Const 0,
    localGet 10, localGet 8, i32Const 4294967294, i32Add, localTee 9, i32ShrU, i32Const 1, i32And,
    localGet 6, i32Const 32, i32GtU, select, i32Const 0, localGet 11, localGet 7, i32ShrU,
    i32Const 1, i32And, localGet 10, select, localGet 7, i32Const 1, i32Shl, i32Or, localTee 7,
    i32Const 0, localGet 11, localGet 9, localGet 13, i32LtU, select, i32Sub, i32Const 1, i32Shl,
    i32Or, localTee 6, i32Const 0, localGet 10, localGet 8, localGet 12, i32LtU, select, i32Sub,
    localSet 5, localGet 4, i32Const 1, i32Ne, brIfNez (-56), i32Const 95, localSet 6, i32Const 0,
    localSet 4, localGet 5, localGet 7, i32Const 4294967295, i32Add, i32Const 30, i32And, i32ShrU,
    localGet 11, localGet 8, i32Const 4294967263, i32Add, localTee 12, i32ShrU, localGet 8,
    i32Const 4294967264, i32Add, localTee 10, i32Const 32, i32GtU, select, i32Const 1, i32And,
    localGet 6, localGet 8, i32ShrU, localGet 12, localGet 10, i32ShrU, localGet 9,
    i32Const 4294967265, i32Add, i32Const 32, i32GtU, select, i32Const 1, i32And, localGet 6,
    i32Const 1, i32Shl, i32Or, localTee 6, i32Const 0, localGet 11, localGet 8, localGet 13,
    i32LtU, select, i32Sub, i32Const 1, i32Shl, i32Or, localTee 5, i32Const 0, localGet 10,
    localGet 7, localGet 12, i32LtU, select, i32Sub, localSet 4, localGet 6, i32Const 4294967294,
    i32Add, localSet 6, localGet 9, brIfNez (-65), i32Const 0, i32Const 0, localSet 3, localSet 3,
    br 182, i32Const 0, localSet 6, i32Const 64, localSet 1, i32Const 0, localSet 4, localGet 4,
    i32Const 1, i32Shl, localGet 10, i32Const 31, i32ShrU, i32Or, localSet 5, localGet 6,
    i32Const 1, i32Shl, localGet 5, i32Const 31, i32ShrU, i32Or, localTee 7, localGet 8, i32GtU,
    brIfNez 12, localGet 6, localGet 8, i32Ne, brIfNez 5, localGet 5, localGet 9, i32GeU,
    brIfNez 4, localGet 5, localSet 4, br 13, localGet 6, localGet 8, i32Sub, localGet 6,
    localGet 10, i32LtU, i32Sub, localSet 6, localGet 5, localGet 9, i32Sub, localSet 4,
    localGet 9, i32Const 1, i32Shl, localGet 11, i32Const 31, i32ShrU, i32Or, localSet 9,
    localGet 10, i32Const 1, i32Shl, localSet 10, localGet 1, i32Const 4294967295, i32Add,
    localTee 2, brIfNez (-58), localGet 6, i32Const 0, i32Const 32, i32Const 0, i32Const 0,
    i32Const 0, localGet 4, i32Const 63, i32And, localTee 3, brIfNez 4, localGet 6, localSet 1,
    br 44, localGet 2, i32Const 32, i32Eq, brIfNez 36, localGet 2, i32Const 4294967295, i32Add,
    i32Const 31, i32LtU, brIfNez 10, i32Const 0, localSet 1, localGet 2, i32Const 32, i32GtU,
    brIfNez 19, i32Const 0, localSet 5, br 25, localGet 5, localGet 5, i32Shl, localGet 7,
    i32Const 0, localGet 7, i32Sub, i32ShrU, i32Or, localSet 5, localGet 6, localGet 5, i32Shl,
    localSet 1, br 10, localGet 6, localGet 5, i32Shl, localSet 5, br 5, i32Const 0, localSet 1,
    localGet 6, localSet 5, localGet 5, i32Const 0, i32Const 32, i32Const 0, localGet 2,
    i32Const 63, i32And, localSet 2, localGet 2, brIfEqz 32, localGet 2, i32Const 31, i32GtU,
    brIfEqz 10, localGet 4, localGet 3, i32Const 32, i32Sub, i32Shl, localSet 3, i32Const 0,
    localSet 4, br 19, localGet 4, localGet 3, i32Shl, localSet 4, localGet 3, localGet 3, i32Shl,
    localSet 3, localGet 4, i32Const 32, localGet 4, i32Const 31, i32And, i32Sub, i32ShrU,
    localGet 4, i32Or, localSet 3, drop, drop, localGet 3, i32Const 0, localGet 3, i32Or,
    localSet 2, localGet 3, i32Or, localSet 2, localSet 6, localSet 6, drop, drop, drop, drop,
    localSet 3, localSet 3, localGet 3, localGet 3, localGet 6, i32Const 0, localGet 3, i32Or,
    localSet 2, localGet 3, i32Or, localSet 2, localSet 10, localSet 10, drop, drop, drop, drop,
    drop, drop, drop, drop]

end InstructionSet

end Rwasm
