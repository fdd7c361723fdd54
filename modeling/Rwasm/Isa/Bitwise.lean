import Rwasm.Types.Opcode

/-!
# 64-bit bit operations

The sequences of the 64-bit bit counts, logical operations, shifts and rotations over 32-bit limbs
(`isa/bitwise.rs`).
-/

namespace Rwasm

namespace InstructionSet

open Opcode

/-- The height declared for `i64.clz`. -/
def MSH_I64_CLZ : Nat := 3

/-- The zeros of the high limb, and those of the low limb where it is all zeros. -/
def opI64Clz : List Opcode :=
  [i32Clz, localGet 1, i32Const 32, i32Eq, brIfEqz 4, localGet 2, i32Clz, i32Add, localSet 1,
    i32Const 0]

/-- The height declared for `i64.ctz`. -/
def MSH_I64_CTZ : Nat := 3

/-- The zeros of the low limb, and those of the high limb where it is all zeros. -/
def opI64Ctz : List Opcode :=
  [localGet 2, i32Ctz, localGet 1, i32Const 32, i32Eq, brIfEqz 5, localSet 2, i32Ctz, i32Add,
    br 3, localSet 2, drop, i32Const 0]

/-- The height declared for `i64.popcnt`. -/
def MSH_I64_POPCNT : Nat := 1

/-- The bits of both limbs are added. -/
def opI64Popcnt : List Opcode :=
  [i32Popcnt, localGet 2, i32Popcnt, localSet 2, i32Add, i32Const 0]

/-- The height declared for `i64.and`. -/
def MSH_I64_AND : Nat := 1

/-- Limb by limb. -/
def opI64And : List Opcode :=
  [localGet 3, i32And, localSet 2, localGet 3, i32And, localSet 2]

/-- The height declared for `i64.or`. -/
def MSH_I64_OR : Nat := 1

/-- Limb by limb. -/
def opI64Or : List Opcode :=
  [localGet 3, i32Or, localSet 2, localGet 3, i32Or, localSet 2]

/-- The height declared for `i64.xor`. -/
def MSH_I64_XOR : Nat := 1

/-- Limb by limb. -/
def opI64Xor : List Opcode :=
  [localGet 3, i32Xor, localSet 2, localGet 3, i32Xor, localSet 2]

/-- The height declared for `i64.shl`. -/
def MSH_I64_SHL : Nat := 9

/-- The cases are a count of zero, up to 31, of 32 and above; the limbs are packed by a second shift. -/
def opI64Shl : List Opcode :=
  [i32Const 0, i32Const 0, localGet 4, i32Const 63, i32And, localTee 3, brIfNez 4, localGet 6,
    localSet 1, br 44, localGet 2, i32Const 32, i32Eq, brIfNez 36, localGet 2, i32Const (-1),
    i32Add, i32Const 31, i32LtU, brIfNez 10, i32Const 0, localSet 1, localGet 2, i32Const 32,
    i32GtU, brIfNez 19, i32Const 0, localSet 5, br 25, localGet 5, localGet 5, i32Shl, localGet 7,
    i32Const 0, localGet 7, i32Sub, i32ShrU, i32Or, localSet 5, localGet 6, localGet 5, i32Shl,
    localSet 1, br 10, localGet 6, localGet 5, i32Shl, localSet 5, br 5, i32Const 0, localSet 1,
    localGet 6, localSet 5, localGet 5, i32Const 0, i32Const 32, i32Const 0, localGet 2,
    i32Const 63, i32And, localSet 2, localGet 2, brIfEqz 32, localGet 2, i32Const 31, i32GtU,
    brIfEqz 10, localGet 4, localGet 3, i32Const 32, i32Sub, i32Shl, localSet 3, i32Const 0,
    localSet 4, br 19, localGet 4, localGet 3, i32Shl, localSet 4, localGet 3, localGet 3, i32Shl,
    localSet 3, localGet 4, i32Const 32, localGet 4, i32Const 31, i32And, i32Sub, i32ShrU,
    localGet 4, i32Or, localSet 3, drop, drop, localGet 3, i32Const 0, localGet 3, i32Or,
    localSet 2, localGet 3, i32Or, localSet 2, localSet 6, localSet 6, drop, drop, drop, drop]

/-- The height declared for `i64.shr_s`. -/
def MSH_I64_SHR_S : Nat := 21

/-- The same cases, with the sign for what is shifted in; two shifts pack the limbs. -/
def opI64ShrS : List Opcode :=
  [i32Const 0, i32Const 0, localGet 4, i32Const 63, i32And, localTee 3, brIfNez 4, localGet 5,
    localSet 1, br 49, localGet 2, i32Const 32, i32Eq, brIfNez 24, localGet 2, i32Const (-1),
    i32Add, i32Const 31, i32LtU, brIfNez 25, i32Const 0, localSet 1, i32Const 0, localSet 6,
    localGet 2, i32Const 32, i32LeU, brIfNez 31, localGet 5, localGet 5, i32ShrS, localSet 6,
    localGet 5, i32Const 31, i32ShrS, localSet 1, br 22, localGet 5, i32Const 31, i32ShrS,
    localSet 1, localGet 5, localSet 6, br 15, localGet 6, localGet 5, i32ShrU, localGet 6,
    i32Const 0, localGet 7, i32Sub, i32Shl, i32Or, localSet 6, localGet 5, localGet 5, i32ShrS,
    localSet 1, localGet 1, i32Const 0, i32Const 32, i32Const 0, i32Const 0, i32Const 0,
    localGet 4, i32Const 63, i32And, localTee 3, brIfNez 4, localGet 6, localSet 1, br 44,
    localGet 2, i32Const 32, i32Eq, brIfNez 36, localGet 2, i32Const (-1), i32Add, i32Const 31,
    i32LtU, brIfNez 10, i32Const 0, localSet 1, localGet 2, i32Const 32, i32GtU, brIfNez 19,
    i32Const 0, localSet 5, br 25, localGet 5, localGet 5, i32Shl, localGet 7, i32Const 0,
    localGet 7, i32Sub, i32ShrU, i32Or, localSet 5, localGet 6, localGet 5, i32Shl, localSet 1,
    br 10, localGet 6, localGet 5, i32Shl, localSet 5, br 5, i32Const 0, localSet 1, localGet 6,
    localSet 5, localGet 5, i32Const 0, i32Const 32, i32Const 0, localGet 2, i32Const 63, i32And,
    localSet 2, localGet 2, brIfEqz 32, localGet 2, i32Const 31, i32GtU, brIfEqz 10, localGet 4,
    localGet 3, i32Const 32, i32Sub, i32Shl, localSet 3, i32Const 0, localSet 4, br 19,
    localGet 4, localGet 3, i32Shl, localSet 4, localGet 3, localGet 3, i32Shl, localSet 3,
    localGet 4, i32Const 32, localGet 4, i32Const 31, i32And, i32Sub, i32ShrU, localGet 4, i32Or,
    localSet 3, drop, drop, localGet 3, i32Const 0, localGet 3, i32Or, localSet 2, localGet 3,
    i32Or, localSet 2, localSet 6, localSet 6, drop, drop, drop, drop, localGet 8, i32Const 0,
    localGet 3, i32Or, localSet 2, localGet 3, i32Or, localSet 2, localSet 6, localSet 6, drop,
    drop, drop, drop]

/-- The height declared for `i64.shr_u`. -/
def MSH_I64_SHR_U : Nat := 21

/-- The same cases, with zeros for what is shifted in. -/
def opI64ShrU : List Opcode :=
  [i32Const 0, i32Const 0, localGet 4, i32Const 63, i32And, localTee 3, brIfNez 6, localGet 5,
    localSet 1, localGet 6, localSet 5, br 42, localGet 2, i32Const 32, i32Eq, brIfNez 36,
    localGet 2, i32Const (-1), i32Add, i32Const 31, i32LtU, brIfNez 10, i32Const 0, localSet 1,
    localGet 2, i32Const 32, i32GtU, brIfNez 19, i32Const 0, localSet 5, br 23, localGet 5,
    localGet 5, i32ShrU, localSet 1, localGet 6, localGet 5, i32ShrU, localGet 6, i32Const 0,
    localGet 7, i32Sub, i32Shl, i32Or, localSet 5, br 8, localGet 5, localGet 5, i32ShrU,
    localSet 5, br 3, i32Const 0, localSet 1, localGet 1, i32Const 0, i32Const 32, i32Const 0,
    localGet 2, i32Const 63, i32And, localSet 2, localGet 2, brIfEqz 32, localGet 2, i32Const 31,
    i32GtU, brIfEqz 10, localGet 4, localGet 3, i32Const 32, i32Sub, i32Shl, localSet 3,
    i32Const 0, localSet 4, br 19, localGet 4, localGet 3, i32Shl, localSet 4, localGet 3,
    localGet 3, i32Shl, localSet 3, localGet 4, i32Const 32, localGet 4, i32Const 31, i32And,
    i32Sub, i32ShrU, localGet 4, i32Or, localSet 3, drop, drop, localGet 7, i32Const 0,
    localGet 3, i32Or, localSet 2, localGet 3, i32Or, localSet 2, localSet 6, localSet 6, drop,
    drop, drop, drop]

/-- The height declared for `i64.rotl`. -/
def MSH_I64_ROTL : Nat := 16

/-- A count of 32 exchanges the limbs, and a larger one exchanges them on the way. -/
def opI64Rotl : List Opcode :=
  [i32Const 0, i32Const 0, localGet 4, i32Const 63, i32And, localTee 3, brIfNez 4, localGet 5,
    localSet 2, br 53, localGet 2, i32Const 32, i32LtU, brIfNez 10, localGet 2, i32Const 32,
    i32Ne, brIfNez 26, localGet 6, localSet 2, localGet 5, localSet 6, br 40, localGet 5,
    localGet 5, i32Shl, localGet 7, i32Const 0, localGet 7, i32Sub, localTee 4, i32ShrU, i32Or,
    localSet 2, localGet 6, localGet 5, i32Shl, localGet 6, localGet 3, i32ShrU, i32Or,
    localSet 6, br 20, localGet 6, localGet 5, i32Shl, localGet 6, i32Const 0, localGet 7, i32Sub,
    localTee 4, i32ShrU, i32Or, localSet 2, localGet 5, localGet 5, i32Shl, localGet 7,
    localGet 3, i32ShrU, i32Or, localSet 6, localGet 2, i32Const 0, i32Const 32, i32Const 0,
    i32Const 0, i32Const 0, localGet 4, i32Const 63, i32And, localTee 3, brIfNez 4, localGet 6,
    localSet 1, br 44, localGet 2, i32Const 32, i32Eq, brIfNez 36, localGet 2, i32Const (-1),
    i32Add, i32Const 31, i32LtU, brIfNez 10, i32Const 0, localSet 1, localGet 2, i32Const 32,
    i32GtU, brIfNez 19, i32Const 0, localSet 5, br 25, localGet 5, localGet 5, i32Shl, localGet 7,
    i32Const 0, localGet 7, i32Sub, i32ShrU, i32Or, localSet 5, localGet 6, localGet 5, i32Shl,
    localSet 1, br 10, localGet 6, localGet 5, i32Shl, localSet 5, br 5, i32Const 0, localSet 1,
    localGet 6, localSet 5, localGet 5, i32Const 0, i32Const 32, i32Const 0, localGet 2,
    i32Const 63, i32And, localSet 2, localGet 2, brIfEqz 32, localGet 2, i32Const 31, i32GtU,
    brIfEqz 10, localGet 4, localGet 3, i32Const 32, i32Sub, i32Shl, localSet 3, i32Const 0,
    localSet 4, br 19, localGet 4, localGet 3, i32Shl, localSet 4, localGet 3, localGet 3, i32Shl,
    localSet 3, localGet 4, i32Const 32, localGet 4, i32Const 31, i32And, i32Sub, i32ShrU,
    localGet 4, i32Or, localSet 3, drop, drop, localGet 3, i32Const 0, localGet 3, i32Or,
    localSet 2, localGet 3, i32Or, localSet 2, localSet 6, localSet 6, drop, drop, drop, drop,
    localGet 8, i32Const 0, localGet 3, i32Or, localSet 2, localGet 3, i32Or, localSet 2,
    localSet 6, localSet 6, drop, drop, drop, drop]

/-- The height declared for `i64.rotr`. -/
def MSH_I64_ROTR : Nat := 16

/-- The same the other way around. -/
def opI64Rotr : List Opcode :=
  [i32Const 0, i32Const 0, localGet 4, i32Const 63, i32And, localTee 3, brIfNez 4, localGet 5,
    localSet 2, br 55, localGet 2, i32Const 32, i32Ne, brIfNez 6, localGet 6, localSet 2,
    localGet 5, localSet 6, br 46, localGet 2, i32Const (-1), i32Add, i32Const 31, i32LtU,
    brIfNez 21, localGet 6, localGet 5, i32ShrU, localGet 6, i32Const 0, localGet 7, i32Sub,
    localTee 4, i32Shl, i32Or, localSet 2, localGet 5, localGet 5, i32ShrU, localGet 7,
    localGet 3, i32Shl, i32Or, localSet 6, br 20, localGet 5, localGet 5, i32ShrU, localGet 7,
    i32Const 0, localGet 7, i32Sub, localTee 4, i32Shl, i32Or, localSet 2, localGet 6, localGet 5,
    i32ShrU, localGet 6, localGet 3, i32Shl, i32Or, localSet 6, localGet 2, i32Const 0,
    i32Const 32, i32Const 0, i32Const 0, i32Const 0, localGet 4, i32Const 63, i32And, localTee 3,
    brIfNez 4, localGet 6, localSet 1, br 44, localGet 2, i32Const 32, i32Eq, brIfNez 36,
    localGet 2, i32Const (-1), i32Add, i32Const 31, i32LtU, brIfNez 10, i32Const 0, localSet 1,
    localGet 2, i32Const 32, i32GtU, brIfNez 19, i32Const 0, localSet 5, br 25, localGet 5,
    localGet 5, i32Shl, localGet 7, i32Const 0, localGet 7, i32Sub, i32ShrU, i32Or, localSet 5,
    localGet 6, localGet 5, i32Shl, localSet 1, br 10, localGet 6, localGet 5, i32Shl, localSet 5,
    br 5, i32Const 0, localSet 1, localGet 6, localSet 5, localGet 5, i32Const 0, i32Const 32,
    i32Const 0, localGet 2, i32Const 63, i32And, localSet 2, localGet 2, brIfEqz 32, localGet 2,
    i32Const 31, i32GtU, brIfEqz 10, localGet 4, localGet 3, i32Const 32, i32Sub, i32Shl,
    localSet 3, i32Const 0, localSet 4, br 19, localGet 4, localGet 3, i32Shl, localSet 4,
    localGet 3, localGet 3, i32Shl, localSet 3, localGet 4, i32Const 32, localGet 4, i32Const 31,
    i32And, i32Sub, i32ShrU, localGet 4, i32Or, localSet 3, drop, drop, localGet 3, i32Const 0,
    localGet 3, i32Or, localSet 2, localGet 3, i32Or, localSet 2, localSet 6, localSet 6, drop,
    drop, drop, drop, localGet 8, i32Const 0, localGet 3, i32Or, localSet 2, localGet 3, i32Or,
    localSet 2, localSet 6, localSet 6, drop, drop, drop, drop]

end InstructionSet

end Rwasm
