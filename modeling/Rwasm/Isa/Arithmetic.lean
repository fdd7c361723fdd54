import Rwasm.Types.Opcode

/-!
# 64-bit arithmetic

The sequences of the 64-bit additions, multiplication, comparisons and conversions over 32-bit limbs
(`isa/add_sub.rs`, `isa/mul.rs`, `isa/compare.rs`, `isa/conv.rs`). A value has its high limb on top.

The constant before each sequence is the number of slots it needs above the height it is entered at.
-/

namespace Rwasm

namespace InstructionSet

open Opcode

/-- The height declared for `i64.add`. -/
def MSH_I64_ADD : Nat := 4

/-- The low limbs are added with their carry, which goes into the sum of the high limbs. -/
def opI64Add : List Opcode :=
  [localGet 4, localGet 3, i32Add64, localGet 5, localGet 4, i32Add, i32Add, localSet 4,
    localSet 4, drop, drop]

/-- The height declared for `i64.sub`. -/
def MSH_I64_SUB : Nat := 8

/-- The limbs are subtracted one by one, and the borrow of the low one is taken off the high one. -/
def opI64Sub : List Opcode :=
  [localGet 4, localGet 3, i32Sub, localGet 5, localGet 4, i32LtU, localGet 5, localGet 4, i32Sub,
    localGet 2, i32Sub, localSet 5, drop, localSet 4, drop, drop]

/-- The height declared for `i64.mul`. -/
def MSH_I64_MUL : Nat := 5

/-- The product of the low limbs, to whose high limb both mixed products are added. -/
def opI64Mul : List Opcode :=
  [localGet 2, localGet 5, i32Mul64, localGet 3, localGet 7, i32Mul, localGet 5, localGet 7,
    i32Mul, i32Add, i32Add, localSet 4, localSet 4, drop, drop]

/-- The height declared for `i64.eqz`. -/
def MSH_I64_EQZ : Nat := 1

/-- Both limbs are zero. -/
def opI64Eqz : List Opcode :=
  [i32Eqz, localGet 2, i32Eqz, localSet 2, i32And]

/-- The height declared for `i64.eq`. -/
def MSH_I64_EQ : Nat := 1

/-- Both limbs are equal. -/
def opI64Eq : List Opcode :=
  [localGet 3, i32Eq, localSet 2, localGet 3, i32Eq, localSet 2, i32And]

/-- The height declared for `i64.ne`. -/
def MSH_I64_NE : Nat := 1

/-- One of the limbs differs. -/
def opI64Ne : List Opcode :=
  [localGet 3, i32Ne, localSet 2, localGet 3, i32Ne, localSet 2, i32Or]

/-- The height declared for `i64.lt_s`. -/
def MSH_I64_LT_S : Nat := 2

/-- Where the high limbs differ they decide, as signed words; else the low limbs do. -/
def opI64LtS : List Opcode :=
  [localGet 3, localGet 2, i32Eq, brIfNez 5, localGet 3, localGet 2, i32LtS, br 4, localGet 4,
    localGet 3, i32LtU, localSet 4, drop, drop, drop]

/-- The height declared for `i64.lt_u`. -/
def MSH_I64_LT_U : Nat := 2

/-- Where the high limbs differ they decide; else the low limbs do. -/
def opI64LtU : List Opcode :=
  [localGet 3, localGet 2, i32Eq, brIfNez 5, localGet 3, localGet 2, i32LtU, br 4, localGet 4,
    localGet 3, i32LtU, localSet 4, drop, drop, drop]

/-- The height declared for `i64.gt_s`. -/
def MSH_I64_GT_S : Nat := 2

/-- As `opI64LtS`, the other way around. -/
def opI64GtS : List Opcode :=
  [localGet 3, localGet 2, i32Eq, brIfNez 5, localGet 3, localGet 2, i32GtS, br 4, localGet 4,
    localGet 3, i32GtU, localSet 4, drop, drop, drop]

/-- The height declared for `i64.gt_u`. -/
def MSH_I64_GT_U : Nat := 2

/-- As `opI64LtU`, the other way around. -/
def opI64GtU : List Opcode :=
  [localGet 3, localGet 2, i32Eq, brIfNez 5, localGet 3, localGet 2, i32GtU, br 4, localGet 4,
    localGet 3, i32GtU, localSet 4, drop, drop, drop]

/-- The height declared for `i64.le_s`. -/
def MSH_I64_LE_S : Nat := 2

/-- As `opI64LtS`; high limbs that differ are compared alike by both orders. -/
def opI64LeS : List Opcode :=
  [localGet 3, localGet 2, i32Eq, brIfNez 5, localGet 3, localGet 2, i32LeS, br 4, localGet 4,
    localGet 3, i32LeU, localSet 4, drop, drop, drop]

/-- The height declared for `i64.le_u`. -/
def MSH_I64_LE_U : Nat := 2

/-- As `opI64LtU`, with equality allowed. -/
def opI64LeU : List Opcode :=
  [localGet 3, localGet 2, i32Eq, brIfNez 5, localGet 3, localGet 2, i32LeU, br 4, localGet 4,
    localGet 3, i32LeU, localSet 4, drop, drop, drop]

/-- The height declared for `i64.ge_s`. -/
def MSH_I64_GE_S : Nat := 2

/-- As `opI64LeS`, the other way around. -/
def opI64GeS : List Opcode :=
  [localGet 3, localGet 2, i32Eq, brIfNez 5, localGet 3, localGet 2, i32GeS, br 4, localGet 4,
    localGet 3, i32GeU, localSet 4, drop, drop, drop]

/-- The height declared for `i64.ge_u`. -/
def MSH_I64_GE_U : Nat := 2

/-- As `opI64LeU`, the other way around. -/
def opI64GeU : List Opcode :=
  [localGet 3, localGet 2, i32Eq, brIfNez 5, localGet 3, localGet 2, i32GeU, br 4, localGet 4,
    localGet 3, i32GeU, localSet 4, drop, drop, drop]

/-- The height declared for `i32.wrap_i64`. -/
def MSH_I32_WRAP_I64 : Nat := 0

/-- The high limb is dropped. -/
def opI32WrapI64 : List Opcode :=
  [drop]

/-- The height declared for `i64.extend_i32_s`. -/
def MSH_I64_EXTEND_I32_S : Nat := 2

/-- The high limb is the sign of the low one. -/
def opI64ExtendI32S : List Opcode :=
  [localGet 1, i32Const 31, i32ShrS]

/-- The height declared for `i64.extend_i32_u`. -/
def MSH_I64_EXTEND_I32_U : Nat := 1

/-- The high limb is zero. -/
def opI64ExtendI32U : List Opcode :=
  [i32Const 0]

/-- The height declared for `i64.extend8_s`. -/
def MSH_I64_EXTEND8_S : Nat := 2

/-- The lowest byte is extended to a word, and its sign to the high limb. -/
def opI64Extend8S : List Opcode :=
  [drop, i32Extend8S, localGet 1, i32Const 31, i32ShrS]

/-- The height declared for `i64.extend16_s`. -/
def MSH_I64_EXTEND16_S : Nat := 2

/-- The lower half of the low limb is extended to a word, and its sign to the high limb. -/
def opI64Extend16S : List Opcode :=
  [drop, i32Extend16S, localGet 1, i32Const 31, i32ShrS]

/-- The height declared for `i64.extend32_s`. -/
def MSH_I64_EXTEND32_S : Nat := 2

/-- The high limb is replaced by the sign of the low one. -/
def opI64Extend32S : List Opcode :=
  [drop, localGet 1, i32Const 31, i32ShrS]

end InstructionSet

end Rwasm
