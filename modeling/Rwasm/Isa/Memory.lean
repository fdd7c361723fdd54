import Rwasm.Types.Opcode

/-!
# 64-bit memory accesses

The sequences of the 64-bit loads and stores over 32-bit accesses, and of the 64-bit constant
(`isa/memory.rs`). Static offsets saturate at 32 bits.
-/

namespace Rwasm

namespace InstructionSet

open Opcode

/-- The height declared for `i64.load`. -/
def MSH_I64_LOAD : Nat := 2

/-- The high limb is read first, four bytes behind the low one. -/
def opI64Load (offset : Nat) : List Opcode :=
  [localGet 1, i32Load (min (offset + 4) (2 ^ 32 - 1)), localGet 2, i32Load offset, localSet 2]

/-- The height declared for `i64.load8_s`. -/
def MSH_I64_LOAD8_S : Nat := 1

/-- A byte is read with its sign, which fills the high limb. -/
def opI64Load8S (offset : Nat) : List Opcode :=
  [i32Load8S offset, localGet 1, i32Const 31, i32ShrS]

/-- The height declared for `i64.load8_u`. -/
def MSH_I64_LOAD8_U : Nat := 1

/-- A byte is read, and the high limb is zero. -/
def opI64Load8U (offset : Nat) : List Opcode :=
  [i32Load8U offset, i32Const 0]

/-- The height declared for `i64.load16_s`. -/
def MSH_I64_LOAD16_S : Nat := 1

/-- Two bytes are read with their sign, which fills the high limb. -/
def opI64Load16S (offset : Nat) : List Opcode :=
  [i32Load16S offset, localGet 1, i32Const 31, i32ShrS]

/-- The height declared for `i64.load16_u`. -/
def MSH_I64_LOAD16_U : Nat := 1

/-- Two bytes are read, and the high limb is zero. -/
def opI64Load16U (offset : Nat) : List Opcode :=
  [i32Load16U offset, i32Const 0]

/-- The height declared for `i64.load32_s`. -/
def MSH_I64_LOAD32_S : Nat := 1

/-- A word is read, and its sign fills the high limb. -/
def opI64Load32S (offset : Nat) : List Opcode :=
  [i32Load offset, localGet 1, i32Const 31, i32ShrS]

/-- The height declared for `i64.load32_u`. -/
def MSH_I64_LOAD32_U : Nat := 1

/-- A word is read, and the high limb is zero. -/
def opI64Load32U (offset : Nat) : List Opcode :=
  [i32Load offset, i32Const 0]

/-- The height declared for `i64.store`. -/
def MSH_I64_STORE : Nat := 2

/-- The high limb is written first, four bytes behind the low one, so that a trap writes nothing. -/
def opI64Store (offset : Nat) : List Opcode :=
  [localGet 3, localGet 2, i32Store (min (offset + 4) (2 ^ 32 - 1)), drop, i32Store offset]

/-- The height declared for `i64.store8`. -/
def MSH_I64_STORE8 : Nat := 0

/-- The lowest byte of the low limb is written. -/
def opI64Store8 (offset : Nat) : List Opcode :=
  [drop, i32Store8 offset]

/-- The height declared for `i64.store16`. -/
def MSH_I64_STORE16 : Nat := 0

/-- The lower half of the low limb is written. -/
def opI64Store16 (offset : Nat) : List Opcode :=
  [drop, i32Store16 offset]

/-- The height declared for `i64.store32`. -/
def MSH_I64_STORE32 : Nat := 0

/-- The low limb is written. -/
def opI64Store32 (offset : Nat) : List Opcode :=
  [drop, i32Store offset]

/-- The height declared for `i64.const`. -/
def MSH_I64_CONST : Nat := 2

/-- The low limb, then the high one. -/
def opI64Const (value : BitVec 64) : List Opcode :=
  [i32Const (splitIntoI32Tuple value).1, i32Const (splitIntoI32Tuple value).2]

end InstructionSet

end Rwasm
