import Rwasm.Types.Opcode

/-!
# Bulk memory and table instructions

The sequences emitted for the bulk instructions (`isa/memory.rs`, `isa/table.rs`). Each is a list of
opcodes to append; the comments give the stack from its bottom to its top.

The fuel rates come from the fuel policy: one unit of fuel for 64 bytes of memory, and one for 16
elements of a table.
-/

namespace Rwasm

/-- The bytes a unit of fuel pays for. -/
def MEMORY_BYTES_PER_FUEL : Nat := 64

/-- The same as an exponent, by which the code shifts. -/
def MEMORY_BYTES_PER_FUEL_LOG2 : UntypedValue := 6

/-- The elements a unit of fuel pays for. -/
def TABLE_ELEMS_PER_FUEL : Nat := 16

/-- The same as an exponent. -/
def TABLE_ELEMS_PER_FUEL_LOG2 : UntypedValue := 4

namespace InstructionSet

open Opcode

/-- The charge for a bulk instruction: the topmost slot, rounded up to units of `2 ^ log2`. -/
def opConsumeFuelBulk (perFuel : Nat) (log2 : UntypedValue) : List Opcode :=
  [localGet 1, i32Const (BitVec.ofNat 32 (perFuel - 1)), i32Add, i32Const log2, i32ShrU,
    consumeFuelStack]

/-- `op_memory_grow_checked`. -/
def opMemoryGrowChecked (maxPages : Option UntypedValue) (injectFuelCheck : Bool) : List Opcode :=
  (match maxPages with
    | some maxPages =>
      [localGet 1, memorySize, i32Add, i32Const maxPages, i32GtS, brIfEqz 4, drop, i32Const (-1),
        br (if injectFuelCheck then 8 else 2)]
    | none => []) ++
  (if injectFuelCheck then
    [localGet 1, i32Const 65536, i32Mul, i32Const MEMORY_BYTES_PER_FUEL_LOG2, i32ShrU,
      consumeFuelStack]
  else []) ++
  [memoryGrow]

/-- `op_memory_fill_checked`. -/
def opMemoryFillChecked (injectFuelCheck : Bool) : List Opcode :=
  (if injectFuelCheck then opConsumeFuelBulk MEMORY_BYTES_PER_FUEL MEMORY_BYTES_PER_FUEL_LOG2
    else []) ++
  [memoryFill]

/-- `op_memory_copy_checked`. -/
def opMemoryCopyChecked (injectFuelCheck : Bool) : List Opcode :=
  (if injectFuelCheck then opConsumeFuelBulk MEMORY_BYTES_PER_FUEL MEMORY_BYTES_PER_FUEL_LOG2
    else []) ++
  [memoryCopy]

/-- Traps when `n + s` exceeds `length`, on the stack `[d, s, n]`. -/
def opLengthCheck (length : UntypedValue) (code : TrapCode) : List Opcode :=
  [localGet 1, localGet 3, i32Add, i32Const length, i32GtS, brIfEqz 2, trap code]

/-- Replaces `s` by `s + offset`, on the stack `[d, s, n]`. -/
def opRewriteOffset (offset : UntypedValue) : List Opcode :=
  if 0 < offset then [i32Const offset, localGet 3, i32Add, localSet 2] else []

/-- `op_memory_init_checked`. -/
def opMemoryInitChecked (rewriteOffset rewriteLength : Option UntypedValue) (segment : Nat)
    (injectFuelCheck : Bool) : List Opcode :=
  (match rewriteLength.filter (0 < ·) with
    | some length => opLengthCheck length .memoryOutOfBounds
    | none => []) ++
  (match rewriteOffset with
    | some offset => opRewriteOffset offset
    | none => []) ++
  (if injectFuelCheck then opConsumeFuelBulk MEMORY_BYTES_PER_FUEL MEMORY_BYTES_PER_FUEL_LOG2
    else []) ++
  [memoryInit segment]

/-- `op_table_init_checked`. -/
def opTableInitChecked (segment table : Nat) (length offset : UntypedValue)
    (injectFuelCheck : Bool) : List Opcode :=
  opLengthCheck length .tableOutOfBounds ++
  opRewriteOffset offset ++
  (if injectFuelCheck then opConsumeFuelBulk TABLE_ELEMS_PER_FUEL TABLE_ELEMS_PER_FUEL_LOG2
    else []) ++
  [tableInit segment, tableGet table]

/-- `op_table_grow_checked`. -/
def opTableGrowChecked (table : Nat) (limitCheck : Option UntypedValue) (injectFuelCheck : Bool) :
    List Opcode :=
  (match limitCheck with
    | some limit =>
      [localGet 1, tableSize table, i32Add, i32Const limit, i32GtS, brIfEqz 5, drop, drop,
        i32Const (-1), br (if injectFuelCheck then 8 else 2)]
    | none => []) ++
  (if injectFuelCheck then opConsumeFuelBulk TABLE_ELEMS_PER_FUEL TABLE_ELEMS_PER_FUEL_LOG2
    else []) ++
  [tableGrow table]

/-- `op_table_fill_checked`. -/
def opTableFillChecked (table : Nat) (injectFuelCheck : Bool) : List Opcode :=
  (if injectFuelCheck then opConsumeFuelBulk TABLE_ELEMS_PER_FUEL TABLE_ELEMS_PER_FUEL_LOG2
    else []) ++
  [tableFill table]

/-- `op_table_copy_checked`. -/
def opTableCopyChecked (dst src : Nat) (injectFuelCheck : Bool) : List Opcode :=
  (if injectFuelCheck then opConsumeFuelBulk TABLE_ELEMS_PER_FUEL TABLE_ELEMS_PER_FUEL_LOG2
    else []) ++
  [tableCopy dst src]

end InstructionSet

end Rwasm
