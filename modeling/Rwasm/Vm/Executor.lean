import Rwasm.Library.Machine
import Rwasm.Vm.Store

/-!
# The executor

One step of the virtual machine (`vm/executor.rs` and the handlers under `vm/executor/`), and the
machine that fetches and executes instructions (`run_the_loop`).

The value stack is the list of its live slots, topmost first, next to the number of slots it has
reserved. The stack pointer of the source is the length of that list. A step that the source leaves
undefined (a pop from an empty stack, a depth of `0`, a missing table, an instruction pointer outside
the code) ends the run with `Exit.undefined`.

The source pushes without a check, into the slots it has reserved. Here a push always succeeds; where one
leaves the reserved slots is told by the bounded machine of `Vm/Bounds`. What an instruction reads where
operands are missing is the matter of `Vm/Operands`.
-/

namespace Rwasm

open UntypedValue

/-- A compiled module (`RwasmModuleInner`). -/
structure RwasmModule where
  codeSection : List Opcode
  dataSection : List Byte := []
  elemSection : List UntypedValue := []
  hintSection : List Byte := []
  sourcePc : Nat := 0
  deriving DecidableEq

/-- The state of an execution (`RwasmExecutor`). -/
structure Executor (T : Type) where
  valueStack : List UntypedValue
  capacity : Nat
  callStack : List Nat
  ip : Nat
  store : Store T

/-- How the loop ends: at the last `Return`, with a trap, or outside of what the source defines. -/
inductive Exit (T : Type) where
  | returned (e : Executor T)
  | trapped (code : TrapCode) (e : Executor T)
  | undefined

/-- Pushes a typed value; 64-bit values take two slots, the high limb on top (`push_value`). -/
def pushValue (v : Value) (stack : List UntypedValue) : List UntypedValue :=
  match v with
  | .i32 b | .f32 b | .funcRef b | .externRef b => b :: stack
  | .i64 b | .f64 b => (splitIntoI32Tuple b).2 :: (splitIntoI32Tuple b).1 :: stack

/-- Pushes values in order. -/
def pushValues (vs : List Value) (stack : List UntypedValue) : List UntypedValue :=
  vs.foldl (fun st v => pushValue v st) stack

/-- Pops a value of a type (`pop_value`). -/
def popValue : ValType → List UntypedValue → Option (Value × List UntypedValue)
  | .i32, b :: st => some (.i32 b, st)
  | .f32, b :: st => some (.f32 b, st)
  | .funcRef, b :: st => some (.funcRef b, st)
  | .externRef, b :: st => some (.externRef b, st)
  | .i64, hi :: lo :: st => some (.i64 (joinLimbs lo hi), st)
  | .f64, hi :: lo :: st => some (.f64 (joinLimbs lo hi), st)
  | _, _ => none

/-- Pops one value for each type, and stores the `i`-th popped value at the `i`-th index from the
end, as the loops over a parameter list do. -/
def popValues : List ValType → List UntypedValue → Option (List Value × List UntypedValue)
  | [], st => some ([], st)
  | t :: ts, st => do
    let (v, st) ← popValue t st
    let (vs, st) ← popValues ts st
    some (vs ++ [v], st)

/-- The slots a value of a type takes. -/
def ValType.slots : ValType → Nat
  | .i64 | .f64 => 2
  | _ => 1

/-- The slots of a list of types. -/
def slotCount (ts : List ValType) : Nat :=
  (ts.map ValType.slots).sum

namespace Executor

variable {T : Type} (m : RwasmModule) (host : Host T) (e : Executor T)

/-- Goes on with the next instruction. -/
def advance (n : Nat) : Executor T :=
  { e with ip := e.ip + n }

/-- Goes on `offset` instructions away. -/
def jump (offset : Int) : Turn (Executor T) (Exit T) :=
  if 0 ≤ (e.ip : Int) + offset then
    .next { e with ip := ((e.ip : Int) + offset).toNat }
  else
    .halt .undefined

/-- Goes on with the next instruction after a fallible operation on the stack. -/
def tryAdvance (r : Except TrapCode (List UntypedValue)) : Turn (Executor T) (Exit T) :=
  match r with
  | .ok stack => .next { e.advance 1 with valueStack := stack }
  | .error code => .halt (.trapped code e)

/-- `ValueStack::reserve`: grows the reserved slots so that `additional` more fit. -/
def reserve (additional : Nat) : Option (Executor T) :=
  if e.valueStack.length + additional ≤ N_MAX_STACK_SIZE then
    some { e with
      capacity :=
        if e.capacity < e.valueStack.length + additional then
          e.capacity + (e.valueStack.length + additional)
        else
          e.capacity }
  else
    none

/-- `fetch_table_index(1)`: the table named by the `TableGet` behind an instruction. -/
def fetchTableIndex : Option Nat :=
  match m.codeSection[e.ip + 1]? with
  | some (.tableGet table) => some table
  | _ => none

/-- Pushes the slot at a depth below the top. -/
def visitLocalGet (depth : Nat) : Turn (Executor T) (Exit T) :=
  match depth with
  | 0 => .halt .undefined
  | n + 1 =>
    match e.valueStack[n]? with
    | some v => .next { e.advance 1 with valueStack := v :: e.valueStack }
    | none => .halt .undefined

/-- Pops a value, and writes it at a depth below what is left. -/
def visitLocalSet (depth : Nat) : Turn (Executor T) (Exit T) :=
  match depth, e.valueStack with
  | n + 1, v :: stack =>
    if n < stack.length then
      .next { e.advance 1 with valueStack := stack.set n v }
    else
      .halt .undefined
  | _, _ => .halt .undefined

/-- Writes the value on top at a depth, and leaves it. -/
def visitLocalTee (depth : Nat) : Turn (Executor T) (Exit T) :=
  match depth, e.valueStack with
  | n + 1, v :: stack =>
    if n < (v :: stack).length then
      .next { e.advance 1 with valueStack := (v :: stack).set n v }
    else
      .halt .undefined
  | _, _ => .halt .undefined

/-- Goes on when the condition holds and jumps otherwise (`visit_br_if`, the opcode `BrIfEqz`). -/
def visitBrIf (offset : Int) : Turn (Executor T) (Exit T) :=
  match e.valueStack with
  | c :: stack =>
    if c.toBool then .next { e.advance 1 with valueStack := stack }
    else ({ e with valueStack := stack } : Executor T).jump offset
  | [] => .halt .undefined

/-- Jumps when the condition holds. -/
def visitBrIfNez (offset : Int) : Turn (Executor T) (Exit T) :=
  match e.valueStack with
  | c :: stack =>
    if c.toBool then ({ e with valueStack := stack } : Executor T).jump offset
    else .next { e.advance 1 with valueStack := stack }
  | [] => .halt .undefined

/-- Goes to the branch at the index, or to the last one; each takes two instructions. -/
def visitBrTable (targets : Nat) : Turn (Executor T) (Exit T) :=
  match targets, e.valueStack with
  | maxIndex + 1, index :: stack =>
    .next { e.advance (2 * min index.toNat maxIndex + 1) with valueStack := stack }
  | _, _ => .halt .undefined

/-- Charges an amount. -/
def visitConsumeFuel (fuel : Nat) : Turn (Executor T) (Exit T) :=
  match e.store.tryConsumeFuel fuel with
  | some store => .next { e.advance 1 with store := store }
  | none => .halt (.trapped .outOfFuel e)

/-- Charges what is on top of the stack. -/
def visitConsumeFuelStack : Turn (Executor T) (Exit T) :=
  match e.valueStack with
  | fuel :: stack => ({ e with valueStack := stack } : Executor T).visitConsumeFuel fuel.toNat
  | [] => .halt .undefined

/-- Goes back to the caller, or ends the run. -/
def visitReturn : Turn (Executor T) (Exit T) :=
  match e.callStack with
  | ip :: callStack => .next { e with ip := ip, callStack := callStack }
  | [] => .halt (.returned e)

/-- Goes to a function in place of the running one. -/
def visitReturnCallInternal (func : Nat) : Turn (Executor T) (Exit T) :=
  .next { e with ip := func }

/-- Calls a function of the module. -/
def visitCallInternal (func : Nat) : Turn (Executor T) (Exit T) :=
  if N_MAX_RECURSION_DEPTH ≤ e.callStack.length then
    .halt (.trapped .stackOverflow (e.advance 1))
  else
    .next { e with ip := func, callStack := (e.ip + 1) :: e.callStack }

/-- Calls the handler with the popped arguments, and pushes its results (`invoke_syscall`). -/
def invokeSyscall (func : Nat) : Turn (Executor T) (Exit T) :=
  match host.importLinker.resolveByFuncIdx func with
  | none => .halt .undefined
  | some entity =>
    match e.reserve (max entity.params.length entity.result.length) with
    | none => .halt (.trapped .stackOverflow e)
    | some e =>
      match popValues entity.params e.valueStack, entity.result.mapM Value.default with
      | some (params, stack), some result =>
        let reply := host.syscallHandler.invoke e.store.caller func params result
        let e := { e with valueStack := stack, store := e.store.setCaller reply.caller }
        match reply.status with
        | .ok () => .next { e with valueStack := pushValues reply.result e.valueStack }
        | .error .executionHalted =>
          .halt (.trapped .executionHalted
            { e with valueStack := pushValues reply.result e.valueStack })
        | .error code => .halt (.trapped code e)
      | _, _ => .halt .undefined

/-- `visit_call` and `visit_return_call`: the pointer is advanced first, since the host may
interrupt the execution. -/
def visitCall (func : Nat) : Turn (Executor T) (Exit T) :=
  (e.advance 1).invokeSyscall host func

/-- Looks up the callee of an indirect call; the expected signature is left in the store. -/
def resolveIndirect (signature : Nat) :
    Option (Except TrapCode UntypedValue × Executor T) :=
  match e.fetchTableIndex m, e.valueStack with
  | some table, index :: stack =>
    let e := { e with
      valueStack := stack
      store := { e.store with lastSignature := some signature } }
    match e.store.tables table with
    | none => none
    | some entity =>
      match entity.getUntyped index.toNat with
      | none => some (.error .tableOutOfBounds, e)
      | some func =>
        if func = NULL_FUNC_IDX then some (.error .indirectCallToNull, e) else some (.ok func, e)
  | _, _ => none

/-- Goes to a function of a table in place of the running one. -/
def visitReturnCallIndirect (signature : Nat) : Turn (Executor T) (Exit T) :=
  match e.resolveIndirect m signature with
  | none => .halt .undefined
  | some (.error code, e) => .halt (.trapped code e)
  | some (.ok func, e) => .next { e with ip := func.toNat }

/-- Calls a function of a table; the instruction that names the table is skipped on return. -/
def visitCallIndirect (signature : Nat) : Turn (Executor T) (Exit T) :=
  match e.resolveIndirect m signature with
  | none => .halt .undefined
  | some (.error code, e) => .halt (.trapped code e)
  | some (.ok func, e) =>
    if N_MAX_RECURSION_DEPTH ≤ e.callStack.length then
      .halt (.trapped .stackOverflow (e.advance 2))
    else
      .next { e with ip := func.toNat, callStack := (e.ip + 2) :: e.callStack }

/-- Takes the pending signature, and compares it with the callee's if there is one. -/
def visitSignatureCheck (signature : Nat) : Turn (Executor T) (Exit T) :=
  let store := { e.store with lastSignature := none }
  match e.store.lastSignature with
  | none => .next { e.advance 1 with store := store }
  | some actual =>
    if actual = signature then .next { e.advance 1 with store := store }
    else .halt (.trapped .badSignature { e with store := store })

/-- Reserves the slots a function needs. -/
def visitStackCheck (height : Nat) : Turn (Executor T) (Exit T) :=
  match e.reserve height with
  | some e => .next (e.advance 1)
  | none => .halt (.trapped .stackOverflow e)

/-- Keeps one of two values. -/
def visitSelect : Turn (Executor T) (Exit T) :=
  match e.valueStack with
  | c :: e2 :: e1 :: stack =>
    .next { e.advance 1 with valueStack := (if c.toBool then e1 else e2) :: stack }
  | _ => .halt .undefined

/-- Reads a global, which is zero until it is written. -/
def visitGlobalGet (idx : Nat) : Turn (Executor T) (Exit T) :=
  .next { e.advance 1 with
    valueStack := (e.store.globalVariables idx).getD 0 :: e.valueStack }

/-- Writes a global. -/
def visitGlobalSet (idx : Nat) : Turn (Executor T) (Exit T) :=
  match e.valueStack with
  | v :: stack =>
    .next { e.advance 1 with
      valueStack := stack
      store := { e.store with
        globalVariables := Function.update e.store.globalVariables idx (some v) } }
  | [] => .halt .undefined

/-- Replaces the value on top. -/
def visitUnary (op : UnaryOp) : Turn (Executor T) (Exit T) :=
  match e.valueStack with
  | v :: stack => .next { e.advance 1 with valueStack := op.eval v :: stack }
  | [] => .halt .undefined

/-- Replaces the two values on top. -/
def visitBinary (op : BinaryOp) : Turn (Executor T) (Exit T) :=
  match e.valueStack with
  | rhs :: lhs :: stack => .next { e.advance 1 with valueStack := op.eval lhs rhs :: stack }
  | _ => .halt .undefined

/-- Replaces the two values on top, or traps with the first of them still there. -/
def visitFallible (op : FallibleOp) : Turn (Executor T) (Exit T) :=
  match e.valueStack with
  | rhs :: lhs :: stack =>
    ({ e with valueStack := lhs :: stack } : Executor T).tryAdvance
      ((op.eval lhs rhs).map (· :: stack))
  | _ => .halt .undefined

/-- `visit_i32_mul64` and `visit_i32_add64`: 64-bit arithmetic on two slots read unsigned. -/
def visitWide (f : BitVec 64 → BitVec 64 → BitVec 64) : Turn (Executor T) (Exit T) :=
  match e.valueStack with
  | rhs :: lhs :: stack =>
    .next { e.advance 1 with
      valueStack := pushValue (.i64 (f (lhs.setWidth 64) (rhs.setWidth 64))) stack }
  | _ => .halt .undefined

/-- The memory bytes of the store. -/
def data : List Byte :=
  e.store.globalMemory.sharedMemory

/-- The executor with other memory bytes. -/
def setData (data : List Byte) : Executor T :=
  { e with store := { e.store with globalMemory := e.store.globalMemory.setData data } }

/-- Replaces an address by what it holds. -/
def visitLoad (op : LoadOp) (offset : Nat) : Turn (Executor T) (Exit T) :=
  match e.valueStack with
  | address :: stack => e.tryAdvance ((op.eval e.data address offset).map (· :: stack))
  | [] => .halt .undefined

/-- Writes a value at an address. -/
def visitStore (op : StoreOp) (offset : Nat) : Turn (Executor T) (Exit T) :=
  match e.valueStack with
  | value :: address :: stack =>
    match op.eval e.data address offset value with
    | .ok data => .next (({ e with valueStack := stack } : Executor T).setData data |>.advance 1)
    | .error code => .halt (.trapped code { e with valueStack := stack })
  | _ => .halt .undefined

/-- Pushes the number of pages. -/
def visitMemorySize : Turn (Executor T) (Exit T) :=
  .next { e.advance 1 with
    valueStack := BitVec.ofNat 32 e.store.globalMemory.currentPages :: e.valueStack }

/-- Replaces a number of pages by the number there was, or by minus one. -/
def visitMemoryGrow : Turn (Executor T) (Exit T) :=
  match e.valueStack with
  | delta :: stack =>
    match (Pages.new delta.toNat).bind e.store.globalMemory.grow with
    | some (old, memory) =>
      .next { e.advance 1 with
        valueStack := BitVec.ofNat 32 old :: stack
        store := { e.store with globalMemory := memory } }
    | none => .next { e.advance 1 with valueStack := -1 :: stack }
  | [] => .halt .undefined

/-- Fills a range of bytes. -/
def visitMemoryFill : Turn (Executor T) (Exit T) :=
  match e.valueStack with
  | n :: val :: d :: stack =>
    let e := { e with valueStack := stack }
    match e.data.getSlice? d.asI32Usize n.asI32Usize with
    | some _ =>
      .next ((e.setData (e.data.setSlice d.asI32Usize
        (List.replicate n.asI32Usize (val.setWidth 8)))).advance 1)
    | none => .halt (.trapped .memoryOutOfBounds e)
  | _ => .halt .undefined

/-- Copies a range of bytes, which may overlap. -/
def visitMemoryCopy : Turn (Executor T) (Exit T) :=
  match e.valueStack with
  | n :: s :: d :: stack =>
    let e := { e with valueStack := stack }
    match e.data.getSlice? s.asI32Usize n.asI32Usize,
        e.data.getSlice? d.asI32Usize n.asI32Usize with
    | some bytes, some _ => .next ((e.setData (e.data.setSlice d.asI32Usize bytes)).advance 1)
    | _, _ => .halt (.trapped .memoryOutOfBounds e)
  | _ => .halt .undefined

/-- Copies from the data section, which is empty for a dropped segment. -/
def visitMemoryInit (segment : Nat) : Turn (Executor T) (Exit T) :=
  match e.valueStack with
  | n :: s :: d :: stack =>
    let source := if e.store.emptyDataSegments.isEmpty segment then [] else m.dataSection
    let e := { e with valueStack := stack }
    match e.data.getSlice? d.asI32Usize n.asI32Usize,
        source.getSlice? s.asI32Usize n.asI32Usize with
    | some _, some bytes => .next ((e.setData (e.data.setSlice d.asI32Usize bytes)).advance 1)
    | _, _ => .halt (.trapped .memoryOutOfBounds e)
  | _ => .halt .undefined

/-- Marks a data segment as dropped. -/
def visitDataDrop (segment : Nat) : Turn (Executor T) (Exit T) :=
  .next { e.advance 1 with
    store := { e.store with emptyDataSegments := e.store.emptyDataSegments.drop segment } }

/-- The executor with another table. -/
def setTable (table : Nat) (entity : TableEntity) : Executor T :=
  { e with store := { e.store with tables := Function.update e.store.tables table entity } }

/-- Goes on with the next `n`-th instruction after an operation on a table. -/
def tryTable (n table : Nat) (r : Except TrapCode TableEntity) : Turn (Executor T) (Exit T) :=
  match r with
  | .ok entity => .next ((e.setTable table entity).advance n)
  | .error code => .halt (.trapped code e)

/-- Pushes the size of a table. -/
def visitTableSize (table : Nat) : Turn (Executor T) (Exit T) :=
  match e.store.tables table with
  | some entity =>
    .next { e.advance 1 with valueStack := BitVec.ofNat 32 entity.size :: e.valueStack }
  | none => .halt .undefined

/-- Grows a table, which is made here if there is none. -/
def visitTableGrow (table : Nat) : Turn (Executor T) (Exit T) :=
  match e.valueStack with
  | delta :: init :: stack =>
    let (result, entity) := ((e.store.tables table).getD {}).growUntyped delta.toNat init
    .next { (e.setTable table entity).advance 1 with valueStack := result :: stack }
  | _ => .halt .undefined

/-- Fills a range of elements. -/
def visitTableFill (table : Nat) : Turn (Executor T) (Exit T) :=
  match e.valueStack, e.store.tables table with
  | n :: val :: i :: stack, some entity =>
    ({ e with valueStack := stack } : Executor T).tryTable 1 table
      (entity.fillUntyped i.toNat val n.toNat)
  | _, _ => .halt .undefined

/-- Replaces an index by the element there. -/
def visitTableGet (table : Nat) : Turn (Executor T) (Exit T) :=
  match e.valueStack, e.store.tables table with
  | index :: stack, some entity =>
    match entity.getUntyped index.toNat with
    | some v => .next { e.advance 1 with valueStack := v :: stack }
    | none => .halt (.trapped .tableOutOfBounds { e with valueStack := stack })
  | _, _ => .halt .undefined

/-- Writes an element at an index. -/
def visitTableSet (table : Nat) : Turn (Executor T) (Exit T) :=
  match e.valueStack, e.store.tables table with
  | value :: index :: stack, some entity =>
    let e := { e with valueStack := stack }
    match entity.setUntyped index.toNat value with
    | some entity => .next ((e.setTable table entity).advance 1)
    | none => .halt (.trapped .tableOutOfBounds e)
  | _, _ => .halt .undefined

/-- Copies a range of elements, within a table or from another one. -/
def visitTableCopy (dst src : Nat) : Turn (Executor T) (Exit T) :=
  match e.valueStack, e.store.tables dst, e.store.tables src with
  | n :: s :: d :: stack, some dstTable, some srcTable =>
    ({ e with valueStack := stack } : Executor T).tryTable 1 dst <|
      if src ≠ dst then TableEntity.copy dstTable d.toNat srcTable s.toNat n.toNat
      else dstTable.copyWithin d.toNat s.toNat n.toNat
  | _, _, _ => .halt .undefined

/-- Copies from the element section, which is empty for a dropped segment. -/
def visitTableInit (segment : Nat) : Turn (Executor T) (Exit T) :=
  match e.fetchTableIndex m, e.valueStack with
  | some table, n :: s :: d :: stack =>
    let source := if e.store.emptyElemSegments.isEmpty segment then [] else m.elemSection
    match e.store.tables table with
    | some entity =>
      ({ e with valueStack := stack } : Executor T).tryTable 2 table
        (entity.initUntyped d.toNat source s.toNat n.toNat)
    | none => .halt .undefined
  | _, _ => .halt .undefined

/-- Marks an element segment as dropped. -/
def visitElementDrop (segment : Nat) : Turn (Executor T) (Exit T) :=
  .next { e.advance 1 with
    store := { e.store with emptyElemSegments := e.store.emptyElemSegments.drop segment } }

/-- `visit_bulk_drop` and `visit_drop`. -/
def visitBulkDrop (n : Nat) : Turn (Executor T) (Exit T) :=
  if n ≤ e.valueStack.length then
    .next { e.advance 1 with valueStack := e.valueStack.drop n }
  else
    .halt .undefined

/-- Executes one instruction (`RwasmExecutor::step`, built without the `fpu` feature). -/
def step (op : Opcode) : Turn (Executor T) (Exit T) :=
  match op with
  | .unreachable => .halt (.trapped .unreachableCodeReached e)
  | .trap code => .halt (.trapped code e)
  | .localGet depth => e.visitLocalGet depth
  | .localSet depth => e.visitLocalSet depth
  | .localTee depth => e.visitLocalTee depth
  | .br offset => e.jump offset
  | .brIfEqz offset => e.visitBrIf offset
  | .brIfNez offset => e.visitBrIfNez offset
  | .brTable targets => e.visitBrTable targets
  | .consumeFuel fuel => e.visitConsumeFuel fuel
  | .consumeFuelStack => e.visitConsumeFuelStack
  | .ret => e.visitReturn
  | .returnCallInternal func => e.visitReturnCallInternal func
  | .returnCall func => e.visitCall host func
  | .returnCallIndirect signature => e.visitReturnCallIndirect m signature
  | .callInternal func => e.visitCallInternal func
  | .call func => e.visitCall host func
  | .callIndirect signature => e.visitCallIndirect m signature
  | .signatureCheck signature => e.visitSignatureCheck signature
  | .stackCheck height => e.visitStackCheck height
  | .refFunc func =>
    .next { e.advance 1 with valueStack := BitVec.ofNat 32 func :: e.valueStack }
  | .i32Const value => .next { e.advance 1 with valueStack := value :: e.valueStack }
  | .drop => e.visitBulkDrop 1
  | .select => e.visitSelect
  | .globalGet idx => e.visitGlobalGet idx
  | .globalSet idx => e.visitGlobalSet idx
  | .load op offset => e.visitLoad op offset
  | .store op offset => e.visitStore op offset
  | .memorySize => e.visitMemorySize
  | .memoryGrow => e.visitMemoryGrow
  | .memoryFill => e.visitMemoryFill
  | .memoryCopy => e.visitMemoryCopy
  | .memoryInit segment => e.visitMemoryInit m segment
  | .dataDrop segment => e.visitDataDrop segment
  | .tableSize table => e.visitTableSize table
  | .tableGrow table => e.visitTableGrow table
  | .tableFill table => e.visitTableFill table
  | .tableGet table => e.visitTableGet table
  | .tableSet table => e.visitTableSet table
  | .tableCopy dst src => e.visitTableCopy dst src
  | .tableInit segment => e.visitTableInit m segment
  | .elemDrop segment => e.visitElementDrop segment
  | .unary op => e.visitUnary op
  | .binary op => e.visitBinary op
  | .fallible op => e.visitFallible op
  | .i32Mul64 => e.visitWide (· * ·)
  | .i32Add64 => e.visitWide (· + ·)
  | .bulkConst locals =>
    .next { e.advance 1 with valueStack := List.replicate locals 0 ++ e.valueStack }
  | .bulkDrop locals => e.visitBulkDrop locals
  | .fpu _ => .halt (.trapped .illegalOpcode e)

end Executor

/-- The machine of a module: fetch the instruction at the pointer and execute it. -/
def vm {T : Type} (m : RwasmModule) (host : Host T) : Machine (Executor T) (Exit T) where
  step e :=
    match m.codeSection[e.ip]? with
    | some op => e.step m host op
    | none => .halt .undefined

end Rwasm
