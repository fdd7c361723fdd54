import Rwasm.Compiler.Translator

/-!
# Visiting operators

The visitor of the translator: what each operator of a body does to the state of the translation
(`impl VisitOperator for InstructionTranslator`).
-/

namespace Rwasm

open Opcode

namespace InstructionTranslator

variable (cx : Context) (t : InstructionTranslator)

/-! ## Operators over values -/

/-- `translate_load`. -/
def translateLoad (op : LoadOperator) (offset : Nat) : Compile InstructionTranslator :=
  t.translateIfReachable fun t => do
    let t ← t.bumpFuelConsumption cx cx.costs.load
    let (addrType, t) ← t.popType
    let t := t.pushN op.maxStackHeight
    let t ← t.popHeightOf addrType
    let t := t.pushHeightOf op.loadedType
    let t ← t.popN op.maxStackHeight
    return (t.pushType op.loadedType).emit (op.emitted offset)

/-- `translate_store`. -/
def translateStore (op : StoreOperator) (offset : Nat) : Compile InstructionTranslator :=
  t.translateIfReachable fun t => do
    let t ← t.bumpFuelConsumption cx cx.costs.store
    let t := t.pushN op.maxStackHeight
    let (valueType, t) ← t.popType
    let t ← t.popHeightOf valueType
    let (addrType, t) ← t.popType
    let t ← t.popHeightOf addrType
    let t ← t.popN op.maxStackHeight
    return t.emit (op.emitted offset)

/-- `translate_conversion`. -/
def translateConversion (input output : ValType) (emitted : List Opcode) (maxStackHeight : Nat) :
    Compile InstructionTranslator :=
  t.translateIfReachable fun t => do
    let t ← t.bumpFuelConsumption cx cx.costs.base
    let t := t.pushN maxStackHeight
    let (_, t) ← t.popType
    let t := t.pushType output
    let t ← t.popHeightOf input
    let t := t.pushHeightOf output
    let t ← t.popN maxStackHeight
    return t.emit emitted

/-- `visit_reinterpret`: only the type changes. -/
def visitReinterpret (input output : ValType) : Compile InstructionTranslator :=
  t.translateIfReachable fun t => do
    let (_, t) ← t.popType
    let t ← t.bumpFuelConsumption cx cx.costs.base
    let t := t.pushType output
    let t ← t.popHeightOf input
    return t.pushHeightOf output

/-- `translate_binary`. -/
def translateBinary (emitted : List Opcode) (maxStackHeight : Nat) :
    Compile InstructionTranslator :=
  t.translateIfReachable fun t => do
    let t ← t.bumpFuelConsumption cx cx.costs.base
    let (lhsType, t) ← t.popType
    let (_, t) ← t.popType
    let t := t.pushType lhsType
    let t := t.pushN maxStackHeight
    let t ← t.popHeightOf lhsType
    let t ← t.popHeightOf lhsType
    let t := t.pushHeightOf lhsType
    let t ← t.popN maxStackHeight
    return t.emit emitted

/-- `translate_binary_compare`. -/
def translateBinaryCompare (emitted : List Opcode) (maxStackHeight : Nat) :
    Compile InstructionTranslator :=
  t.translateIfReachable fun t => do
    let t ← t.bumpFuelConsumption cx cx.costs.base
    let (lhsType, t) ← t.popType
    let (rhsType, t) ← t.popType
    let t := t.pushType .i32
    let t := t.pushN maxStackHeight
    let t ← t.popHeightOf lhsType
    let t ← t.popHeightOf rhsType
    let t := t.pushHeightOf .i32
    let t ← t.popN maxStackHeight
    return t.emit emitted

/-- `translate_unary`. -/
def translateUnary (emitted : List Opcode) (maxStackHeight : Nat) :
    Compile InstructionTranslator :=
  t.translateIfReachable fun t => do
    let t ← t.bumpFuelConsumption cx cx.costs.base
    let (lhsType, t) ← t.popType
    let t := t.pushType lhsType
    let t := t.pushN maxStackHeight
    let t ← t.popHeightOf lhsType
    let t := t.pushHeightOf lhsType
    let t ← t.popN maxStackHeight
    return t.emit emitted

/-- `translate_unary_compare`. -/
def translateUnaryCompare (emitted : List Opcode) (maxStackHeight : Nat) :
    Compile InstructionTranslator :=
  t.translateIfReachable fun t => do
    let t ← t.bumpFuelConsumption cx cx.costs.base
    let (lhsType, t) ← t.popType
    let t := t.pushType .i32
    let t := t.pushN maxStackHeight
    let t ← t.popHeightOf lhsType
    let t := t.pushHeightOf .i32
    let t ← t.popN maxStackHeight
    return t.emit emitted

/-- `translate_to_snippet_call`: inlined as a binary operator, or called. -/
def translateToSnippetCall (s : Snippet) : Compile InstructionTranslator :=
  if cx.withCodeSnippets then
    t.translateIfReachable fun t => do
      let t ← t.bumpFuelConsumption cx cx.costs.base
      let t ← t.popN s.funcType.params.length
      let t := t.pushN s.funcType.results.length
      let t ← expectTypes s.definition.origParams.reverse t
      let t := { t with stackTypes := s.definition.origResults.reverse ++ t.stackTypes }
      let t := { t with snippetCalls := t.snippetCalls ++ [SnippetCall.mk t.currentPc s] }
      return t.emit [callInternal (2 ^ 32 - 1)]
  else
    t.translateBinary cx s.definition.emitter s.definition.maxStackHeight

/-- The visits of the numeric operators. -/
def visitNumeric (op : NumericOperator) : Compile InstructionTranslator :=
  match op.translation with
  | .unary emitted maxStackHeight => t.translateUnary cx emitted maxStackHeight
  | .binary emitted maxStackHeight => t.translateBinary cx emitted maxStackHeight
  | .unaryCompare emitted maxStackHeight => t.translateUnaryCompare cx emitted maxStackHeight
  | .binaryCompare emitted maxStackHeight => t.translateBinaryCompare cx emitted maxStackHeight
  | .conversion input output emitted maxStackHeight =>
    t.translateConversion cx input output emitted maxStackHeight
  | .reinterpret input output => t.visitReinterpret cx input output
  | .snippet s => t.translateToSnippetCall cx s

/-- Wrapping drops the upper word. -/
def visitI32WrapI64 : Compile InstructionTranslator :=
  t.translateIfReachable fun t => do
    let t ← t.bumpFuelConsumption cx cx.costs.base
    let (_, t) ← t.popType
    let t := (t.pushType .i32).emit [drop]
    t.popN 1

/-- The visits of the constants; `slots` instructions for a value of `slots` slots. -/
def visitConst (type : ValType) (ops : List Opcode) : Compile InstructionTranslator :=
  t.translateIfReachable fun t => do
    let t ← t.bumpFuelConsumption cx cx.costs.base
    return ((t.pushType type).pushN type.slots).emit ops

/-- The null reference is the word zero. -/
def visitRefNull (type : ValType) : Compile InstructionTranslator :=
  t.translateIfReachable fun t => do
    let t ← t.bumpFuelConsumption cx cx.costs.base
    match type with
    | .funcRef | .externRef => return ((t.pushType type).pushN 1).emit [i32Const 0]
    | _ => .panic

/-- A function is referred to by its index plus one, until it is relocated. -/
def visitRefFunc (func : Nat) : Compile InstructionTranslator :=
  t.translateIfReachable fun t => do
    let t ← t.bumpFuelConsumption cx cx.costs.base
    return ((t.pushType .funcRef).pushN 1).emit [refFunc (func + 1)]

/-- A wide value is dropped in two instructions; `drop` is not charged. -/
def visitDrop : Compile InstructionTranslator :=
  t.translateIfReachable fun t => do
    let t ← t.popN 1
    let (itemType, t) ← t.popType
    let t := t.emit [drop]
    if itemType = .i64 ∨ itemType = .f64 then do
      let t ← t.popN 1
      return t.emit [drop]
    else return t

/-- The selection of one of two 64-bit values: a false condition moves the second over the first. -/
def selectWide : List Opcode :=
  [brIfEqz 4, drop, drop, br 3, localSet 2, localSet 2]

/-- `visit_select` and `visit_typed_select`. -/
def visitSelect : Compile InstructionTranslator :=
  t.translateIfReachable fun t => do
    let t ← t.bumpFuelConsumption cx cx.costs.base
    let t ← t.popN 3
    let t := t.pushN 1
    let (_, t) ← t.popType
    let (item, t) ← t.popType
    if item = .i64 ∨ item = .f64 then do
      let t ← t.popN 1
      return t.emit selectWide
    else return t.emit [Opcode.select]

/-- Both words of a wide local are read at the same depth, since the first one is pushed before the
second is read. -/
def visitLocalGet (idx : Nat) : Compile InstructionTranslator :=
  t.translateIfReachable fun t => do
    let t ← t.bumpFuelConsumption cx cx.costs.base
    let depth ← t.relativeLocalDepth idx
    let value ← Compile.unwrap (if 0 < depth then t.stackTypes[depth - 1]? else none)
    let expressed := getExpressedDepth t.stackTypes depth
    let t := (t.emit [localGet expressed]).pushN 1
    let t := if value = .i64 ∨ value = .f64 then (t.emit [localGet expressed]).pushN 1 else t
    return t.pushType value

/-- Both words of a wide local are written at the same depth, since the first one is popped before the
second is written. -/
def visitLocalSet (idx : Nat) : Compile InstructionTranslator :=
  t.translateIfReachable fun t => do
    let t ← t.bumpFuelConsumption cx cx.costs.base
    let t ← t.popN 1
    let (valueType, t) ← t.popType
    let depth ← t.relativeLocalDepth idx
    let expressed := getExpressedDepth t.stackTypes depth
    let t := t.emit [localSet expressed]
    if valueType = .i64 ∨ valueType = .f64 then (t.emit [localSet expressed]).popN 1 else return t

/-- A wide value is set from below the top, then copied and set from above. -/
def visitLocalTee (idx : Nat) : Compile InstructionTranslator :=
  t.translateIfReachable fun t => do
    let t ← t.bumpFuelConsumption cx cx.costs.base
    let depth ← t.relativeLocalDepth idx
    let expressed := getExpressedDepth t.stackTypes depth
    let valueType ← Compile.unwrap t.stackTypes.head?
    if valueType = .i64 ∨ valueType = .f64 then do
      let t ← (t.pushN 1).popN 1
      return t.emit [localTee (expressed - 1), localGet 2, localSet expressed]
    else return t.emit [localTee expressed]

/-- A wide global takes two places, and its lower word is in the second. -/
def visitGlobalGet (idx : Nat) : Compile InstructionTranslator :=
  t.translateIfReachable fun t => do
    let t ← t.bumpFuelConsumption cx cx.costs.entity
    let globalType ← cx.resolveGlobalType idx
    let type := globalType.contentType
    let t := t.pushType type
    if type = .i64 ∨ type = .f64 then
      return (t.emit [globalGet (idx * 2 + 1), globalGet (idx * 2)]).pushN 2
    else return (t.emit [globalGet (idx * 2)]).pushN 1

/-- The upper word of a wide value is on top and is written first. -/
def visitGlobalSet (idx : Nat) : Compile InstructionTranslator :=
  t.translateIfReachable fun t => do
    let t ← t.bumpFuelConsumption cx cx.costs.entity
    let globalType ← cx.resolveGlobalType idx
    let (_, t) ← t.popType
    let t ← (t.emit [globalSet (idx * 2)]).popN 1
    if globalType.contentType = .i64 ∨ globalType.contentType = .f64 then
      (t.emit [globalSet (idx * 2 + 1)]).popN 1
    else return t

/-! ## Memory and tables -/

/-- The size comes from one instruction. -/
def visitMemorySize : Compile InstructionTranslator :=
  t.translateIfReachable fun t => do
    let t ← t.bumpFuelConsumption cx cx.costs.entity
    return ((t.pushType .i32).pushN 1).emit [memorySize]

/-- The limit is that of the memory type, within the one of the configuration. -/
def visitMemoryGrow : Compile InstructionTranslator :=
  t.translateIfReachable fun t => do
    let t ← t.bumpFuelConsumption cx cx.costs.entity
    let memoryType ← Compile.unwrap cx.memories[0]?
    let t := t.emit
      (InstructionSet.opMemoryGrowChecked (some (BitVec.ofNat 32 (memoryType.maxPages cx)))
        cx.injectFuelCheck)
    let (popped, t) ← t.popType
    let t := t.pushType popped
    let t ← (t.pushN 2).popN 2
    let t ← t.popN 1
    return t.pushN 1

/-- The visits of the bulk instructions over three operands. -/
def visitBulk (ops : Compile (List Opcode)) : Compile InstructionTranslator :=
  t.translateIfReachable fun t => do
    let t ← t.bumpFuelConsumption cx cx.costs.entity
    let t ← popTypes 3 t
    let ops ← ops
    let t ← (t.pushN 2).popN 2
    let t ← t.popN 3
    return t.emit ops

/-- Where the segment lies in the module's data is known here. -/
def visitMemoryInit (segment : Nat) : Compile InstructionTranslator :=
  t.visitBulk cx <|
    match cx.memorySections segment with
    | some (offset, length) =>
      return InstructionSet.opMemoryInitChecked (some offset) (some length) (segment + 1)
        cx.injectFuelCheck
    | none => .fail .memoryOutOfBounds

/-- Copying within the memory. -/
def visitMemoryCopy : Compile InstructionTranslator :=
  t.visitBulk cx <| return InstructionSet.opMemoryCopyChecked cx.injectFuelCheck

/-- Filling a part of the memory. -/
def visitMemoryFill : Compile InstructionTranslator :=
  t.visitBulk cx <| return InstructionSet.opMemoryFillChecked cx.injectFuelCheck

/-- The visits of the instructions that drop a segment. -/
def visitSegmentDrop (ops : List Opcode) : Compile InstructionTranslator :=
  t.translateIfReachable fun t => do
    let t ← t.bumpFuelConsumption cx cx.costs.entity
    return t.emit ops

/-- Where the segment lies in the module's elements is known here. -/
def visitTableInit (segment table : Nat) : Compile InstructionTranslator :=
  t.visitBulk cx <|
    match cx.elementSections segment with
    | some (offset, length) =>
      return InstructionSet.opTableInitChecked (segment + 1) table length offset cx.injectFuelCheck
    | none => .fail .tableOutOfBounds

/-- Copying from a table to a table. -/
def visitTableCopy (dst src : Nat) : Compile InstructionTranslator :=
  t.visitBulk cx <| return InstructionSet.opTableCopyChecked dst src cx.injectFuelCheck

/-- Filling a part of a table. -/
def visitTableFill (table : Nat) : Compile InstructionTranslator :=
  t.visitBulk cx <| return InstructionSet.opTableFillChecked table cx.injectFuelCheck

/-- The types change, the height does not. -/
def visitTableGet (table : Nat) : Compile InstructionTranslator :=
  t.translateIfReachable fun t => do
    let t ← t.bumpFuelConsumption cx cx.costs.entity
    let (_, t) ← t.popType
    let t := t.emit [tableGet table]
    let tableType ← cx.resolveTableType table
    return t.pushType tableType.elementType

/-- An index and an element are popped. -/
def visitTableSet (table : Nat) : Compile InstructionTranslator :=
  t.translateIfReachable fun t => do
    let t ← t.bumpFuelConsumption cx cx.costs.entity
    let t ← t.popN 2
    let t ← popTypes 2 t
    return t.emit [tableSet table]

/-- The limit is that of the table type, or the greatest there is. -/
def visitTableGrow (table : Nat) : Compile InstructionTranslator :=
  t.translateIfReachable fun t => do
    let t ← t.bumpFuelConsumption cx cx.costs.entity
    let t ← popTypes 2 t
    let t := t.pushType .i32
    let tableType ← cx.resolveTableType table
    let t := t.emit
      (InstructionSet.opTableGrowChecked table
        (some (BitVec.ofNat 32 (tableType.maximum.getD N_MAX_TABLE_SIZE))) cx.injectFuelCheck)
    let t ← (t.pushN 2).popN 2
    let t ← t.popN 2
    return t.pushN 1

/-- The size comes from one instruction. -/
def visitTableSize (table : Nat) : Compile InstructionTranslator :=
  t.translateIfReachable fun t => do
    let t ← t.bumpFuelConsumption cx cx.costs.entity
    return ((t.pushN 1).pushType .i32).emit [tableSize table]

/-! ## Calls -/

/-- A call of a function, which an intrinsic replaces by its code. -/
def visitCall (func : Nat) : Compile InstructionTranslator :=
  t.translateIfReachable fun t => do
    let t ← t.bumpFuelConsumption cx cx.costs.call
    let type ← cx.resolveFuncTypeIndex func
    let t ← t.adjustValueStackForCall cx type
    let ops ← cx.emitFunctionCall func false
    return t.emit ops

/-- The table is named by a second instruction behind the call. -/
def visitCallIndirect (type table : Nat) : Compile InstructionTranslator :=
  t.translateIfReachable fun t => do
    let t ← t.bumpFuelConsumption cx cx.costs.call
    let t ← t.popN 1
    let (_, t) ← t.popType
    let t ← t.adjustValueStackForCall cx type
    let signature ← cx.funcTypeRegistry.resolveFuncTypeSignature type
    return t.emit [callIndirect signature, tableGet table]

/-- The parameters are moved down over what the function leaves, then the callee takes over. -/
def visitReturnCall (func : Nat) : Compile InstructionTranslator :=
  t.translateIfReachable fun t => do
    let type ← cx.resolveFuncTypeIndex func
    let funcType ← cx.funcTypeRegistry.resolveFuncType type
    let dropKeep ← t.dropKeepReturnCall funcType
    let t ← t.bumpFuelConsumption cx cx.costs.call
    let t := t.translateDropKeep dropKeep
    let ops ← cx.emitFunctionCall func true
    return { t.emit ops with reachable := false }

/-- The index of the callee is kept on top of its parameters. -/
def visitReturnCallIndirect (type table : Nat) : Compile InstructionTranslator :=
  t.translateIfReachable fun t => do
    let funcType ← cx.funcTypeRegistry.resolveFuncType type
    let t ← t.popN 1
    let (_, t) ← t.popType
    let dropKeep ← t.dropKeepReturnCall funcType
    let dropKeep ← dropKeep.addKeep
    let t ← t.bumpFuelConsumption cx cx.costs.call
    let t := t.translateDropKeep dropKeep
    let signature ← cx.funcTypeRegistry.resolveFuncTypeSignature type
    return { t.emit [returnCallIndirect signature, tableGet table] with reachable := false }

/-! ## Control flow -/

/-- Nothing behind it is reachable. -/
def visitUnreachable : Compile InstructionTranslator :=
  t.translateIfReachable fun t => return { t.emit [unreachable] with reachable := false }

/-- A block is charged to the instruction its surroundings are charged to. -/
def visitBlock (type : BlockType) : Compile InstructionTranslator :=
  if t.reachable then do
    let frame ← t.lastFrame
    let height ← t.frameStackHeight cx type
    let (endLabel, t) := t.newLabel
    return t.pushFrame (.block endLabel ⟨type, height, frame.consumeFuelInstr, 0⟩)
  else
    return t.pushFrame (.unreachable .block type)

/-- The header of a loop is where it is entered, and so is its charge. -/
def visitLoop (type : BlockType) : Compile InstructionTranslator :=
  if t.reachable then do
    let height ← t.frameStackHeight cx type
    let (header, t) := t.newLabel
    let t ← t.pinLabel header
    let (fuel, t) := t.pushConsumeFuel cx
    return t.pushFrame (.loop header ⟨type, height, fuel, 0⟩)
  else
    return t.pushFrame (.unreachable .loop type)

/-- Both arms get a label, and the condition branches to the second. -/
def visitIf (type : BlockType) : Compile InstructionTranslator :=
  if t.reachable then do
    let t ← t.popN 1
    let t := { t with stackTypes := t.stackTypes.tail }
    let height ← t.frameStackHeight cx type
    let (elseLabel, t) := t.newLabel
    let (endLabel, t) := t.newLabel
    let t ← t.bumpFuelConsumption cx cx.costs.base
    let (offset, t) ← t.branchOffset elseLabel
    let t := t.emit [brIfEqz offset]
    let (fuel, t) := t.pushConsumeFuel cx
    return t.pushFrame (.if endLabel elseLabel none ⟨type, height, fuel, 0⟩)
  else
    return t.pushFrame (.unreachable .if type)

/-- The types on the stack when a block is entered. -/
def blockParams (type : BlockType) : Compile (List ValType) :=
  match type with
  | .funcType idx => do
    let funcType ← cx.funcTypeRegistry.resolveOriginalFuncType idx
    return funcType.params
  | .empty | .type _ => return []

/-- The types a block leaves on the stack. -/
def blockResults (type : BlockType) : Compile (List ValType) :=
  match type with
  | .funcType idx => do
    let funcType ← cx.funcTypeRegistry.resolveOriginalFuncType idx
    return funcType.results
  | .type type => return [type]
  | .empty => return []

/-- The second arm of an `if`; where the `if` itself is unreachable, it is ignored. -/
def visitElse : Compile InstructionTranslator :=
  match t.controlFrames with
  | .if endLabel elseLabel none frame :: frames => do
    let t ← if t.reachable then do
        let (offset, t) ← t.branchOffset endLabel
        pure (t.emit [br offset])
      else pure t
    let reach := t.reachable
    let t ← t.pinLabel elseLabel
    let (fuel, t) := t.pushConsumeFuel cx
    let fuel ← match fuel with
      | some instr => if frame.consumeFuel.isSome then pure (some instr) else Compile.panic
      | none => pure frame.consumeFuel
    let t ← t.shrinkTo frame.stackHeight
    let params ← blockParams cx frame.blockType
    let t := pushValuesOf params t
    return { t with
      controlFrames := .if endLabel elseLabel (some reach) { frame with consumeFuel := fuel } :: frames
      reachable := true }
  | .unreachable .if _ :: _ => return t
  | _ => .panic

/-- `visit_return`. -/
def visitReturn : Compile InstructionTranslator :=
  t.translateIfReachable fun t => do
    let dropKeep ← t.dropKeepReturn cx
    let t := t.translateDropKeep dropKeep
    return { t.emit [ret] with reachable := false }

/-- The end of a block. The end of the outermost one returns. -/
def visitEnd : Compile InstructionTranslator := do
  let frame ← t.lastFrame
  let t ← match frame with
    | .if _ elseLabel _ _ => do
      let labels ← t.labels.tryPinLabel elseLabel t.currentPc
      pure { t with labels := labels }
    | _ => pure t
  let t ← if frame.isReachable ∧ frame.kind ≠ .loop then do
      let endLabel ← frame.endLabel
      t.pinLabel endLabel
    else pure t
  let t ← if t.controlFrames.length = 1 then t.visitReturn cx
    else pure { t with reachable := frame.isReachable }
  let t ← match frame.stackHeight with
    | some height => t.shrinkTo height
    | none => pure t
  let results ← blockResults cx frame.blockType
  let t := pushValuesOf results { t with controlFrames := t.controlFrames.tail }
  if t.controlFrames = [] then return t else t.replaceConsumeFuel cx

/-- A branch drops what lies between its values and the target's height. -/
def visitBr (depth : Nat) : Compile InstructionTranslator :=
  t.translateIfReachable fun t => do
    let t ← t.addBranch depth
    match ← t.acquireTarget cx depth with
    | .branch label dropKeep => do
      let t ← t.bumpFuelConsumption cx cx.costs.base
      let t := t.translateDropKeep dropKeep
      let (offset, t) ← t.branchOffset label
      return { t.emit [br offset] with reachable := false }
    | .ret _ => do
      let t ← t.bumpFuelConsumption cx cx.costs.base
      let t ← t.visitReturn cx
      return { t with reachable := false }

/-- A branch that has slots to drop jumps over the code that drops them when it is not taken. -/
def visitBrIf (depth : Nat) : Compile InstructionTranslator :=
  t.translateIfReachable fun t => do
    let t ← t.popN 1
    let (_, t) ← t.popType
    let t ← t.addBranch depth
    let t ← match ← t.acquireTarget cx depth with
      | .branch label dropKeep => do
        let t ← t.bumpFuelConsumption cx cx.costs.base
        if dropKeep.isNoop then do
          let (offset, t) ← t.branchOffset label
          pure (t.emit [brIfNez offset])
        else do
          let t := t.emit [brIfEqz (dropKeep.code.length + 2)]
          let t := t.translateDropKeep dropKeep
          let (offset, t) ← t.branchOffset label
          pure (t.emit [br offset])
      | .ret dropKeep => do
        let t ← t.bumpFuelConsumption cx cx.costs.base
        let t := t.emit [brIfEqz (dropKeep.code.length + 2)]
        let t := t.translateDropKeep dropKeep
        pure (t.emit [ret])
    t.replaceConsumeFuel cx

/-- The code of a branch table: two instructions for each branch, and behind them the sequences of
the branches that need more. -/
structure BrTableCode where
  branches : List Opcode := []
  trampolines : List Opcode := []

/-- `encode_br_table_target`; `len` is the number of the instructions of all branches. -/
def encodeBrTableTarget (target : AcquiredTarget) (len : Nat) (code : BrTableCode)
    (t : InstructionTranslator) : Compile (BrTableCode × InstructionTranslator) :=
  match target with
  | .ret dropKeep =>
    if dropKeep.isNoop then
      return ({ code with branches := code.branches ++ [ret, ret] }, t)
    else
      return (
        { branches := code.branches ++
            [br (len - code.branches.length + code.trampolines.length : Nat), ret]
          trampolines := code.trampolines ++ dropKeep.code ++ [ret] },
        { t with stackHeight := dropKeep.touch t.stackHeight })
  | .branch label dropKeep =>
    if dropKeep.isNoop then do
      let (offset, t) ← t.tryResolveLabelFor label (t.currentPc + (code.branches.length + 1))
      return ({ code with branches := code.branches ++ [br offset, ret] }, t)
    else do
      let branches := code.branches ++
        [br (len - code.branches.length + code.trampolines.length : Nat), ret]
      let trampolines := code.trampolines ++ dropKeep.code
      let t := { t with stackHeight := dropKeep.touch t.stackHeight }
      let (offset, t) ← t.tryResolveLabelFor label (t.currentPc + (len + (trampolines.length + 1)))
      return ({ branches := branches, trampolines := trampolines ++ [br offset] }, t)

/-- Encodes the branches of a table in order. -/
def encodeBrTable (len : Nat) : List Nat → BrTableCode → InstructionTranslator →
    Compile (BrTableCode × InstructionTranslator)
  | [], code, t => return (code, t)
  | depth :: depths, code, t => do
    let t ← t.addBranch depth
    let target ← t.acquireTarget cx depth
    let (code, t) ← encodeBrTableTarget target len code t
    encodeBrTable len depths code t

/-- The default stands behind the targets. -/
def visitBrTable (targets : List Nat) (default : Nat) : Compile InstructionTranslator :=
  t.translateIfReachable fun t => do
    let len := (targets.length + 1) * 2
    let t ← t.bumpFuelConsumption cx cx.costs.base
    let t ← t.popN 1
    let (_, t) ← t.popType
    let (code, t) ← encodeBrTable cx len (targets ++ [default]) {} t
    if targets.length + 1 < 2 ^ 32 then
      return { t.emit ([brTable (targets.length + 1)] ++ code.branches ++ code.trampolines) with
        reachable := false }
    else
      .fail .branchTableTargetsOutOfBounds

/-! ## The visitor -/

/-- The operators that fall through. -/
def visitPlain (op : PlainOperator) : Compile InstructionTranslator :=
  match op with
  | .nop => return t
  | .call func => t.visitCall cx func
  | .callIndirect type table => t.visitCallIndirect cx type table
  | .drop => t.visitDrop
  | .select | .typedSelect _ => t.visitSelect cx
  | .localGet idx => t.visitLocalGet cx idx
  | .localSet idx => t.visitLocalSet cx idx
  | .localTee idx => t.visitLocalTee cx idx
  | .globalGet idx => t.visitGlobalGet cx idx
  | .globalSet idx => t.visitGlobalSet cx idx
  | .load op offset => t.translateLoad cx op offset
  | .store op offset => t.translateStore cx op offset
  | .memorySize => t.visitMemorySize cx
  | .memoryGrow => t.visitMemoryGrow cx
  | .i32Const value => t.visitConst cx .i32 [i32Const value]
  | .i64Const value => t.visitConst cx .i64 (InstructionSet.opI64Const value)
  | .f32Const bits => t.visitConst cx .f32 [i32Const bits]
  | .f64Const bits => t.visitConst cx .f64 (InstructionSet.opI64Const bits)
  | .refNull type => t.visitRefNull cx type
  | .refIsNull => t.visitNumeric cx .i32Eqz
  | .refFunc func => t.visitRefFunc cx func
  | .i32WrapI64 => t.visitI32WrapI64 cx
  | .numeric op => t.visitNumeric cx op
  | .memoryInit segment => t.visitMemoryInit cx segment
  | .dataDrop segment => t.visitSegmentDrop cx [dataDrop (segment + 1)]
  | .memoryCopy => t.visitMemoryCopy cx
  | .memoryFill => t.visitMemoryFill cx
  | .tableInit segment table => t.visitTableInit cx segment table
  | .elemDrop segment => t.visitSegmentDrop cx [elemDrop (segment + 1)]
  | .tableCopy dst src => t.visitTableCopy cx dst src
  | .tableFill table => t.visitTableFill cx table
  | .tableGet table => t.visitTableGet cx table
  | .tableSet table => t.visitTableSet cx table
  | .tableGrow table => t.visitTableGrow cx table
  | .tableSize table => t.visitTableSize cx table

/-- The operators that leave the code behind them unreachable. -/
def visitLeave (op : LeavingOperator) : Compile InstructionTranslator :=
  match op with
  | .unreachable => t.visitUnreachable
  | .br depth => t.visitBr cx depth
  | .brTable targets default => t.visitBrTable cx targets default
  | .ret => t.visitReturn cx
  | .returnCall func => t.visitReturnCall cx func
  | .returnCallIndirect type table => t.visitReturnCallIndirect cx type table

/-- The visit of an operator. -/
def visit (op : Operator) : Compile InstructionTranslator :=
  match op with
  | .plain op => t.visitPlain cx op
  | .leave op => t.visitLeave cx op
  | .brIf depth => t.visitBrIf cx depth
  | .block type => t.visitBlock cx type
  | .loop type => t.visitLoop cx type
  | .if type => t.visitIf cx type
  | .else => t.visitElse cx
  | .end => t.visitEnd cx

/-- Visits operators in order. -/
def visitAll : List Operator → InstructionTranslator → Compile InstructionTranslator
  | [], t => return t
  | op :: ops, t => do
    let t ← t.visit cx op
    visitAll ops t

end InstructionTranslator

end Rwasm
