import Rwasm.Compiler.ControlFlow
import Rwasm.Compiler.Snippets
import Rwasm.Isa.Bulk
import Rwasm.Wasm.Module

/-!
# The translator

The state of the translation of a function body, and the steps its visitor is made of
(`compiler/translator.rs`). What the translator only reads (its configuration, the types, functions,
tables, memories and globals of the module, the segments and the intrinsics) is a `Context`; what it
changes is an `InstructionTranslator`. Both lists used as stacks, the control frames and the types of
the values, have their top first.
-/

namespace Rwasm

open Opcode

/-- The charges of the fuel policy (`rwasm_fuel_policy::FuelCosts`). -/
structure FuelCosts where
  base : Nat
  entity : Nat
  load : Nat
  store : Nat
  call : Nat
  fuelForLocals : Nat → Nat

/-- What the translation of a function body reads. -/
structure Context where
  costs : FuelCosts
  withConsumeFuel : Bool
  withCodeSnippets : Bool := true
  consumeFuelForBulkOps : Bool := false
  consumeFuelForParamsAndLocals : Bool := false
  maxAllowedMemoryPages : Nat := 1024
  funcTypeRegistry : FuncTypeRegistry
  compiledFuncs : List Nat := []
  tables : List TableType := []
  memories : List MemoryType := []
  globals : List GlobalType := []
  intrinsics : List (Nat × Intrinsic) := []
  memorySections : Nat → Option (UntypedValue × UntypedValue) := fun _ => none
  elementSections : Nat → Option (UntypedValue × UntypedValue) := fun _ => none

namespace Context

/-- `resolve_func_type_index`. -/
def resolveFuncTypeIndex (cx : Context) (func : Nat) : Compile Nat :=
  .unwrap cx.compiledFuncs[func]?

/-- `resolve_global_type`. -/
def resolveGlobalType (cx : Context) (idx : Nat) : Compile GlobalType :=
  .unwrap cx.globals[idx]?

/-- `resolve_table_type`. -/
def resolveTableType (cx : Context) (idx : Nat) : Compile TableType :=
  .unwrap cx.tables[idx]?

/-- Whether the bulk instructions charge for what they touch. -/
def injectFuelCheck (cx : Context) : Bool :=
  cx.consumeFuelForBulkOps && cx.withConsumeFuel

/-- The intrinsic that replaces the calls of a function. -/
def intrinsic (cx : Context) (func : Nat) : Option Intrinsic :=
  (cx.intrinsics.find? fun i => i.1 = func).map (·.2)

/-- `emit_function_call`: the call, or what an intrinsic replaces it with. -/
def emitFunctionCall (cx : Context) (func : Nat) (isReturnCall : Bool) : Compile (List Opcode) := do
  let type ← cx.resolveFuncTypeIndex func
  let funcType ← cx.funcTypeRegistry.resolveFuncType type
  match cx.intrinsic func with
  | some (.replace opcodes) => return opcodes
  | some .remove =>
    if funcType.results = [] then return List.replicate funcType.params.length drop
    else .panic
  | none => return [if isReturnCall then returnCallInternal (func + 1) else callInternal (func + 1)]

end Context

/-- The pages a memory may grow to: the declared maximum, where it is below the allowed one. -/
def MemoryType.maxPages (cx : Context) (type : MemoryType) : Nat :=
  match type.maximum with
  | some v => if v ≤ cx.maxAllowedMemoryPages then v else cx.maxAllowedMemoryPages
  | none => cx.maxAllowedMemoryPages

/-- Where a branch goes (`AcquiredTarget`). -/
inductive AcquiredTarget where
  | branch (label : Nat) (dropKeep : DropKeep)
  | ret (dropKeep : DropKeep)

/-- Adds to the charge of a `ConsumeFuel` instruction (`InstructionSet::bump_fuel_consumption`). -/
def InstructionSet.bumpFuelConsumption (code : List Opcode) (instr delta : Nat) :
    Compile (List Opcode) :=
  match code[instr]? with
  | some (.consumeFuel fuel) =>
    if fuel + delta < 2 ^ 32 then .ok (code.set instr (.consumeFuel (fuel + delta)))
    else .fail .blockFuelOutOfBounds
  | _ => .panic

/-- Pops types until the height they stand for is at most `target`. -/
def shrinkTypes (target : Nat) : Nat → List ValType → Compile (List ValType)
  | height, types =>
    if height ≤ target then .ok types
    else
      match types with
      | [] => .panic
      | t :: types => if t.slots ≤ height then shrinkTypes target (height - t.slots) types else .panic
termination_by _ types => types.length

/-- The slots of the topmost `depth` types (`get_expressed_depth`). -/
def getExpressedDepth (types : List ValType) (depth : Nat) : Nat :=
  slotCount (types.take depth)

/-- The state of the translation (`InstructionTranslator`). -/
structure InstructionTranslator where
  reachable : Bool := true
  controlFrames : List ControlFrame := []
  labels : LabelRegistry := {}
  instructionSet : List Opcode := []
  stackTypes : List ValType := []
  stackHeight : ValueStackHeight := {}
  lenRegistered : Nat := 0
  snippetCalls : List SnippetCall := []

namespace InstructionTranslator

variable (cx : Context) (t : InstructionTranslator)

/-- `current_pc`. -/
def currentPc : Nat :=
  t.instructionSet.length

/-- Appends instructions. -/
def emit (ops : List Opcode) : InstructionTranslator :=
  { t with instructionSet := t.instructionSet ++ ops }

/-- `push_n` on the emulated height. -/
def pushN (n : Nat) : InstructionTranslator :=
  { t with stackHeight := t.stackHeight.pushN n }

/-- `pop_n` on the emulated height. -/
def popN (n : Nat) : Compile InstructionTranslator := do
  let h ← t.stackHeight.popN n
  return { t with stackHeight := h }

/-- `push_type` on the emulated height. -/
def pushHeightOf (type : ValType) : InstructionTranslator :=
  t.pushN (ValueStackHeight.slots type)

/-- `pop_type` on the emulated height. -/
def popHeightOf (type : ValType) : Compile InstructionTranslator :=
  t.popN (ValueStackHeight.slots type)

/-- Pushes a type. -/
def pushType (type : ValType) : InstructionTranslator :=
  { t with stackTypes := type :: t.stackTypes }

/-- Pops a type. -/
def popType : Compile (ValType × InstructionTranslator) :=
  match t.stackTypes with
  | type :: types => .ok (type, { t with stackTypes := types })
  | [] => .panic

/-- Pops types that nothing is done with. -/
def popTypes : Nat → InstructionTranslator → Compile InstructionTranslator
  | 0, t => .ok t
  | n + 1, t => do
    let (_, t) ← t.popType
    popTypes n t

/-- Pops types that must be the given ones, first to last. -/
def expectTypes : List ValType → InstructionTranslator → Compile InstructionTranslator
  | [], t => .ok t
  | type :: types, t => do
    let (popped, t) ← t.popType
    if popped = type then expectTypes types t else .panic

/-- Pushes a value: its type and the height of its slots. -/
def pushValueOf (type : ValType) : InstructionTranslator :=
  (t.pushN type.slots).pushType type

/-- Pushes values in order. -/
def pushValuesOf (types : List ValType) (t : InstructionTranslator) : InstructionTranslator :=
  types.foldl pushValueOf t

/-- `pin_label` at the current location. -/
def pinLabel (label : Nat) : Compile InstructionTranslator := do
  let labels ← t.labels.pinLabel label t.currentPc
  return { t with labels := labels }

/-- A fresh label. -/
def newLabel : Nat × InstructionTranslator :=
  (t.labels.newLabel.1, { t with labels := t.labels.newLabel.2 })

/-- `try_resolve_label_for`. -/
def tryResolveLabelFor (label instr : Nat) : Compile (Int × InstructionTranslator) := do
  let (offset, labels) ← t.labels.tryResolveLabel label instr
  return (offset, { t with labels := labels })

/-- `branch_offset`: the offset to a label from the instruction emitted next. -/
def branchOffset (label : Nat) : Compile (Int × InstructionTranslator) :=
  t.tryResolveLabelFor label t.currentPc

/-- The innermost control frame. -/
def lastFrame : Compile ControlFrame :=
  .unwrap t.controlFrames.head?

/-- Opens a control frame. -/
def pushFrame (frame : ControlFrame) : InstructionTranslator :=
  { t with controlFrames := frame :: t.controlFrames }

/-- `push_consume_fuel_empty`, when fuel is metered. -/
def pushConsumeFuel : Option Nat × InstructionTranslator :=
  if cx.withConsumeFuel then (some t.currentPc, t.emit [consumeFuel 0]) else (none, t)

/-- `bump_fuel_consumption`: charges the code of the innermost frame. -/
def bumpFuelConsumption (delta : Nat) : Compile InstructionTranslator := do
  let frame ← t.lastFrame
  match frame.consumeFuelInstr with
  | some instr =>
    if cx.withConsumeFuel then do
      let code ← InstructionSet.bumpFuelConsumption t.instructionSet instr delta
      return { t with instructionSet := code }
    else return t
  | none => return t

/-- Charges the code that follows to a new `ConsumeFuel` instruction, when fuel is metered. -/
def replaceConsumeFuel : Compile InstructionTranslator :=
  if cx.withConsumeFuel then
    match t.controlFrames with
    | frame :: frames => do
      let frame ← frame.updateConsumeFuelInstr t.currentPc
      return { t.emit [consumeFuel 0] with controlFrames := frame :: frames }
    | [] => .panic
  else return t

/-- `frame_stack_height`: the height beneath the parameters of a block. -/
def frameStackHeight (type : BlockType) : Compile Nat := do
  let lenParams ← cx.funcTypeRegistry.resolveFuncParamsLenTypeByBlock type
  if lenParams ≤ t.stackHeight.height then return t.stackHeight.height - lenParams else .panic

/-- `max_depth`. -/
def maxDepth : Nat :=
  t.controlFrames.length - 1

/-- `add_branch`. -/
def addBranch (depth : Nat) : Compile InstructionTranslator :=
  match t.controlFrames[depth]? with
  | some frame => do
    let frame ← frame.bumpBranches
    return { t with controlFrames := t.controlFrames.set depth frame }
  | none => .panic

/-- `height_diff`: the slots above the bottom of a frame. -/
def heightDiff (depth : Nat) : Compile Nat := do
  let frame ← Compile.unwrap t.controlFrames[depth]?
  let origin ← Compile.unwrap frame.stackHeight
  if origin ≤ t.stackHeight.height then return t.stackHeight.height - origin else .panic

/-- `compute_drop_keep`: a branch keeps the results of a block, and the parameters of a loop. -/
def computeDropKeep (depth : Nat) : Compile DropKeep := do
  let frame ← Compile.unwrap t.controlFrames[depth]?
  let keep ← match frame.kind with
    | .block | .if => cx.funcTypeRegistry.resolveFuncResultsLenTypeByBlock frame.blockType
    | .loop => cx.funcTypeRegistry.resolveFuncParamsLenTypeByBlock frame.blockType
  let heightDiff ← t.heightDiff depth
  if keep ≤ heightDiff then DropKeep.new (heightDiff - keep) keep else .panic

/-- `drop_keep_return`: parameters and locals are dropped too. -/
def dropKeepReturn : Compile DropKeep := do
  let dropKeep ← t.computeDropKeep cx t.maxDepth
  DropKeep.new (dropKeep.drop + t.lenRegistered) dropKeep.keep

/-- `drop_keep_return_call`: keeps the parameters of the callee. -/
def dropKeepReturnCall (callee : FuncType) : Compile DropKeep := do
  let heightDiff ← t.heightDiff t.maxDepth
  if callee.params.length ≤ heightDiff then
    DropKeep.new (heightDiff - callee.params.length + t.lenRegistered) callee.params.length
  else
    .panic

/-- `acquire_target`: a branch to the outermost frame returns. -/
def acquireTarget (depth : Nat) : Compile AcquiredTarget :=
  if depth = t.maxDepth then do
    let dropKeep ← t.dropKeepReturn cx
    return .ret dropKeep
  else do
    let frame ← Compile.unwrap t.controlFrames[depth]?
    let label ← frame.branchDestination
    let dropKeep ← t.computeDropKeep cx depth
    return .branch label dropKeep

/-- `translate_drop_keep` into the code of the function. -/
def translateDropKeep (dropKeep : DropKeep) : InstructionTranslator :=
  { t.emit dropKeep.code with stackHeight := dropKeep.touch t.stackHeight }

/-- `relative_local_depth`. -/
def relativeLocalDepth (idx : Nat) : Compile Nat :=
  if idx ≤ t.stackTypes.length then return t.stackTypes.length - idx else .panic

/-- `adjust_value_stack_for_call`. -/
def adjustValueStackForCall (type : Nat) : Compile InstructionTranslator := do
  let funcType ← cx.funcTypeRegistry.resolveFuncType type
  let t ← t.popN funcType.params.length
  let t := t.pushN funcType.results.length
  let original ← cx.funcTypeRegistry.resolveOriginalFuncType type
  let t ← expectTypes original.params.reverse t
  return { t with stackTypes := original.results.reverse ++ t.stackTypes }

/-- `translate_if_reachable`. -/
def translateIfReachable (translator : InstructionTranslator → Compile InstructionTranslator) :
    Compile InstructionTranslator :=
  if t.reachable then translator t else return t

/-- Shrinks the emulated height to that of a frame, and drops the types above it. -/
def shrinkTo (height : Nat) : Compile InstructionTranslator := do
  let h ← t.stackHeight.shrinkTo height
  let types ← shrinkTypes height t.stackHeight.height t.stackTypes
  return { t with stackHeight := h, stackTypes := types }

end InstructionTranslator

end Rwasm
