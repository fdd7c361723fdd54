import Rwasm.Compiler.CompiledExpr
import Rwasm.Compiler.FuncBuilder
import Rwasm.Vm.ImportLinker

/-!
# The compiler

The front end of the compiler (`compiler/parser.rs`, with its configuration from
`compiler/config.rs`): it goes through the sections of a module, translates the trampolines of the
imported functions and the function bodies, and assembles the final module. Functions are numbered
from `0`, the imported ones first; in emitted code function `f` is `f + 1`, and `finalize` replaces
that number by the address of the function.
-/

namespace Rwasm

open Opcode

/-- The constants of the fuel policy (`rwasm_fuel_policy`). -/
structure FuelPolicy extends FuelCosts where
  maxLinearX : UntypedValue
  maxQuadraticX : UntypedValue

/-- The dispatch between entry points (`StateRouterConfig`). -/
structure StateRouterConfig where
  states : List (String × UntypedValue)
  opcode : Option Opcode

/-- The configuration of the compiler (`CompilationConfig`). -/
structure CompilationConfig where
  stateRouter : Option StateRouterConfig := none
  entrypointName : Option String := none
  importLinker : Option ImportLinker := none
  allowMalformedEntrypointFuncType : Bool := false
  builtinsConsumeFuel : Bool := false
  defaultImportedGlobalValue : Option (BitVec 64) := none
  consumeFuel : Bool := true
  codeSnippets : Bool := true
  consumeFuelForBulkOps : Bool := true
  consumeFuelForParamsAndLocals : Bool := true
  allowFuncRefFunctionTypes : Bool := false
  allowStartSection : Bool := false
  maxAllowedMemoryPages : Nat := 1024

/-- `matches_func_type`. -/
def ImportLinkerEntity.matchesFuncType (entity : ImportLinkerEntity) (funcType : FuncType) : Bool :=
  funcType.params = entity.params ∧ funcType.results = entity.result

/-- `compile_block_params`: the charge in front of a call to the host. -/
def compileBlockParams (policy : FuelPolicy) : SyscallFuelParams → List Opcode
  | .none => []
  | .const base => [consumeFuel (base % 2 ^ 32)]
  | .linearFuel paramIndex wordCost baseFuel =>
    [localGet paramIndex, i32Const policy.maxLinearX, i32GtU, brIfEqz 2, trap .integerOverflow,
      localGet paramIndex, i32Const 31, i32Add, i32Const 32, i32DivU,
      i32Const (BitVec.ofNat 32 wordCost), i32Mul] ++
    (if baseFuel ≠ 0 then [i32Const (BitVec.ofNat 32 baseFuel), i32Add] else []) ++
    [consumeFuelStack]
  | .quadraticFuel localDepth wordCost divisor fuelDenomRate =>
    [localGet localDepth, i32Const policy.maxQuadraticX, i32GtU, brIfEqz 2, trap .integerOverflow,
      -- linear part: the cost of the words
      localGet localDepth, i32Const 31, i32Add, i32Const 32, i32DivU,
      i32Const (BitVec.ofNat 32 wordCost), i32Mul,
      -- quadratic part: the square of the words over the divisor
      localGet (localDepth + 1), i32Const 31, i32Add, i32Const 32, i32DivU,
      localGet (localDepth + 2), i32Const 31, i32Add, i32Const 32, i32DivU,
      i32Mul, i32Const (BitVec.ofNat 32 divisor), i32DivU,
      i32Add, i32Const (BitVec.ofNat 32 fuelDenomRate), i32Mul, consumeFuelStack]

/-- The front end (`ModuleParser`), with the state shared by its translators
(`FuncTranslatorAllocations`). -/
structure ModuleParser where
  segmentBuilder : SegmentBuilder := {}
  instructionSet : List Opcode := []
  funcTypeRegistry : FuncTypeRegistry := {}
  compiledFuncs : List Nat := []
  tables : List TableType := []
  memories : List MemoryType := []
  globals : List GlobalVariable := []
  exportedFuncs : List (String × Nat) := []
  startFunc : Option Nat := none
  funcOffsets : List Nat := []
  snippetCalls : List SnippetCall := []
  intrinsics : List (Nat × Intrinsic) := []
  /-- The number of the next function (`next_func`). -/
  nextFunc : Nat := 0

namespace ModuleParser

variable (policy : FuelPolicy) (config : CompilationConfig) (p : ModuleParser)

/-- What the translators read. -/
def context : Context where
  costs := policy.toFuelCosts
  withConsumeFuel := config.consumeFuel
  withCodeSnippets := config.codeSnippets
  consumeFuelForBulkOps := config.consumeFuelForBulkOps
  consumeFuelForParamsAndLocals := config.consumeFuelForParamsAndLocals
  maxAllowedMemoryPages := config.maxAllowedMemoryPages
  funcTypeRegistry := p.funcTypeRegistry
  compiledFuncs := p.compiledFuncs
  tables := p.tables
  memories := p.memories
  globals := p.globals.map GlobalVariable.toGlobalType
  intrinsics := p.intrinsics
  memorySections := p.segmentBuilder.memorySections
  elementSections := p.segmentBuilder.elementSections

/-! ## The sections -/

/-- `process_types`. -/
def processTypes (types : List FuncType) : Compile ModuleParser := do
  let registry ← types.foldlM FuncTypeRegistry.allocFuncType p.funcTypeRegistry
  return { p with funcTypeRegistry := registry }

/-- Adds a global to the module. -/
def addGlobal (global : GlobalVariable) : Compile ModuleParser :=
  match p.segmentBuilder.addGlobalVariable p.globals.length global with
  | some sb => return { p with segmentBuilder := sb, globals := p.globals ++ [global] }
  | none => .fail .notSupportedGlobalType

/-- The code of the trampoline of an imported function, behind that of the functions before it. -/
def trampoline (func type : Nat) (entity : ImportLinkerEntity) : Compile (List Opcode) := do
  let cx := p.context policy config
  let t : InstructionTranslator :=
    { instructionSet := p.instructionSet, snippetCalls := p.snippetCalls }
  let t ← t.prepare cx func
  let _ ← p.funcTypeRegistry.resolveFuncTypeSignature type
  let t := t.emit ([stackCheck (2 ^ 32 - 1)] ++
    (if config.builtinsConsumeFuel then compileBlockParams policy entity.syscallFuelParam else []) ++
    [call entity.sysFuncIdx, ret])
  t.finish cx p.instructionSet.length

/-- The next function is an import, called through the linker or replaced by an intrinsic. -/
def declareImport (type : Nat) (entity : ImportLinkerEntity) : ModuleParser :=
  { p with
    nextFunc := p.nextFunc + 1
    compiledFuncs := p.compiledFuncs ++ [type]
    intrinsics := p.intrinsics ++ entity.intrinsic.toList.map fun intrinsic => (p.nextFunc, intrinsic) }

/-- A function import: it is looked up in the linker, and gets a trampoline. -/
def processFuncImport (name : ImportName) (type : Nat) : Compile ModuleParser := do
  match config.importLinker with
  | none => .fail .unresolvedImportFunction
  | some linker =>
    match linker.resolveByImportName name with
    | none => .fail .unresolvedImportFunction
    | some entity =>
      let funcType ← p.funcTypeRegistry.resolveOriginalFuncType type
      if ¬ entity.matchesFuncType funcType then
        .fail .malformedImportFunctionType
      else if ¬ config.allowFuncRefFunctionTypes ∧
          ∃ x ∈ funcType.params ++ funcType.results, x = .funcRef ∨ x = .externRef then
        .fail .malformedImportFunctionType
      else do
        let code ← (p.declareImport type entity).trampoline policy config p.nextFunc type entity
        return { p.declareImport type entity with
          instructionSet := code
          funcOffsets := p.funcOffsets ++ [p.instructionSet.length] }

/-- One import of `process_imports`. -/
def processImport (i : Import) : Compile ModuleParser :=
  match i.type with
  | .func type => p.processFuncImport policy config i.name type
  | .global type =>
    match config.defaultImportedGlobalValue with
    | some value => p.addGlobal ⟨type, value⟩
    | none => .fail .notSupportedImportType
  | .other => .fail .notSupportedImportType

/-- `process_functions`. -/
def processFunctions (functions : List FuncBody) : ModuleParser :=
  { p with compiledFuncs := p.compiledFuncs ++ functions.map FuncBody.type }

/-- One table of `process_tables`. -/
def processTable (table : TableType) : ModuleParser :=
  { p with
    segmentBuilder := p.segmentBuilder.emitTableSegment p.tables.length table.initial
    tables := p.tables ++ [table] }

/-- One memory of `process_memories`. -/
def processMemory (memory : MemoryType) : Compile ModuleParser :=
  match p.segmentBuilder.addMemoryPages memory.initial config.maxAllowedMemoryPages with
  | some sb => return { p with segmentBuilder := sb, memories := p.memories ++ [memory] }
  | none => .fail .maxReadonlyDataReached

/-- What `eval_const` evaluates with. -/
def evalContext : EvalContext where
  getGlobal idx := p.globals[idx]?.bind GlobalVariable.value
  getFunc func := some (BitVec.ofNat 32 (func + 1))

/-- `eval_const`. -/
def evalConst (e : ConstExpr) : Compile (BitVec 64) := do
  let compiled ← CompiledExpr.new e.operators
  match compiled.eval p.evalContext with
  | some v => return v
  | none => .fail .constEvaluationFailed

/-- One global of `process_globals`. -/
def processGlobal (global : Global) : Compile ModuleParser := do
  let value ← p.evalConst global.initExpr
  p.addGlobal ⟨global.type, value⟩

/-- `process_exports`, where only functions are exported. -/
def processExports (exports : List (String × Nat)) : ModuleParser :=
  { p with exportedFuncs := exports.reverse ++ p.exportedFuncs }

/-- `process_start`. -/
def processStart (start : Option Nat) : ModuleParser :=
  { p with startFunc := start }

/-- The offset of an active segment. -/
def evalOffset (e : ConstExpr) (error : CompilationError) : Compile UntypedValue := do
  let value ← p.evalConst e
  match u32TryFrom value with
  | some offset => return offset
  | none => .fail error

/-- An item of an element segment that is an expression. -/
def elementItem (e : ConstExpr) : Compile UntypedValue := do
  let compiled ← CompiledExpr.new e.operators
  match compiled.funcref with
  | some func => return BitVec.ofNat 32 (func + 1)
  | none =>
    match compiled.evalConst with
    | some value => return value.setWidth 32
    | none => .fail .constEvaluationFailed

/-- The items of an element segment. -/
def elementItems : ElementItems → Compile (List UntypedValue)
  | .functions funcs => return funcs.map fun func => BitVec.ofNat 32 (func + 1)
  | .expressions exprs => exprs.mapM elementItem

/-- An element segment, evaluated. -/
def evalElement (element : Element) : Compile ElementSegment := do
  let items ← elementItems element.items
  match element.kind with
  | .active table offset => do
    let offset ← p.evalOffset offset .tableOutOfBounds
    return .active offset table items
  | .passive => return .passive items
  | .declared => return .declared

/-- `process_element`. -/
def processElement (elements : List Element) : Compile ModuleParser := do
  let segments ← elements.mapM p.evalElement
  return { p with segmentBuilder := p.segmentBuilder.processElement 0 segments }

/-- A data segment, evaluated. -/
def evalData (data : Data) : Compile DataSegment :=
  match data.kind with
  | .active memory offset =>
    if memory ≠ 0 then .fail .nonDefaultMemoryIndex
    else do
      let offset ← p.evalOffset offset .memoryOutOfBounds
      return .active offset data.data
  | .passive => return .passive data.data

/-- `process_data`. -/
def processData (data : List Data) : Compile ModuleParser := do
  let segments ← data.mapM p.evalData
  return { p with segmentBuilder := p.segmentBuilder.processData 0 segments }

/-- `process_code_entry`. -/
def processCodeEntry (body : FuncBody) : Compile ModuleParser := do
  let func := p.nextFunc
  let (code, snippetCalls) ← FuncBuilder.translate (p.context policy config) func body.locals
    body.operators p.instructionSet p.snippetCalls
  return { p with
    nextFunc := func + 1
    instructionSet := code
    funcOffsets := p.funcOffsets ++ [p.instructionSet.length]
    snippetCalls := snippetCalls }

/-- The sections that add to the entrypoint: all but the function bodies. -/
def parseSections (wasm : WasmModule) : Compile ModuleParser := do
  let p : ModuleParser := {}
  let p ← p.processTypes wasm.types
  let p ← wasm.imports.foldlM (fun p => p.processImport policy config) p
  let p := p.processFunctions wasm.functions
  let p := wasm.tables.foldl processTable p
  let p ← wasm.memories.foldlM (fun p => p.processMemory config) p
  let p ← wasm.globals.foldlM processGlobal p
  let p := (p.processExports wasm.exports).processStart wasm.start
  let p ← p.processElement wasm.elements
  p.processData wasm.data

/-- `parse`: the function bodies are translated at the end of the module. -/
def parse (wasm : WasmModule) : Compile ModuleParser := do
  let p ← parseSections policy config wasm
  wasm.functions.foldlM (fun p => p.processCodeEntry policy config) p

/-! ## The final module -/

/-- Appends to the entrypoint. -/
def emitEntrypoint (ops : List Opcode) : ModuleParser :=
  { p with segmentBuilder := p.segmentBuilder.emit ops }

/-- A call from the entrypoint. -/
def emitEntrypointCall (func : Nat) (isReturnCall : Bool) : Compile ModuleParser := do
  let ops ← (p.context policy config).emitFunctionCall func isReturnCall
  return p.emitEntrypoint ops

/-- The call of the start function. -/
def emitStart : Compile ModuleParser :=
  match p.startFunc with
  | some func =>
    if config.allowStartSection then p.emitEntrypointCall policy config func false
    else .fail .startSectionsAreNotAllowed
  | none => return p

/-- The tail call of the entry point, unless a state router chooses one. -/
def emitMain : Compile ModuleParser :=
  match config.entrypointName with
  | some name =>
    match p.exportedFuncs.lookup name with
    | some func => p.emitEntrypointCall policy config func true
    | none => .fail .missingEntrypoint
  | none => if config.stateRouter.isNone then .fail .missingEntrypoint else return p

/-- The code of a snippet that is called. -/
def snippetCode (snippet : Snippet) : List Opcode :=
  [stackCheck snippet.definition.maxStackHeight] ++ snippet.definition.emitter ++ [ret]

/-- The function of a snippet, which is emitted for its first call; `emitted` are those there are. -/
def snippetFunc (emitted : List (Snippet × Nat)) (snippet : Snippet) :
    Nat × List (Snippet × Nat) × ModuleParser :=
  match emitted.lookup snippet with
  | some func => (func, emitted, p)
  | none =>
    (p.nextFunc, (snippet, p.nextFunc) :: emitted,
      { p with
        nextFunc := p.nextFunc + 1
        funcOffsets := p.funcOffsets ++ [p.instructionSet.length]
        instructionSet := p.instructionSet ++ snippetCode snippet })

/-- Links the calls of snippets. -/
def linkSnippets : List SnippetCall → List (Snippet × Nat) → ModuleParser → Compile ModuleParser
  | [], _, p => return p
  | snippetCall :: calls, emitted, p =>
    let (func, emitted, p) := p.snippetFunc emitted snippetCall.snippet
    match p.instructionSet[snippetCall.loc]? with
    | some (.callInternal unresolved) =>
      if unresolved = 2 ^ 32 - 1 then
        linkSnippets calls emitted
          { p with instructionSet := p.instructionSet.set snippetCall.loc (callInternal (func + 1)) }
      else .panic
    | _ => .panic

/-- `emit_snippets`. -/
def emitSnippets : Compile ModuleParser :=
  if config.codeSnippets then linkSnippets p.snippetCalls [] p else return p

/-- One state of the state router. -/
def emitState (p : ModuleParser) (state : String × UntypedValue) : Compile ModuleParser :=
  match p.exportedFuncs.lookup state.1 with
  | none => return p
  | some func => do
    let type ← (p.context policy config).resolveFuncTypeIndex func
    let funcType ← p.funcTypeRegistry.resolveFuncType type
    if ¬ (funcType.params = [] ∧ funcType.results = []) ∧
        ¬ config.allowMalformedEntrypointFuncType then
      .fail .malformedFuncType
    else
      (p.emitEntrypoint [localGet 1, i32Const state.2, i32Eq, brIfEqz 3, drop]).emitEntrypointCall
        policy config func true

/-- `emit_state_router`. -/
def emitStateRouter : Compile ModuleParser :=
  match config.stateRouter with
  | none => return p
  | some router => do
    let p := p.emitEntrypoint router.opcode.toList
    let p ← router.states.foldlM (emitState policy config) p
    return p.emitEntrypoint [drop]

/-- `is_return_last`. -/
def isReturnLast (code : List Opcode) : Bool :=
  match code.getLast? with
  | some (.ret) | some (.returnCall _) | some (.returnCallInternal _)
  | some (.returnCallIndirect _) => true
  | _ => false

/-- `InstructionSet::finalize`. -/
def withReturn (code : List Opcode) : List Opcode :=
  if isReturnLast code then code else code ++ [ret]

/-- The address of a function, given the offsets of the functions and the length of the entrypoint;
`0` is the null reference. -/
def address (funcOffsets : List Nat) (entrypointLength func : Nat) : Compile Nat :=
  if 0 < func then do
    let offset ← Compile.unwrap funcOffsets[func - 1]?
    return offset + entrypointLength
  else return func

/-- Replaces the function an instruction names by its address. -/
def relocate (funcOffsets : List Nat) (entrypointLength : Nat) : Opcode → Compile Opcode
  | callInternal func => return callInternal (← address funcOffsets entrypointLength func)
  | returnCallInternal func => return returnCallInternal (← address funcOffsets entrypointLength func)
  | refFunc func => return refFunc (← address funcOffsets entrypointLength func)
  | op => return op

/-- Replaces a reference by the address of its function. -/
def relocateElement (funcOffsets : List Nat) (entrypointLength : Nat) (elem : UntypedValue) :
    Compile UntypedValue := do
  return BitVec.ofNat 32 (← address funcOffsets entrypointLength elem.toNat)

/-- What stands in the entrypoint and in the code before addresses are put into it. -/
def assemble : Compile (Nat × ModuleParser) := do
  let p ← p.emitStart policy config
  let p := p.emitEntrypoint [ret]
  let sourcePc := p.segmentBuilder.entrypointBytecode.length
  let p ← p.emitMain policy config
  let p ← p.emitSnippets config
  let p ← p.emitStateRouter policy config
  return (sourcePc, { p with segmentBuilder := { p.segmentBuilder with
    entrypointBytecode := withReturn p.segmentBuilder.entrypointBytecode } })

/-- The module of an assembled parser. -/
def link (sourcePc : Nat) (binary : List Byte) : Compile RwasmModule := do
  let entrypoint := p.segmentBuilder.entrypointBytecode
  let code ← (entrypoint ++ p.instructionSet).mapM (relocate p.funcOffsets entrypoint.length)
  let elements ← p.segmentBuilder.globalElementSection.mapM
    (relocateElement p.funcOffsets entrypoint.length)
  return {
    codeSection := code
    dataSection := p.segmentBuilder.globalMemorySection
    elemSection := elements
    hintSection := binary
    sourcePc := sourcePc }

/-- `finalize`. -/
def finalize (wasm : WasmModule) : Compile RwasmModule := do
  let (sourcePc, p) ← p.assemble policy config
  p.link sourcePc wasm.binary

end ModuleParser

/-- `RwasmModule::compile`. -/
def RwasmModule.compile (policy : FuelPolicy) (config : CompilationConfig) (wasm : WasmModule) :
    Compile RwasmModule := do
  let p ← ModuleParser.parse policy config wasm
  p.finalize policy config wasm

end Rwasm
