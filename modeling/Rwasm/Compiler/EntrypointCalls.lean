import Rwasm.Compiler.Relocation

/-!
# What the entrypoint names

The functions and references in the entrypoint: those of the initial values of tables and globals, and the
calls of the start function, of the main function and of the functions the state router chooses from.
-/

namespace Rwasm

open Opcode

namespace SegmentBuilder

variable {globals globals' : List GlobalVariable} {sb sb' : SegmentBuilder} {ops : List Opcode}

/-- The code of the sections names functions only where tables and globals get their initial values. -/
def Names (globals : List GlobalVariable) (sb : SegmentBuilder) : Prop :=
  ∀ op ∈ sb.entrypointBytecode, ∀ n, op.funcNumber = some n → op = refFunc 0 ∨
    ∃ g ∈ globals, (g.contentType = .funcRef ∨ g.contentType = .externRef) ∧
      op = refFunc (g.defaultValue.setWidth 32 : UntypedValue).toNat

namespace Names

/-- The entrypoint starts out empty. -/
lemma start : Names [] {} := by
  intro op mem n named
  cases List.mem_singleton.mp mem
  cases named

/-- Code that names no function keeps what the entrypoint names. -/
lemma emit (h : Names globals sb) (unnamed : Unnamed ops) : Names globals (sb.emit ops) := by
  intro op mem n named
  rcases List.mem_append.mp mem with mem | mem
  · exact h op mem n named
  · rw [unnamed op mem] at named
    cases named

/-- What the entrypoint names depends on its code only. -/
lemma congr (h : Names globals sb) (code : sb'.entrypointBytecode = sb.entrypointBytecode) :
    Names globals sb' := by
  rwa [Names, code]

/-- The code of a global names the function its initializer names. -/
lemma addGlobalVariable {idx : Nat} {global : GlobalVariable} (h : Names globals sb)
    (added : sb.addGlobalVariable idx global = some sb') : Names (globals ++ [global]) sb' := by
  have before : Names (globals ++ [global]) sb := by
    intro op mem n named
    rcases h op mem n named with null | ⟨g, known, rest⟩
    · exact .inl null
    · exact .inr ⟨g, List.mem_append_left _ known, rest⟩
  obtain ⟨⟨type, mutable⟩, bits⟩ := global
  have reference : ∀ sb', (type = .funcRef ∨ type = .externRef) →
      sb' = sb.emit [refFunc (bits.setWidth 32 : UntypedValue).toNat, globalSet (idx * 2)] →
      Names (globals ++ [⟨⟨type, mutable⟩, bits⟩]) sb' := by
    rintro _ ref rfl op mem n named
    rcases List.mem_append.mp mem with mem | mem
    · exact before op mem n named
    · rcases List.mem_cons.mp mem with rfl | mem
      · exact .inr ⟨_, List.mem_append_right _ (.head _), ref, rfl⟩
      · cases List.mem_singleton.mp mem
        cases named
  unfold SegmentBuilder.addGlobalVariable at added
  cases type
  case funcRef =>
    cases added
    exact reference _ (.inl rfl) rfl
  case externRef =>
    cases added
    exact reference _ (.inr rfl) rfl
  case v128 => cases added
  all_goals
    cases added
    exact before.emit (.of_all rfl)

/-- The code of a table names no function. -/
lemma emitTableSegment {table initial : Nat} (h : Names globals sb) :
    Names globals (sb.emitTableSegment table initial) := by
  intro op mem n named
  rcases List.mem_append.mp mem with mem | mem
  · exact h op mem n named
  · rcases List.mem_cons.mp mem with rfl | mem
    · exact .inl rfl
    · have unnamed : Unnamed [i32Const (BitVec.ofNat 32 initial), tableGrow table, drop] := .of_all rfl
      rw [unnamed op mem] at named
      cases named

/-- The code of a memory names no function. -/
lemma addMemoryPages {initial limit : Nat} (h : Names globals sb)
    (added : sb.addMemoryPages initial limit = some sb') : Names globals sb' := by
  unfold SegmentBuilder.addMemoryPages at added
  dsimp only at added
  split at added
  · cases added
  · cases added
    split
    · exact (h.emit (.of_all rfl)).congr rfl
    · exact h.congr rfl

/-- The code of the element segments names no function. -/
lemma processElement {first : Nat} {segs : List ElementSegment} (h : Names globals sb) :
    Names globals (sb.processElement first segs) := by
  induction segs generalizing sb first with
  | nil => exact h
  | cons seg segs ih =>
    refine ih ?_
    cases seg with
    | active offset table elements => exact (h.emit (.of_all rfl)).congr rfl
    | passive elements => exact h.congr rfl
    | declared => exact h.congr rfl

/-- The code of the data segments names no function. -/
lemma processData {first : Nat} {segs : List DataSegment} (h : Names globals sb) :
    Names globals (sb.processData first segs) := by
  induction segs generalizing sb first with
  | nil => exact h
  | cons seg segs ih =>
    refine ih ?_
    cases seg with
    | active offset bytes => exact (h.emit (.of_all rfl)).congr rfl
    | passive bytes => exact h.congr rfl

end Names

/-- A module of what is built so far. -/
def alone (sb : SegmentBuilder) : RwasmModule where
  codeSection := sb.entrypointBytecode.map (Opcode.relocated id)
  dataSection := sb.globalMemorySection
  elemSection := sb.globalElementSection.map (relocatedRef id)

/-- The code of an entrypoint placed at the start of the module. -/
lemma placed_alone : sb.Placed sb.alone sb.entrypointBytecode.length id :=
  ⟨.self, Nat.le_refl _, List.prefix_refl _, List.prefix_refl _⟩

end SegmentBuilder

namespace ModuleParser

variable {policy : FuelPolicy} {config : CompilationConfig} {p q r : ModuleParser}

/-- What the code of the sections of a parser names. -/
def Names (p : ModuleParser) : Prop :=
  p.segmentBuilder.Names p.globals

/-- A section names what its entries name. -/
lemma Names.foldlM {α : Type} {f : ModuleParser → α → Compile ModuleParser} {as : List α}
    (step : ∀ p a q, f p a = .ok q → p.Names → q.Names) (names : p.Names) (h : as.foldlM f p = .ok q) :
    q.Names := by
  induction as generalizing p with
  | nil =>
    cases h
    exact names
  | cons a as ih =>
    rw [List.foldlM_cons, Compile.bind_ok] at h
    obtain ⟨p', hp, h⟩ := h
    exact ih (step p a p' hp names) h

/-- A global of the module. -/
lemma Names.addGlobal {global : GlobalVariable} (names : p.Names) (h : p.addGlobal global = .ok q) :
    q.Names := by
  obtain ⟨added, globals, -⟩ := addGlobal_eq h
  rw [Names, globals]
  exact SegmentBuilder.Names.addGlobalVariable names added

/-- An import, which adds code for the entrypoint when it is a global. -/
lemma Names.processImport {i : Import} (names : p.Names)
    (h : p.processImport policy config i = .ok q) : q.Names := by
  unfold ModuleParser.processImport at h
  split at h
  · obtain ⟨entity, code, -, -, rfl⟩ := processFuncImport_ok h
    exact names
  · split at h
    · exact names.addGlobal h
    · cases h
  · cases h

/-- The section of tables. -/
lemma Names.processTables {tables : List TableType} (names : p.Names) :
    (tables.foldl processTable p).Names := by
  induction tables generalizing p with
  | nil => exact names
  | cons table tables ih => exact ih (SegmentBuilder.Names.emitTableSegment names)

/-- After all sections the entrypoint names what the initializers of the globals do. -/
theorem parseSections_names {wasm : WasmModule} (h : parseSections policy config wasm = .ok p) :
    p.Names := by
  simp only [parseSections, Compile.bind_ok] at h
  obtain ⟨p0, types, p1, imports, p2, memories, p3, globals, p4, elements, data⟩ := h
  obtain ⟨registry, _, types⟩ := Compile.bind_ok.mp types
  obtain ⟨_, _, elements⟩ := Compile.bind_ok.mp elements
  obtain ⟨_, _, data⟩ := Compile.bind_ok.mp data
  cases types
  have begun : Names { funcTypeRegistry := registry } := SegmentBuilder.Names.start
  have imported := Names.foldlM (fun _ _ _ h names => names.processImport h) begun imports
  have tables : (wasm.tables.foldl processTable (p1.processFunctions wasm.functions)).Names :=
    Names.processTables imported
  have grown := Names.foldlM (fun _ _ _ h names => by
    obtain ⟨sb, added, rfl⟩ := processMemory_ok h
    exact SegmentBuilder.Names.addMemoryPages names added) tables memories
  have valued := Names.foldlM (fun _ _ _ h names => by
    obtain ⟨_, _, h⟩ := Compile.bind_ok.mp h
    exact names.addGlobal h) grown globals
  cases elements
  cases data
  exact SegmentBuilder.Names.processData (SegmentBuilder.Names.processElement valued)

/-- The values of the globals, and the references of the element segments. -/
theorem parseSections_values {wasm : WasmModule} (valid : wasm.Valid)
    (h : parseSections policy config wasm = .ok p) :
    ∃ vals elements,
      wasm.initialGlobals (config.defaultImportedGlobalValue.getD 0) = some vals ∧
      wasm.elements.mapM (Element.segment vals) = some elements ∧
      List.Forall₂ GlobalVariable.Holds p.globals vals ∧
      p.segmentBuilder.globalElementSection = elements.flatMap ElementSegment.elements := by
  simp only [parseSections, Compile.bind_ok] at h
  obtain ⟨p1, types, p2, imports, p3, memories, p4, globals, p5, elements, data⟩ := h
  obtain ⟨registry, rfl⟩ := processTypes_eq types
  obtain ⟨segments, evaluated, elements⟩ := Compile.bind_ok.mp elements
  obtain ⟨_, _, data⟩ := Compile.bind_ok.mp data
  cases elements
  cases data
  have placed := p4.segmentBuilder.placed_alone
  have begun : Progress p4.segmentBuilder.alone (.empty : Host Unit)
      p4.segmentBuilder.entrypointBytecode.length id (.new () none none)
      { funcTypeRegistry := registry } {} := by
    have placed3 := placed.of_le (foldlM_le (fun _ _ _ => processGlobal_le) globals)
    have placed2 := placed3.of_le (foldlM_le (fun _ _ _ => processMemory_le) memories)
    have placed1 : p2.segmentBuilder.Placed p4.segmentBuilder.alone
        p4.segmentBuilder.entrypointBytecode.length id :=
      placed2.of_le (processTables_le (p := p2.processFunctions wasm.functions))
    exact .start (placed1.of_le (foldlM_le (fun _ _ _ => processImport_le) imports))
  obtain ⟨vals, initial, types, built⟩ := begun.sections valid imports memories globals placed rfl
  refine ⟨vals, segments, initial, evalElements_segments valid built.globals types evaluated,
    built.globals, ?_⟩
  have added : (p4.segmentBuilder.processElement 0 segments).globalElementSection =
      segments.flatMap ElementSegment.elements := by
    rw [SegmentBuilder.globalElementSection_processElement, built.noElements, List.nil_append]
  exact SegmentBuilder.processData_globalElementSection.trans added

end ModuleParser

/-- The functions the entrypoint calls: the start function, and in tail calls the main function and those
the state router chooses from. -/
inductive EntrypointCalls (config : CompilationConfig) (wasm : WasmModule) : Nat → Bool → Prop
  | start {func : Nat} :
    wasm.start = some func →
    EntrypointCalls config wasm func false
  | main {name : String} {func : Nat} :
    config.entrypointName = some name →
    wasm.exports.reverse.lookup name = some func →
    EntrypointCalls config wasm func true
  | route {router : StateRouterConfig} {state : String × UntypedValue} {func : Nat} :
    config.stateRouter = some router →
    state ∈ router.states →
    wasm.exports.reverse.lookup state.1 = some func →
    EntrypointCalls config wasm func true

/-- What the instructions of the entrypoint are emitted for. -/
inductive EntrypointRefers (config : CompilationConfig) (wasm : WasmModule) (cx : Context)
    (globals : List Value) : Opcode → Reference → Prop
  | call {func : Nat} {isReturnCall : Bool} :
    EntrypointCalls config wasm func isReturnCall →
    cx.intrinsic func = none →
    EntrypointRefers config wasm cx globals
      (if isReturnCall then returnCallInternal (func + 1) else callInternal (func + 1)) (.func func)
  /-- The code of an intrinsic names functions by their numbers. -/
  | intrinsic {func : Nat} {isReturnCall : Bool} {ops : List Opcode} {o : Opcode} {n : Nat} :
    EntrypointCalls config wasm func isReturnCall →
    cx.intrinsic func = some (.replace ops) →
    o ∈ ops →
    o.funcNumber = some n →
    EntrypointRefers config wasm cx globals o (.ofNumber n)
  /-- So does the instruction in front of the state router. -/
  | router {router : StateRouterConfig} {o : Opcode} {n : Nat} :
    config.stateRouter = some router →
    router.opcode = some o →
    o.funcNumber = some n →
    EntrypointRefers config wasm cx globals o (.ofNumber n)
  /-- The elements of a table are null at first. -/
  | table :
    EntrypointRefers config wasm cx globals (refFunc 0) .null
  | global {b : UntypedValue} :
    .funcRef b ∈ globals ∨ .externRef b ∈ globals →
    EntrypointRefers config wasm cx globals (refFunc b.toNat) (.ofNumber b.toNat)

namespace ModuleParser

variable {policy : FuelPolicy} {config : CompilationConfig} {p q r : ModuleParser} {wasm : WasmModule}
  {globals : List Value} {cx : Context}

/-- Whether a function is an intrinsic depends on the imports only. -/
lemma CallsAlike.intrinsic (alike : p.CallsAlike q) :
    (q.context policy config).intrinsic = (p.context policy config).intrinsic := by
  funext func
  show (q.intrinsics.find? _).map _ = _
  rw [alike.intrinsics]
  rfl

/-- Only the entrypoint grows. -/
def Grows (p q : ModuleParser) : Prop :=
  ∃ ops, q = p.emitEntrypoint ops

namespace Grows

/-- An entrypoint grows by nothing. -/
lemma refl : p.Grows p := by
  refine ⟨[], ?_⟩
  rw [emitEntrypoint, SegmentBuilder.emit, List.append_nil]

/-- Emitting at the entrypoint grows it. -/
lemma emit {ops : List Opcode} : p.Grows (p.emitEntrypoint ops) := ⟨ops, rfl⟩

/-- An entrypoint that grows twice has grown. -/
lemma trans (h : p.Grows q) (h' : q.Grows r) : p.Grows r := by
  obtain ⟨ops, rfl⟩ := h
  obtain ⟨ops', rfl⟩ := h'
  refine ⟨ops ++ ops', ?_⟩
  simp only [emitEntrypoint, SegmentBuilder.emit, List.append_assoc]

/-- Growing leaves the code of the functions. -/
lemma code (h : p.Grows q) : p.CodeAlike q := by
  obtain ⟨ops, rfl⟩ := h
  exact ⟨rfl, rfl, rfl, rfl⟩

/-- Growing leaves what the calls depend on. -/
lemma calls (h : p.Grows q) : p.CallsAlike q := by
  obtain ⟨ops, rfl⟩ := h
  exact ⟨rfl, rfl, rfl, rfl⟩

/-- An entrypoint that holds code before holds code after. -/
lemma nonempty (h : p.Grows q) (before : p.segmentBuilder.entrypointBytecode ≠ []) :
    q.segmentBuilder.entrypointBytecode ≠ [] := by
  obtain ⟨ops, rfl⟩ := h
  exact List.append_ne_nil_of_left_ne_nil before ops

/-- A call grows the entrypoint. -/
lemma call {func : Nat} {isReturnCall : Bool}
    (h : p.emitEntrypointCall policy config func isReturnCall = .ok q) : p.Grows q := by
  obtain ⟨ops, -, h⟩ := Compile.bind_ok.mp h
  cases h
  exact emit

/-- The call of the start function grows the entrypoint. -/
lemma start (h : p.emitStart policy config = .ok q) : p.Grows q := by
  unfold emitStart at h
  split at h
  · split at h
    · exact call h
    · cases h
  · cases h
    exact refl

/-- The call of the main function grows the entrypoint. -/
lemma main (h : p.emitMain policy config = .ok q) : p.Grows q := by
  unfold emitMain at h
  split at h
  · split at h
    · exact call h
    · cases h
  · split at h
    · cases h
    · cases h
      exact refl

/-- A state of the router grows the entrypoint. -/
lemma state {state : String × UntypedValue} (h : p.emitState policy config state = .ok q) :
    p.Grows q := by
  unfold emitState at h
  split at h
  · cases h
    exact refl
  · simp only [Compile.bind_ok] at h
    obtain ⟨_, _, _, _, h⟩ := h
    split at h
    · cases h
    · exact emit.trans (call h)

/-- The states of the router grow the entrypoint. -/
lemma states {states : List (String × UntypedValue)}
    (h : states.foldlM (emitState policy config) p = .ok q) : p.Grows q := by
  induction states generalizing p with
  | nil =>
    cases h
    exact refl
  | cons s states ih =>
    rw [List.foldlM_cons, Compile.bind_ok] at h
    obtain ⟨p', hp, h⟩ := h
    exact (state hp).trans (ih h)

/-- The router grows the entrypoint. -/
lemma router (h : p.emitStateRouter policy config = .ok q) : p.Grows q := by
  unfold emitStateRouter at h
  split at h
  · cases h
    exact refl
  · obtain ⟨p', hp, h⟩ := Compile.bind_ok.mp h
    cases h
    exact (emit.trans (states hp)).trans emit

end Grows

/-- The instructions of an entrypoint are emitted for something. -/
def Explained (config : CompilationConfig) (wasm : WasmModule) (cx : Context) (globals : List Value)
    (ops : List Opcode) : Prop :=
  ∀ op ∈ ops, ∀ n, op.funcNumber = some n →
    EntrypointRefers config wasm cx globals op (.ofNumber n)

namespace Explained

variable {ops ops' : List Opcode}

/-- What two pieces of the entrypoint name is explained piece by piece. -/
lemma append (h : Explained config wasm cx globals ops) (h' : Explained config wasm cx globals ops') :
    Explained config wasm cx globals (ops ++ ops') := by
  intro op mem
  rcases List.mem_append.mp mem with mem | mem
  · exact h op mem
  · exact h' op mem

/-- Code that names no function needs no explanation. -/
lemma unnamed (h : Unnamed ops) : Explained config wasm cx globals ops := by
  intro op mem n named
  rw [h op mem] at named
  cases named

/-- The code of the sections. -/
lemma sections (names : p.Names) (holds : List.Forall₂ GlobalVariable.Holds p.globals globals) :
    Explained config wasm cx globals p.segmentBuilder.entrypointBytecode := by
  intro op mem n named
  rcases names op mem n named with rfl | ⟨g, known, type, rfl⟩
  · cases named
    exact .table
  · cases named
    refine .global ?_
    obtain ⟨v, mem', ty, bits⟩ : ∃ v ∈ globals, g.Holds v := by
      obtain ⟨i, lt, rfl⟩ := List.mem_iff_getElem.mp known
      have lt' : i < globals.length := holds.length_eq ▸ lt
      exact ⟨globals[i], List.getElem_mem lt', (List.forall₂_iff_get.mp holds).2 i lt lt'⟩
    rcases type with type | type
    · left
      cases v <;> rw [type] at ty <;> cases ty
      rwa [bits]
    · right
      cases v <;> rw [type] at ty <;> cases ty
      rwa [bits]

/-- A call of the entrypoint. -/
lemma emitEntrypointCall {func : Nat} {isReturnCall : Bool}
    (h : Explained config wasm cx globals p.segmentBuilder.entrypointBytecode)
    (called : EntrypointCalls config wasm func isReturnCall)
    (alike : cx.intrinsic = (p.context policy config).intrinsic)
    (emitted : p.emitEntrypointCall policy config func isReturnCall = .ok q) :
    Explained config wasm cx globals q.segmentBuilder.entrypointBytecode := by
  obtain ⟨ops, call, emitted⟩ := Compile.bind_ok.mp emitted
  cases emitted
  refine h.append ?_
  simp only [Context.emitFunctionCall, Compile.bind_ok] at call
  obtain ⟨type, -, funcType, -, call⟩ := call
  rw [← alike] at call
  split at call
  next opcodes replaced =>
    cases call
    intro op mem n named
    exact .intrinsic called replaced mem named
  next removed =>
    split at call
    · cases call
      exact unnamed (.replicate rfl)
    · cases call
  next plain =>
    cases call
    intro op mem n named
    rw [List.mem_singleton.mp mem] at named ⊢
    have number : n = func + 1 := by
      cases isReturnCall <;> cases named <;> rfl
    rw [number]
    exact .call called plain

/-- One state of the router. -/
lemma emitState {router : StateRouterConfig} {state : String × UntypedValue}
    (h : Explained config wasm cx globals p.segmentBuilder.entrypointBytecode)
    (routed : config.stateRouter = some router) (known : state ∈ router.states)
    (exported : p.exportedFuncs = wasm.exports.reverse)
    (alike : cx.intrinsic = (p.context policy config).intrinsic)
    (emitted : p.emitState policy config state = .ok q) :
    Explained config wasm cx globals q.segmentBuilder.entrypointBytecode := by
  unfold ModuleParser.emitState at emitted
  rw [exported] at emitted
  split at emitted
  · cases emitted
    exact h
  next func found =>
    simp only [Compile.bind_ok] at emitted
    obtain ⟨type, -, funcType, -, emitted⟩ := emitted
    split at emitted
    · cases emitted
    · have compared : Explained config wasm cx globals (p.emitEntrypoint
          [localGet 1, i32Const state.2, i32Eq, brIfEqz 3, drop]).segmentBuilder.entrypointBytecode :=
        h.append (unnamed (.of_all rfl))
      exact compared.emitEntrypointCall (.route routed known found) alike emitted

/-- The states of the router call the functions they are configured with. -/
lemma emitStates {router : StateRouterConfig} {states : List (String × UntypedValue)}
    (h : Explained config wasm cx globals p.segmentBuilder.entrypointBytecode)
    (routed : config.stateRouter = some router) (known : ∀ state ∈ states, state ∈ router.states)
    (exported : p.exportedFuncs = wasm.exports.reverse)
    (alike : cx.intrinsic = (p.context policy config).intrinsic)
    (emitted : states.foldlM (ModuleParser.emitState policy config) p = .ok q) :
    Explained config wasm cx globals q.segmentBuilder.entrypointBytecode := by
  induction states generalizing p with
  | nil =>
    cases emitted
    exact h
  | cons state states ih =>
    rw [List.foldlM_cons, Compile.bind_ok] at emitted
    obtain ⟨p', hp, emitted⟩ := emitted
    have calls := (Grows.state hp).calls
    refine ih (h.emitState routed (known state (.head _)) exported alike hp)
      (fun state mem => known state (.tail _ mem)) ?_ ?_ emitted
    · rw [calls.exportedFuncs, exported]
    · rw [alike, calls.intrinsic]

/-- The start of the entrypoint calls the start function. -/
lemma emitStart (h : Explained config wasm cx globals p.segmentBuilder.entrypointBytecode)
    (start : p.startFunc = wasm.start) (alike : cx.intrinsic = (p.context policy config).intrinsic)
    (emitted : p.emitStart policy config = .ok q) :
    Explained config wasm cx globals q.segmentBuilder.entrypointBytecode := by
  unfold ModuleParser.emitStart at emitted
  rw [start] at emitted
  split at emitted
  next func found =>
    split at emitted
    · exact h.emitEntrypointCall (.start found) alike emitted
    · cases emitted
  · cases emitted
    exact h

/-- The main call of the entrypoint calls the function exported under its name. -/
lemma emitMain (h : Explained config wasm cx globals p.segmentBuilder.entrypointBytecode)
    (exported : p.exportedFuncs = wasm.exports.reverse)
    (alike : cx.intrinsic = (p.context policy config).intrinsic)
    (emitted : p.emitMain policy config = .ok q) :
    Explained config wasm cx globals q.segmentBuilder.entrypointBytecode := by
  unfold ModuleParser.emitMain at emitted
  rw [exported] at emitted
  split at emitted
  next name named =>
    split at emitted
    next func found => exact h.emitEntrypointCall (.main named found) alike emitted
    · cases emitted
  · split at emitted
    · cases emitted
    · cases emitted
      exact h

/-- The router calls what its states are configured with. -/
lemma emitStateRouter (h : Explained config wasm cx globals p.segmentBuilder.entrypointBytecode)
    (exported : p.exportedFuncs = wasm.exports.reverse)
    (alike : cx.intrinsic = (p.context policy config).intrinsic)
    (emitted : p.emitStateRouter policy config = .ok q) :
    Explained config wasm cx globals q.segmentBuilder.entrypointBytecode := by
  unfold ModuleParser.emitStateRouter at emitted
  split at emitted
  · cases emitted
    exact h
  next router routed =>
    obtain ⟨p', states, emitted⟩ := Compile.bind_ok.mp emitted
    cases emitted
    have opened : Explained config wasm cx globals
        (p.emitEntrypoint router.opcode.toList).segmentBuilder.entrypointBytecode := by
      refine h.append ?_
      intro op mem n named
      exact .router routed (Option.mem_toList.mp mem) named
    have chosen := opened.emitStates routed (fun _ mem => mem) exported alike states
    exact chosen.append (unnamed (.of_all rfl))

/-- The return at the end names no function. -/
lemma withReturn (h : Explained config wasm cx globals ops) :
    Explained config wasm cx globals (ModuleParser.withReturn ops) := by
  unfold ModuleParser.withReturn
  split
  · exact h
  · exact h.append (unnamed (.of_all rfl))

end Explained

/-- What an assembled module is put together from: the entrypoint is explained, and the snippets that are
called stand behind the functions. -/
theorem assemble_linked {units : List (List Emission)} {pc : Nat}
    (h : p.assemble policy config = .ok (pc, q)) (laid : p.Laid units)
    (off : config.codeSnippets = false → ∀ e ∈ units.flatten, e.snippet? = none)
    (start : p.startFunc = wasm.start) (exported : p.exportedFuncs = wasm.exports.reverse)
    (explained : Explained config wasm (p.context policy config) globals
      p.segmentBuilder.entrypointBytecode) :
    Explained config wasm (p.context policy config) globals q.segmentBuilder.entrypointBytecode ∧
      q.segmentBuilder.entrypointBytecode ≠ [] ∧
      ∃ snippets emitted, (∀ s, s ∈ snippets ↔ ∃ e ∈ units.flatten, e.snippet? = some s) ∧
        p.Linked snippets emitted (List.zipWith (linkCall fun s => p.nextFunc + snippets.idxOf s)
          units.flatten p.instructionSet) q := by
  simp only [assemble, Compile.bind_ok] at h
  obtain ⟨p1, h1, p2, h2, p3, h3, p4, h4, h⟩ := h
  cases h
  have opened := (Grows.start h1).trans (@Grows.emit p1 [ret])
  have before := opened.trans (Grows.main h2)
  have snippets : p3.segmentBuilder = p2.segmentBuilder := by
    have appends := emitSnippets_appends h3
    rwa [Appends, SegmentBuilder.emit, List.append_nil] at appends
  have called := emitSnippets_calls h3
  have routed := Grows.router h4
  have explained1 := explained.emitStart start rfl h1
  have explained1 : Explained config wasm (p.context policy config) globals
      (p1.emitEntrypoint [ret]).segmentBuilder.entrypointBytecode :=
    explained1.append (.unnamed (.of_all rfl))
  have explained2 := explained1.emitMain (by rw [opened.calls.exportedFuncs, exported])
    opened.calls.intrinsic.symm h2
  rw [← snippets] at explained2
  have explained4 := explained2.emitStateRouter
    (by rw [called.exportedFuncs, before.calls.exportedFuncs, exported])
    (called.intrinsic.trans before.calls.intrinsic).symm h4
  refine ⟨explained4.withReturn, ?_, ?_⟩
  · have begun : (p1.emitEntrypoint [ret]).segmentBuilder.entrypointBytecode ≠ [] :=
      List.append_ne_nil_of_right_ne_nil _ (List.cons_ne_nil _ _)
    have named := (Grows.main h2).nonempty begun
    rw [← snippets] at named
    obtain ⟨last, eq⟩ := withReturn_eq p4.segmentBuilder.entrypointBytecode
    show ModuleParser.withReturn _ ≠ []
    rw [eq]
    exact List.append_ne_nil_of_left_ne_nil (routed.nonempty named) _
  · obtain ⟨snippets, emitted, all, linked⟩ := emitSnippets_linked (laid.congr before.code) off h3
    refine ⟨snippets, emitted, all, ?_⟩
    rw [before.code.nextFunc, before.code.instructionSet] at linked
    have code := routed.code
    exact (linked.congr before.code).grows
      ⟨code.instructionSet, code.funcOffsets, code.nextFunc, code.snippetCalls⟩

end ModuleParser

end Rwasm
