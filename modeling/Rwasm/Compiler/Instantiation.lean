import Rwasm.Compiler.Entrypoint

/-!
# Instantiation by the entrypoint

The entrypoint of a compiled module, run on a fresh store, instantiates the module, unless a table or
the memory is too large to grow or a segment cannot be read (`InstantiationDefect`). The growing of a
table or of the memory yields `-1` then, and the entrypoint drops it.
-/

namespace Rwasm

open Opcode

namespace ModuleParser

variable {policy : FuelPolicy} {config : CompilationConfig} {p q : ModuleParser}

/-- One parser is the other with more code in the entrypoint. -/
def Appends (p q : ModuleParser) (ops : List Opcode) : Prop :=
  q.segmentBuilder = p.segmentBuilder.emit ops

namespace Appends

/-- A step that leaves the segments' code appends nothing to it. -/
lemma refl (h : q.segmentBuilder = p.segmentBuilder) : p.Appends q [] := by
  rw [Appends, h, SegmentBuilder.emit, List.append_nil]

/-- Emitting appends what is emitted. -/
lemma emit (ops : List Opcode) : p.Appends (p.emitEntrypoint ops) ops := rfl

/-- What two steps append. -/
lemma trans {r : ModuleParser} {ops ops' : List Opcode} (h : p.Appends q ops) (h' : q.Appends r ops') :
    p.Appends r (ops ++ ops') := by
  rw [Appends] at h h' ⊢
  rw [h', h, SegmentBuilder.emit, SegmentBuilder.emit, SegmentBuilder.emit, List.append_assoc]

end Appends

/-- A call appends to the entrypoint. -/
lemma emitEntrypointCall_appends {func : Nat} {isReturnCall : Bool}
    (h : p.emitEntrypointCall policy config func isReturnCall = .ok q) : ∃ ops, p.Appends q ops := by
  obtain ⟨ops, _, h⟩ := Compile.bind_ok.mp h
  cases h
  exact ⟨ops, rfl⟩

/-- The code of the start function stands in front of the return. -/
lemma emitStart_appends (h : p.emitStart policy config = .ok q) :
    ∃ ops, p.Appends q ops ∧ (p.startFunc = none → ops = []) := by
  unfold emitStart at h
  split at h
  next func start =>
    split at h
    · obtain ⟨ops, hq⟩ := emitEntrypointCall_appends h
      exact ⟨ops, hq, fun none => by rw [start] at none; cases none⟩
    · cases h
  · cases h
    exact ⟨[], .refl rfl, fun _ => rfl⟩

/-- The main call appends to the entrypoint. -/
lemma emitMain_appends (h : p.emitMain policy config = .ok q) : ∃ ops, p.Appends q ops := by
  unfold emitMain at h
  split at h
  · split at h
    · exact emitEntrypointCall_appends h
    · cases h
  · split at h
    · cases h
    · cases h
      exact ⟨[], .refl rfl⟩

/-- Linking a snippet leaves the segments. -/
lemma snippetFunc_segmentBuilder {emitted : List (Snippet × Nat)} {snippet : Snippet} :
    (p.snippetFunc emitted snippet).2.2.segmentBuilder = p.segmentBuilder := by
  unfold snippetFunc
  split <;> rfl

/-- Linking all snippets leaves the segments. -/
lemma linkSnippets_segmentBuilder {calls : List SnippetCall} {emitted : List (Snippet × Nat)}
    (h : linkSnippets calls emitted p = .ok q) : q.segmentBuilder = p.segmentBuilder := by
  induction calls generalizing emitted p with
  | nil =>
    cases h
    rfl
  | cons call calls ih =>
    simp only [linkSnippets] at h
    split at h
    · split at h
      · exact (ih h).trans snippetFunc_segmentBuilder
      · cases h
    · cases h

/-- The snippets append nothing to the entrypoint. -/
lemma emitSnippets_appends (h : p.emitSnippets config = .ok q) : p.Appends q [] := by
  unfold emitSnippets at h
  split at h
  · exact .refl (linkSnippets_segmentBuilder h)
  · cases h
    exact .refl rfl

/-- A state of the router appends to the entrypoint. -/
lemma emitState_appends {state : String × UntypedValue} (h : p.emitState policy config state = .ok q) :
    ∃ ops, p.Appends q ops := by
  unfold emitState at h
  split at h
  · cases h
    exact ⟨[], .refl rfl⟩
  · simp only [Compile.bind_ok] at h
    obtain ⟨type, _, funcType, _, h⟩ := h
    split at h
    · cases h
    · obtain ⟨ops, hq⟩ := emitEntrypointCall_appends h
      exact ⟨_, (Appends.emit _).trans hq⟩

/-- The states of the router append to the entrypoint. -/
lemma emitStates_appends {states : List (String × UntypedValue)}
    (h : states.foldlM (emitState policy config) p = .ok q) : ∃ ops, p.Appends q ops := by
  induction states generalizing p with
  | nil =>
    cases h
    exact ⟨[], .refl rfl⟩
  | cons state states ih =>
    rw [List.foldlM_cons, Compile.bind_ok] at h
    obtain ⟨p', hp, h⟩ := h
    obtain ⟨ops, first⟩ := emitState_appends hp
    obtain ⟨ops', rest⟩ := ih h
    exact ⟨ops ++ ops', first.trans rest⟩

/-- The router appends to the entrypoint. -/
lemma emitStateRouter_appends (h : p.emitStateRouter policy config = .ok q) :
    ∃ ops, p.Appends q ops := by
  unfold emitStateRouter at h
  split at h
  · cases h
    exact ⟨[], .refl rfl⟩
  · obtain ⟨p', hp, h⟩ := Compile.bind_ok.mp h
    cases h
    obtain ⟨ops, states⟩ := emitStates_appends hp
    exact ⟨_, ((Appends.emit _).trans states).trans (.emit _)⟩

/-- The return that `withReturn` may add. -/
lemma withReturn_eq (code : List Opcode) : ∃ ops, withReturn code = code ++ ops := by
  unfold withReturn
  split
  · exact ⟨[], (List.append_nil code).symm⟩
  · exact ⟨[ret], rfl⟩

/-- The entrypoint begins with the code of the sections, a call of the start function if there is one,
and a return. -/
theorem assemble_appends {pc : Nat} (h : p.assemble policy config = .ok (pc, q)) :
    ∃ start rest, p.Appends q (start ++ ret :: rest) ∧ (p.startFunc = none → start = []) := by
  simp only [assemble, Compile.bind_ok] at h
  obtain ⟨p1, h1, p2, h2, p3, h3, p4, h4, h⟩ := h
  cases h
  obtain ⟨start, a1, none⟩ := emitStart_appends h1
  obtain ⟨main, a2⟩ := emitMain_appends h2
  have a3 := emitSnippets_appends h3
  obtain ⟨router, a4⟩ := emitStateRouter_appends h4
  obtain ⟨last, eq⟩ := withReturn_eq p4.segmentBuilder.entrypointBytecode
  have a5 : p4.Appends { p4 with segmentBuilder := { p4.segmentBuilder with
      entrypointBytecode := withReturn p4.segmentBuilder.entrypointBytecode } } last := by
    rw [Appends, eq]
    rfl
  refine ⟨start, main ++ ([] ++ (router ++ last)), ?_, none⟩
  exact a1.trans ((Appends.emit [ret]).trans (a2.trans (a3.trans (a4.trans a5))))

/-- Function bodies add nothing to the entrypoint. -/
lemma processCodeEntry_eq {body : FuncBody} (h : p.processCodeEntry policy config body = .ok q) :
    q.segmentBuilder = p.segmentBuilder ∧ q.startFunc = p.startFunc := by
  obtain ⟨⟨code, calls⟩, _, h⟩ := Compile.bind_ok.mp h
  cases h
  exact ⟨rfl, rfl⟩

/-- The section of code leaves the segments and the start function. -/
lemma processCode_eq {functions : List FuncBody}
    (h : functions.foldlM (fun p => p.processCodeEntry policy config) p = .ok q) :
    q.segmentBuilder = p.segmentBuilder ∧ q.startFunc = p.startFunc := by
  induction functions generalizing p with
  | nil =>
    cases h
    exact ⟨rfl, rfl⟩
  | cons body functions ih =>
    rw [List.foldlM_cons, Compile.bind_ok] at h
    obtain ⟨p', hp, h⟩ := h
    have first := processCodeEntry_eq hp
    have rest := ih h
    exact ⟨rest.1.trans first.1, rest.2.trans first.2⟩

/-- After all sections the start function is the module's. -/
lemma parseSections_startFunc {wasm : WasmModule} (h : parseSections policy config wasm = .ok p) :
    p.startFunc = wasm.start := by
  simp only [parseSections, Compile.bind_ok] at h
  obtain ⟨_, _, _, _, _, _, p4, _, p5, helements, hdata⟩ := h
  obtain ⟨_, _, helements⟩ := Compile.bind_ok.mp helements
  obtain ⟨_, _, hdata⟩ := Compile.bind_ok.mp hdata
  cases helements
  cases hdata
  rfl

/-- The sections of a linked module. -/
theorem link_eq {pc : Nat} {binary : List Byte} {m : RwasmModule} (h : p.link pc binary = .ok m) :
    m.codeSection = (p.segmentBuilder.entrypointBytecode ++ p.instructionSet).map
        (Opcode.relocated (addressOf p.funcOffsets p.segmentBuilder.entrypointBytecode.length)) ∧
      m.dataSection = p.segmentBuilder.globalMemorySection ∧
      m.elemSection = p.segmentBuilder.globalElementSection.map
        (relocatedRef (addressOf p.funcOffsets p.segmentBuilder.entrypointBytecode.length)) := by
  simp only [link, Compile.bind_ok] at h
  obtain ⟨code, hcode, elements, helements, h⟩ := h
  cases h
  exact ⟨mapM_eq_map (fun _ _ => relocate_eq) hcode, rfl,
    mapM_eq_map (fun _ _ => relocateElement_eq) helements⟩

end ModuleParser

/-- The address `finalize` gives a function number. -/
def WasmModule.addresses (wasm : WasmModule) (policy : FuelPolicy) (config : CompilationConfig)
    (func : Nat) : Nat :=
  match (do (← ModuleParser.parse policy config wasm).assemble policy config : Compile _) with
  | .ok (_, p) =>
    ModuleParser.addressOf p.funcOffsets p.segmentBuilder.entrypointBytecode.length func
  | .error _ => 0

/-- The length of the part of the entrypoint that instantiates a module: what stands in front of the
call of the start function. -/
def WasmModule.instantiationLength (wasm : WasmModule) (policy : FuelPolicy)
    (config : CompilationConfig) : Nat :=
  match ModuleParser.parse policy config wasm with
  | .ok p => p.segmentBuilder.entrypointBytecode.length
  | .error _ => 0

/-- Running the first `n` instructions of the entrypoint leaves the instance in the store, or ends in a
trap with the instance in the store. So does the whole entrypoint, if it traps there or if there is no
start function. -/
def RwasmModule.Instantiates {T : Type} (m : RwasmModule) (host : Host T) (n : Nat) (addr : Nat → Nat)
    (start : Option Nat) (store : Store T) : Instance × Option TrapCode → Prop
  | (i, none) => ∃ store' : Store T,
    (vmWithin m host 0 n).Halts (.fresh store 0) (.next (.fresh store' n)) ∧ i.Matches addr store' ∧
      (start = none → Entrypoint m host store (.ok [] store'))
  | (i, some code) => ∃ e : Executor T,
    (vmWithin m host 0 n).Halts (.fresh store 0) (.halt (.trapped code e)) ∧ i.Matches addr e.store ∧
      Entrypoint m host store (.err code { e.store with lastSignature := none })

/-- What keeps the entrypoint from instantiating a module. -/
inductive InstantiationDefect (wasm : WasmModule) (limit : Nat) (default : BitVec 64) : Prop
  /-- A table is larger than tables may be. -/
  | table {t : TableType} :
    t ∈ wasm.tables →
    N_MAX_TABLE_SIZE < t.initial →
    InstantiationDefect wasm limit default
  /-- The memory is larger than the store allows. -/
  | memory :
    limit < wasm.initialPages →
    InstantiationDefect wasm limit default
  /-- An active data segment is reached and is in range, but its indices are too large to be read. -/
  | segment {globals elements data i i' pre seg k post} :
    wasm.initialGlobals default = some globals →
    wasm.elements.mapM (Element.segment globals) = some elements →
    wasm.data.mapM (Data.segment globals) = some data →
    applyUpdates Instance.initElement (wasm.allocated globals) elements.zipIdx = (i, true) →
    data.zipIdx = pre ++ (seg, k) :: post →
    applyUpdates Instance.initData i pre = (i', true) →
    (i'.initData (seg, k)).isSome →
    ¬ seg.Readable (List.flatStart DataSegment.bytes data k) →
    InstantiationDefect wasm limit default

namespace SegmentBuilder

variable {T : Type} {m : RwasmModule} {host : Host T} {n : Nat} {addr : Nat → Nat} {store : Store T}
  {sb : SegmentBuilder} {out out' : Instance × Option TrapCode} {start : Option Nat}

/-- A fresh executor without parameters runs as it is. -/
lemma run_fresh {out : Outcome T} : Entrypoint m host store out ↔
    ∃ exit, (vm m host).Halts (.fresh store 0) exit ∧ out = Executor.settle m exit [] := by
  rfl

/-- What the code of a builder reaches, the entrypoint reaches. -/
lemma Reaches.instantiates (h : sb.Reaches m host n addr store out)
    (len : sb.entrypointBytecode.length = n) (last : start = none → m.codeSection[n]? = some ret)
    (code : out.2 = none ∨ out.2 = some .tableOutOfBounds ∨ out.2 = some .memoryOutOfBounds) :
    m.Instantiates host n addr start store out := by
  obtain ⟨i, _ | trap⟩ := out
  · obtain ⟨store', st, hm, -⟩ := h
    rw [len] at st
    refine ⟨store', st.halts (Machine.within_exit ?_), hm, fun none => ?_⟩
    · exact fun inside => Nat.lt_irrefl n inside.2
    · rw [run_fresh]
      refine ⟨.returned (.fresh store' n), st.of_within.halts (.now ?_), rfl⟩
      exact (vm_step (last none)).trans rfl
  · obtain ⟨e, halts, hm⟩ := h
    refine ⟨e, halts, hm, ?_⟩
    rw [run_fresh]
    refine ⟨_, halts.of_within, ?_⟩
    rcases code with code | code | code <;> cases code <;> rfl

/-- The run has one outcome only. -/
lemma Reaches.unique (h : sb.Reaches m host n addr store out)
    (len : sb.entrypointBytecode.length = n) (h' : m.Instantiates host n addr start store out') :
    out.2 = out'.2 ∧ ∃ store' : Store T, out.1.Matches addr store' ∧ out'.1.Matches addr store' := by
  obtain ⟨i, _ | trap⟩ := out
  · obtain ⟨s, st, hm, -⟩ := h
    rw [len] at st
    have halts := st.halts (Machine.within_exit
      (P := fun e : Executor T => 0 ≤ e.ip ∧ e.ip < n) fun inside => Nat.lt_irrefl n inside.2)
    obtain ⟨i', _ | trap'⟩ := out'
    · obtain ⟨s', halts', hm', -⟩ := h'
      cases halts.unique halts'
      exact ⟨rfl, s, hm, hm'⟩
    · obtain ⟨e', halts', hm', -⟩ := h'
      cases halts.unique halts'
  · obtain ⟨e, halts, hm⟩ := h
    obtain ⟨i', _ | trap'⟩ := out'
    · obtain ⟨s', halts', hm', -⟩ := h'
      cases halts.unique halts'
    · obtain ⟨e', halts', hm', -⟩ := h'
      cases halts.unique halts'
      exact ⟨rfl, e.store, hm, hm'⟩

end SegmentBuilder

section Compiled

variable {policy : FuelPolicy} {config : CompilationConfig} {wasm : WasmModule} {m : RwasmModule}
  {T : Type} {host : Host T} {context : T} {fuelLimit maxPages : Option Nat}

/-- What the entrypoint of a compiled module reaches. -/
theorem compile_reaches (valid : wasm.Valid) (compiled : RwasmModule.compile policy config wasm = .ok m) :
    ∃ (sb : SegmentBuilder) (vals : List Value) (elements : List ElementSegment)
        (data : List DataSegment),
      wasm.initialGlobals (config.defaultImportedGlobalValue.getD 0) = some vals ∧
      wasm.elements.mapM (Element.segment vals) = some elements ∧
      wasm.data.mapM (Data.segment vals) = some data ∧
      sb.entrypointBytecode.length = wasm.instantiationLength policy config ∧
      (wasm.start = none → m.codeSection[wasm.instantiationLength policy config]? = some ret) ∧
      sb.Reaches m host (wasm.instantiationLength policy config) (wasm.addresses policy config)
        (.new context fuelLimit maxPages)
        ((wasm.grown (Store.new context fuelLimit maxPages).globalMemory.maxAllowedMemoryPages
          vals).copySegments (Instance.readData (List.flatStart DataSegment.bytes data))
            elements data) := by
  obtain ⟨p, parsed, finalized⟩ := Compile.bind_ok.mp compiled
  obtain ⟨⟨pc, q⟩, assembled, linked⟩ := Compile.bind_ok.mp finalized
  obtain ⟨p', sections, bodies⟩ := Compile.bind_ok.mp parsed
  obtain ⟨same, sameStart⟩ := ModuleParser.processCode_eq bodies
  obtain ⟨start, rest, appends, none⟩ := ModuleParser.assemble_appends assembled
  obtain ⟨code, data, elements⟩ := ModuleParser.link_eq linked
  rw [ModuleParser.Appends, same] at appends
  have addresses : wasm.addresses policy config =
      ModuleParser.addressOf q.funcOffsets q.segmentBuilder.entrypointBytecode.length := by
    funext func
    rw [WasmModule.addresses, parsed]
    change (match p.assemble policy config with | .ok (_, p) => _ | .error _ => _) = _
    rw [assembled]
  have length : wasm.instantiationLength policy config =
      p'.segmentBuilder.entrypointBytecode.length := by
    rw [WasmModule.instantiationLength, parsed, ← same]
  rw [← addresses] at code elements
  have entry : q.segmentBuilder.entrypointBytecode =
      p'.segmentBuilder.entrypointBytecode ++ (start ++ ret :: rest) := by
    rw [appends]
    rfl
  have placed : p'.segmentBuilder.Placed m (wasm.instantiationLength policy config)
      (wasm.addresses policy config) := by
    refine ⟨?_, length.ge, ?_, ?_⟩
    · have self := @CodeAt.self _ m.codeSection
      rw [code, entry, List.append_assoc, List.map_append, CodeAt.append_iff] at self
      rw [code, entry, List.append_assoc, List.map_append]
      exact self.1
    · rw [data, appends]
      exact List.prefix_refl _
    · rw [elements, appends]
      exact List.prefix_refl _
  obtain ⟨vals, elems, datas, hvals, helems, hdata, reaches⟩ :=
    ModuleParser.parseSections_reaches valid sections placed
      (by rw [elements, appends, List.length_map]; rfl) (by rw [data, appends]; rfl)
  refine ⟨p'.segmentBuilder, vals, elems, datas, hvals, helems, hdata, length.symm, ?_, reaches⟩
  intro started
  rw [← ModuleParser.parseSections_startFunc sections, ← sameStart] at started
  rw [code, entry, none started, length, List.nil_append, List.append_assoc, List.map_append,
    List.getElem?_append_right (by rw [List.length_map]), List.length_map, Nat.sub_self]
  rfl

/-- What can be grown is grown. -/
lemma grown_eq_allocated {limit : Nat} {vals : List Value}
    (tables : ∀ t ∈ wasm.tables, t.initial ≤ N_MAX_TABLE_SIZE) (memory : wasm.initialPages ≤ limit) :
    wasm.grown limit vals = wasm.allocated vals := by
  have sizes : wasm.tables.map (fun t => List.replicate (grownSize t.initial) (0 : UntypedValue)) =
      wasm.tables.map fun t => List.replicate t.initial 0 := by
    refine List.map_congr_left fun t mem => ?_
    rw [grownSize, if_pos (tables t mem)]
  rw [WasmModule.grown, WasmModule.allocated, sizes, grownPages, if_pos memory]

/-- What was grown to its size could be grown. -/
lemma growable_of_sizes {limit : Nat} {vals : List Value}
    (tables : (wasm.grown limit vals).tables.map List.length =
      (wasm.allocated vals).tables.map List.length)
    (memory : (wasm.grown limit vals).memory.length = (wasm.allocated vals).memory.length) :
    (∀ t ∈ wasm.tables, t.initial ≤ N_MAX_TABLE_SIZE) ∧ wasm.initialPages ≤ limit := by
  constructor
  · intro t mem
    rw [WasmModule.grown, WasmModule.allocated, List.map_map, List.map_map] at tables
    have size := List.map_inj_left.mp tables t mem
    simp only [Function.comp_apply, List.length_replicate, grownSize] at size
    split at size
    · assumption
    · rw [← size]
      exact Nat.zero_le _
  · simp only [WasmModule.grown, WasmModule.allocated, zeroMemory, List.length_replicate] at memory
    have pages := Nat.eq_of_mul_eq_mul_right (by decide) memory
    unfold grownPages at pages
    split at pages
    · assumption
    · rw [← pages]
      exact Nat.zero_le _

/-- A segment that is copied, but not by the machine, is active and unreadable. -/
lemma unreadable_of_fails {start : Nat → Nat} {i i' : Instance} {seg : DataSegment} {k : Nat}
    (next : i.initData (seg, k) = some i') (fails : i.readData start (seg, k) = none) :
    ¬ seg.Readable (start k) ∧ i'.droppedData = i.droppedData ++ [k] := by
  have unreadable : ¬ seg.Readable (start k) := by
    intro readable
    rw [Instance.readData, if_pos readable, next] at fails
    cases fails
  refine ⟨unreadable, ?_⟩
  cases seg with
  | active offset bytes =>
    simp only [Instance.initData] at next
    split at next
    · cases next
      rfl
    · cases next
  | passive => exact absurd trivial unreadable

/-- Where the machine stops at a segment and instantiation goes on, that segment is not dropped. -/
lemma dropped_of_part {start : Nat → Nat} {i : Instance} {data : List DataSegment}
    (fresh : i.droppedData = [])
    (part : Updates.Part Instance.initData (Instance.readData start) i data.zipIdx) :
    ∃ k ∈ (applyUpdates Instance.initData i data.zipIdx).1.droppedData,
      k ∉ (applyUpdates (Instance.readData start) i data.zipIdx).1.droppedData := by
  obtain ⟨pre, ⟨seg, k⟩, post, s, t, eq, reached, next, fails, stops, goes⟩ :=
    part.first SegmentBuilder.readData_refines
  have drops := (unreadable_of_fails next fails).2
  refine ⟨k, ?_, ?_⟩
  · have kept := (@Instance.copyData_keeps t Instance.initData post fun _ _ _ h => h).2.2
    rw [goes]
    refine kept.subset ?_
    rw [drops]
    exact List.mem_append_right _ (List.mem_singleton_self k)
  · rw [stops]
    intro mem
    have among := @Instance.mem_droppedData i pre k
    rw [reached, fresh] at among
    -- no index occurs twice
    have nodup : (data.zipIdx.map Prod.snd).Nodup := by
      rw [List.zipIdx_map_snd]
      exact List.nodup_range'
    rw [eq, List.map_append, List.map_cons] at nodup
    rcases among mem with mem | mem
    · cases mem
    · exact List.disjoint_of_nodup_append nodup mem List.mem_cons_self

/-- Without a defect, the entrypoint of a compiled module instantiates it. -/
theorem instantiates_of_no_defect (valid : wasm.Valid)
    (compiled : RwasmModule.compile policy config wasm = .ok m)
    (none : ¬ InstantiationDefect wasm
      (Store.new context fuelLimit maxPages).globalMemory.maxAllowedMemoryPages
      (config.defaultImportedGlobalValue.getD 0)) :
    ∃ out, wasm.instantiate (config.defaultImportedGlobalValue.getD 0) = some out ∧
      m.Instantiates host (wasm.instantiationLength policy config) (wasm.addresses policy config)
        wasm.start (.new context fuelLimit maxPages) out := by
  obtain ⟨sb, vals, elements, data, hvals, helems, hdata, length, last, reaches⟩ :=
    @compile_reaches _ _ _ _ _ host context fuelLimit maxPages valid compiled
  set limit := (Store.new context fuelLimit maxPages).globalMemory.maxAllowedMemoryPages
  have refines := @SegmentBuilder.readData_refines (List.flatStart DataSegment.bytes data)
  have small : ∀ t ∈ wasm.tables, t.initial ≤ N_MAX_TABLE_SIZE := fun t mem =>
    Nat.not_lt.mp fun large => none (.table mem large)
  have fits : wasm.initialPages ≤ limit := Nat.not_lt.mp fun large => none (.memory large)
  have copied : (wasm.allocated vals).copySegments
      (Instance.readData (List.flatStart DataSegment.bytes data)) elements data =
      (wasm.allocated vals).copySegments Instance.initData elements data := by
    unfold Instance.copySegments
    split
    · rfl
    next i reached =>
      refine congrArg _ (Updates.apply_eq refines ?_)
      rintro ⟨pre, ⟨seg, k⟩, post, i', split_, copied, succeeds, fails⟩
      obtain ⟨j, next⟩ := Option.isSome_iff_exists.mp succeeds
      exact none (.segment hvals helems hdata reached split_ copied succeeds
        (unreadable_of_fails next fails).1)
  rw [grown_eq_allocated small fits, copied] at reaches
  refine ⟨_, ?_, reaches.instantiates length last Instance.copySegments_code⟩
  simp only [WasmModule.instantiate, hvals, Option.bind_eq_bind, Option.bind_some, helems, hdata]

/-- With a defect, the entrypoint of a compiled module does not instantiate it. -/
theorem not_instantiates_of_defect {out : Instance × Option TrapCode} (valid : wasm.Valid)
    (compiled : RwasmModule.compile policy config wasm = .ok m)
    (defect : InstantiationDefect wasm
      (Store.new context fuelLimit maxPages).globalMemory.maxAllowedMemoryPages
      (config.defaultImportedGlobalValue.getD 0))
    (outcome : wasm.instantiate (config.defaultImportedGlobalValue.getD 0) = some out) :
    ¬ m.Instantiates host (wasm.instantiationLength policy config) (wasm.addresses policy config)
      wasm.start (.new context fuelLimit maxPages) out := by
  intro run
  obtain ⟨sb, vals, elements, data, hvals, helems, hdata, length, last, reaches⟩ :=
    @compile_reaches _ _ _ _ _ host context fuelLimit maxPages valid compiled
  set limit := (Store.new context fuelLimit maxPages).globalMemory.maxAllowedMemoryPages
  have refines := @SegmentBuilder.readData_refines (List.flatStart DataSegment.bytes data)
  simp only [WasmModule.instantiate, hvals, Option.bind_eq_bind, Option.bind_some, helems, hdata]
    at outcome
  cases outcome
  obtain ⟨sameCode, store, hm, hm'⟩ := reaches.unique length run
  obtain ⟨tables, memory, dropped⟩ := hm.sizes hm'
  have grownSizes := @Instance.copySegments_sizes (wasm.grown limit vals) _ elements data refines
  have sizes := @Instance.copySegments_sizes (wasm.allocated vals) Instance.initData elements data
    fun _ _ _ h => h
  obtain ⟨small, fits⟩ := growable_of_sizes (grownSizes.1.symm.trans (tables.trans sizes.1))
    (grownSizes.2.symm.trans ((congrArg List.length memory).trans sizes.2))
  cases defect with
  | table mem large => exact absurd (small _ mem) (Nat.not_le.mpr large)
  | memory large => exact absurd fits (Nat.not_le.mpr large)
  | segment hvals' helems' hdata' reached split_ copied succeeds unreadable =>
    rw [hvals] at hvals'
    cases hvals'
    rw [helems] at helems'
    cases helems'
    rw [hdata] at hdata'
    cases hdata'
    have fresh := (@Instance.copyElements_keeps (wasm.allocated vals) elements).2.2
    rw [reached] at fresh
    obtain ⟨k, mem, notMem⟩ := dropped_of_part fresh
      ⟨_, _, _, _, split_, copied, succeeds, if_neg unreadable⟩
    rw [grown_eq_allocated small fits, Instance.copySegments_fst reached,
      Instance.copySegments_fst reached] at dropped
    exact notMem ((dropped k).mpr mem)

end Compiled

/-- A policy that charges one unit of fuel for everything. -/
def unitPolicy : FuelPolicy where
  base := 1
  entity := 1
  load := 1
  store := 1
  call := 1
  fuelForLocals := id
  maxLinearX := 128000000
  maxQuadraticX := 1250000

/-- A configuration in which the entrypoint only instantiates. -/
def bareConfig : CompilationConfig where
  stateRouter := some ⟨[], none⟩

/-- A module with a table of 2000 elements. -/
def largeTable : WasmModule where
  tables := [⟨.funcRef, 2000, none⟩]

/-- The module with the large table is valid. -/
lemma largeTable_valid : largeTable.Valid := by
  refine ⟨trivial, ?_, ⟨by decide, nofun⟩, nofun, nofun, nofun, by decide, by decide⟩
  intro t mem
  cases List.mem_singleton.mp mem
  decide

/-- A module with a global of 64 bits, a page of memory and an active data segment. -/
def smallModule : WasmModule where
  memories := [⟨1, none⟩]
  globals := [⟨⟨.i64, false⟩, .atom (.i64Const 7)⟩]
  data := [⟨.active 0 (.atom (.i32Const 3)), [1, 2]⟩]

/-- The small module is valid. -/
lemma smallModule_valid : smallModule.Valid := by
  refine ⟨⟨rfl, trivial⟩, nofun, ⟨by decide, ?_⟩, nofun, nofun, ?_, by decide, by decide⟩
  · intro memory mem
    cases List.mem_singleton.mp mem
    decide
  · intro d mem memory offset kind
    cases List.mem_singleton.mp mem
    cases kind
    rfl

/-- There is no defect in a small module. -/
lemma smallModule_no_defect {limit : Nat} (fits : 1 ≤ limit) :
    ¬ InstantiationDefect smallModule limit 0 := by
  intro defect
  cases defect with
  | table mem => cases mem
  | memory large => exact absurd fits (Nat.not_le.mpr large)
  | @segment _ _ _ _ _ pre seg k post hvals _ hdata _ split_ _ _ unreadable =>
    cases hvals
    cases hdata
    have mem : (seg, k) ∈ pre ++ (seg, k) :: post := List.mem_append_right pre List.mem_cons_self
    rw [← split_] at mem
    cases List.mem_singleton.mp mem
    exact unreadable (by decide)

end Rwasm
