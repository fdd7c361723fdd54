import Rwasm.Compiler.BlockFuel
import Rwasm.Compiler.Extension
import Rwasm.Compiler.StateRouter

/-!
# Relocation

Where the functions of a module begin: each is emitted behind the code before it, the imported ones first,
and the functions of the snippets that are called come last, one for each of them (`emit_snippets`).
-/

namespace Rwasm

open Opcode

/-! ## The functions -/

/-- The lengths of the first `k` units. -/
def startOf {α : Type} (units : List (List α)) (k : Nat) : Nat :=
  (units.take k).flatten.length

section Starts

variable {α : Type} {units units' : List (List α)} {j k : Nat}

/-- Units placed behind others leave where those start. -/
lemma startOf_append (le : k ≤ units.length) : startOf (units ++ units') k = startOf units k := by
  rw [startOf, List.take_append_of_le_length le, startOf]

/-- A unit placed behind all others starts where they end. -/
lemma startOf_length : startOf units units.length = units.flatten.length := by
  rw [startOf, List.take_length]

/-- Where units placed behind others start. -/
lemma startOf_append_right : startOf (units ++ units') (units.length + k) =
    units.flatten.length + startOf units' k := by
  rw [startOf, List.take_length_add_append, List.flatten_append, List.length_append, startOf]

/-- Where units begin depends on their lengths only. -/
lemma startOf_map {β : Type} {f : α → β} : startOf (units.map (List.map f)) k = startOf units k := by
  rw [startOf, ← List.map_take, ← List.map_flatten, List.length_map, startOf]

/-- A unit starts where the one before it ends. -/
lemma startOf_succ {unit : List α} (found : units[k]? = some unit) :
    startOf units (k + 1) = startOf units k + unit.length := by
  rw [startOf, List.take_add_one, found, List.flatten_append, List.length_append, startOf]
  simp

/-- Units that are not empty begin at different places. -/
lemma startOf_lt (nonempty : ∀ unit ∈ units, unit ≠ []) (lt : j < k) (le : k ≤ units.length) :
    startOf units j < startOf units k := by
  induction k with
  | zero => cases lt
  | succ k ih =>
    have found : units[k]? = some units[k] := List.getElem?_eq_getElem le
    have pos := List.length_pos_of_ne_nil (nonempty _ (List.getElem_mem le))
    have next := startOf_succ found
    rcases Nat.lt_succ_iff_lt_or_eq.mp lt with lt | rfl
    · have before := ih lt (Nat.le_of_succ_le le)
      omega
    · omega

/-- Every element is at some place of one of the units. -/
lemma exists_unit {a : α} {i : Nat} (found : units.flatten[i]? = some a) :
    ∃ k unit j, units[k]? = some unit ∧ unit[j]? = some a ∧ i = startOf units k + j := by
  induction units generalizing i with
  | nil => cases found
  | cons unit units ih =>
    rw [List.flatten_cons] at found
    by_cases lt : i < unit.length
    · rw [List.getElem?_append_left lt] at found
      exact ⟨0, unit, i, rfl, found, (Nat.zero_add i).symm⟩
    · rw [List.getElem?_append_right (Nat.not_lt.mp lt)] at found
      obtain ⟨k, unit', j, hu, ha, eq⟩ := ih found
      refine ⟨k + 1, unit', j, hu, ha, ?_⟩
      have start : startOf (unit :: units) (k + 1) = unit.length + startOf units k := by
        rw [startOf, List.take_succ_cons, List.flatten_cons, List.length_append, startOf]
      omega

/-- What a unit holds stands behind its start. -/
lemma getElem?_startOf {unit : List α} {a : α} (found : units[k]? = some unit)
    (at' : unit[j]? = some a) : units.flatten[startOf units k + j]? = some a := by
  induction units generalizing k with
  | nil => cases found
  | cons first units ih =>
    rw [List.flatten_cons]
    cases k with
    | zero =>
      cases found
      have lt := (List.getElem?_eq_some_iff.mp at').1
      rw [startOf, List.take_zero, List.flatten_nil, List.length_nil, Nat.zero_add,
        List.getElem?_append_left lt]
      exact at'
    | succ k =>
      have start : startOf (first :: units) (k + 1) + j = first.length + (startOf units k + j) := by
        rw [startOf, List.take_succ_cons, List.flatten_cons, List.length_append, startOf, Nat.add_assoc]
      rw [start, List.getElem?_append_right (Nat.le_add_right _ _), Nat.add_sub_cancel_left]
      exact ih found

end Starts

namespace ModuleParser

variable {policy : FuelPolicy} {config : CompilationConfig} {p q r : ModuleParser}

/-- Both parsers have the same code. -/
structure CodeAlike (p q : ModuleParser) : Prop where
  instructionSet : q.instructionSet = p.instructionSet
  funcOffsets : q.funcOffsets = p.funcOffsets
  nextFunc : q.nextFunc = p.nextFunc
  snippetCalls : q.snippetCalls = p.snippetCalls

namespace CodeAlike

/-- A parser has the code it has. -/
lemma refl : p.CodeAlike p := ⟨rfl, rfl, rfl, rfl⟩

/-- Three parsers with the same code. -/
lemma trans (h : p.CodeAlike q) (h' : q.CodeAlike r) : p.CodeAlike r :=
  ⟨h'.instructionSet.trans h.instructionSet, h'.funcOffsets.trans h.funcOffsets,
    h'.nextFunc.trans h.nextFunc, h'.snippetCalls.trans h.snippetCalls⟩

/-- A section none of whose entries touches the code. -/
lemma foldlM {α : Type} {f : ModuleParser → α → Compile ModuleParser} {as : List α}
    (step : ∀ p a q, f p a = .ok q → p.CodeAlike q) (h : as.foldlM f p = .ok q) :
    p.CodeAlike q := by
  induction as generalizing p with
  | nil =>
    cases h
    exact .refl
  | cons a as ih =>
    rw [List.foldlM_cons, Compile.bind_ok] at h
    obtain ⟨p', hp, h⟩ := h
    exact (step p a p' hp).trans (ih h)

end CodeAlike

/-- The code of a parser consists of what was emitted for each of its functions. -/
structure Laid (p : ModuleParser) (units : List (List Emission)) : Prop where
  code : p.instructionSet = units.flatten.map Emission.op
  funcOffsets : p.funcOffsets = (List.range units.length).map (startOf units)
  nextFunc : p.nextFunc = units.length
  snippetCalls : p.snippetCalls = snippetCallsFrom 0 units.flatten

namespace Laid

variable {units units' : List (List Emission)} {es : List Emission}

/-- The units laid out depend on the code only. -/
lemma congr (h : p.Laid units) (alike : p.CodeAlike q) : q.Laid units where
  code := alike.instructionSet.trans h.code
  funcOffsets := by rw [alike.funcOffsets, h.funcOffsets]
  nextFunc := by rw [alike.nextFunc, h.nextFunc]
  snippetCalls := by rw [alike.snippetCalls, h.snippetCalls]

/-- The code is as long as its units. -/
lemma length (h : p.Laid units) : p.instructionSet.length = units.flatten.length := by
  rw [h.code, List.length_map]

/-- One more function. -/
lemma append (h : p.Laid units)
    (code : q.instructionSet = p.instructionSet ++ es.map Emission.op)
    (offsets : q.funcOffsets = p.funcOffsets ++ [p.instructionSet.length])
    (next : q.nextFunc = p.nextFunc + 1)
    (calls : q.snippetCalls = p.snippetCalls ++ snippetCallsFrom p.instructionSet.length es) :
    q.Laid (units ++ [es]) where
  code := by
    rw [code, h.code, List.flatten_append, List.map_append, List.flatten_singleton]
  funcOffsets := by
    rw [offsets, h.funcOffsets, List.length_append, List.length_singleton, List.range_succ,
      List.map_append, List.map_singleton, startOf_append (Nat.le_refl _), startOf_length, h.length]
    refine congrArg (· ++ _) (List.map_congr_left fun k mem => ?_)
    exact (startOf_append (Nat.le_of_lt (List.mem_range.mp mem))).symm
  nextFunc := by
    rw [next, h.nextFunc, List.length_append]
    rfl
  snippetCalls := by
    rw [calls, h.snippetCalls, h.length, List.flatten_append, List.flatten_singleton,
      snippetCallsFrom_append, Nat.zero_add]

end Laid

/-- The code of a trampoline behind its prologue. -/
def trampolineBody (policy : FuelPolicy) (config : CompilationConfig) (entity : ImportLinkerEntity)
    (height : Nat) : List Opcode :=
  stackCheck height ::
    ((if config.builtinsConsumeFuel then compileBlockParams policy entity.syscallFuelParam else []) ++
      [call entity.sysFuncIdx, ret])

/-- What is emitted for an imported function: its trampoline. -/
def Imported (policy : FuelPolicy) (config : CompilationConfig) (name : ImportName)
    (es : List Emission) : Prop :=
  ∃ cx entity prologue height,
    (config.importLinker.bind fun linker => linker.resolveByImportName name) = some entity ∧
    Prologue cx prologue ∧
    es = (prologue ++ trampolineBody policy config entity height).map Opcode.emission

/-- The charge of a syscall names no function. -/
lemma compileBlockParams_unnamed {params : SyscallFuelParams} :
    Unnamed (compileBlockParams policy params) := by
  cases params with
  | linearFuel param wordCost baseFuel =>
    refine .append (.append (.of_all rfl) ?_) (.of_all rfl)
    split <;> exact .of_all rfl
  | _ => exact .of_all rfl

/-- A trampoline names no function. -/
lemma Imported.unnamed {name : ImportName} {es : List Emission} (h : Imported policy config name es) :
    ∃ signature rest, Unnamed rest ∧ es = (signatureCheck signature :: rest).map Opcode.emission := by
  obtain ⟨cx, entity, prologue, height, -, ⟨signature, fuel, rfl⟩, rfl⟩ := h
  refine ⟨signature, _, ?_, rfl⟩
  refine Unnamed.append ?_ (.append (.of_all rfl : Unnamed [stackCheck height]) (.append ?_ (.of_all rfl)))
  · split <;> exact .of_all rfl
  · split
    · exact compileBlockParams_unnamed
    · exact .of_all rfl

/-- A global leaves the code of the functions. -/
lemma addGlobal_alike {global : GlobalVariable} (h : p.addGlobal global = .ok q) : p.CodeAlike q := by
  unfold addGlobal at h
  split at h
  · cases h
    exact ⟨rfl, rfl, rfl, rfl⟩
  · cases h

/-- The trampolines of the imported functions are what the parser makes of them in the state that the
imports before them leave it in. -/
def Trampolines (policy : FuelPolicy) (config : CompilationConfig) (p : ModuleParser) (imports : List Import)
    (units : List (List Emission)) : Prop :=
  ∀ (pre : List Import) (i : Import) (post : List Import) (type : Nat),
    imports = pre ++ i :: post → i.type = .func type → ∃ p' entity es,
      pre.foldlM (fun p => p.processImport policy config) p = .ok p' ∧
      (config.importLinker.bind fun linker => linker.resolveByImportName i.name) = some entity ∧
      units[(pre.filterMap Import.func?).length]? = some es ∧
      (p'.declareImport type entity).trampoline policy config p'.nextFunc type entity =
        .ok (p'.instructionSet ++ es.map Emission.op)

/-- An import in front of others has a trampoline if it is a function. -/
lemma Trampolines.cons {i : Import} {imports : List Import} {units : List (List Emission)}
    (rest : Trampolines policy config q imports units) (es : Option (List Emission))
    (step : p.processImport policy config i = .ok q)
    (func : (Import.func? i).isSome = es.isSome)
    (first : ∀ type, i.type = .func type → ∃ entity unit, es = some unit ∧
      (config.importLinker.bind fun linker => linker.resolveByImportName i.name) = some entity ∧
      (p.declareImport type entity).trampoline policy config p.nextFunc type entity =
        .ok (p.instructionSet ++ unit.map Emission.op)) :
    Trampolines policy config p (i :: imports) (es.toList ++ units) := by
  intro pre i' post type split kind
  cases pre with
  | nil =>
    cases split
    obtain ⟨entity, unit, rfl, found, compiled⟩ := first type kind
    exact ⟨p, entity, unit, rfl, found, rfl, compiled⟩
  | cons i'' pre =>
    cases split
    obtain ⟨p', entity, unit, reached, found, known, compiled⟩ := rest pre i' post type rfl kind
    refine ⟨p', entity, unit, ?_, found, ?_, compiled⟩
    · rw [List.foldlM_cons, step]
      exact reached
    · have index : ((i :: pre).filterMap Import.func?).length =
          es.toList.length + (pre.filterMap Import.func?).length := by
        cases es with
        | none =>
          rw [Option.isSome_none, Option.isSome_eq_false_iff, Option.isNone_iff_eq_none] at func
          rw [List.filterMap_cons_none func]
          exact (Nat.zero_add _).symm
        | some es =>
          obtain ⟨name, named⟩ := Option.isSome_iff_exists.mp func
          rw [List.filterMap_cons_some named, List.length_cons, Nat.add_comm]
          rfl
      rw [index, List.getElem?_append_right (Nat.le_add_right _ _), Nat.add_sub_cancel_left, known]

/-- Each imported function is laid out in its turn. -/
lemma Laid.imports {imports : List Import} {units : List (List Emission)} (laid : p.Laid units)
    (h : imports.foldlM (fun p => p.processImport policy config) p = .ok q) :
    ∃ units', q.Laid (units ++ units') ∧
      List.Forall₂ (Imported policy config) (imports.filterMap Import.func?) units' ∧
      Trampolines policy config p imports units' := by
  induction imports generalizing p units with
  | nil =>
    cases h
    refine ⟨[], ?_, .nil, ?_⟩
    · rwa [List.append_nil]
    · intro pre i post type split
      exact absurd split.symm (List.append_ne_nil_of_right_ne_nil _ (List.cons_ne_nil _ _))
  | cons i imports ih =>
    rw [List.foldlM_cons, Compile.bind_ok] at h
    obtain ⟨p', hp, h⟩ := h
    have step := hp
    unfold processImport at hp
    split at hp
    next type func =>
      obtain ⟨entity, code, found, compiled, rfl⟩ := processFuncImport_ok hp
      obtain ⟨prologue, height, prologue_eq, code_eq⟩ := trampoline_code compiled
      have name : Import.func? i = some i.name := by rw [Import.func?, func]
      have imported : Imported policy config i.name _ :=
        ⟨_, entity, prologue, height, found, prologue_eq, rfl⟩
      have next := @Laid.append p { p.declareImport type entity with
          instructionSet := code
          funcOffsets := p.funcOffsets ++ [p.instructionSet.length] } units
        ((prologue ++ trampolineBody policy config entity height).map Opcode.emission) laid
        (by rw [op_emission, code_eq]; rfl) rfl rfl
        (by rw [snippetCallsFrom_emission, List.append_nil]; rfl)
      obtain ⟨units', laid', rest, trampolines⟩ := ih next h
      rw [List.append_assoc] at laid'
      refine ⟨_, laid', ?_, trampolines.cons (some _) step (by rw [name]; rfl) ?_⟩
      · rw [List.filterMap_cons_some name]
        exact .cons imported rest
      · intro type' func'
        cases func.symm.trans func'
        refine ⟨entity, _, rfl, found, ?_⟩
        rw [op_emission]
        exact compiled.trans (congrArg Except.ok code_eq)
    next type global =>
      have skip : Import.func? i = none := by rw [Import.func?, global]
      split at hp
      · obtain ⟨units', laid', rest, trampolines⟩ := ih (laid.congr (addGlobal_alike hp)) h
        refine ⟨units', laid', ?_, trampolines.cons none step (by rw [skip]; rfl) ?_⟩
        · rwa [List.filterMap_cons_none skip]
        · intro type' func
          cases global.symm.trans func
      · cases hp
    · cases hp

/-- What is emitted for a function body behind other code: exactly what the body is translated to. -/
structure Translation (cx : Context) (func : Nat) (body : FuncBody) (before es : List Emission) : Prop where
  code : FuncBuilder.translate cx func body.locals body.operators (before.map Emission.op)
    (snippetCallsFrom 0 before) = .ok ((before ++ es).map Emission.op, snippetCallsFrom 0 (before ++ es))
  translates : FuncBuilder.Translates cx func body.locals body.operators (before.map Emission.op)
    (snippetCallsFrom 0 before) es

/-- What is emitted for the function bodies, each of them behind all the code before it. -/
def Bodies (cx : Context) (units : List (List Emission)) (functions : List FuncBody)
    (units' : List (List Emission)) : Prop :=
  units'.length = functions.length ∧ ∀ (j : Nat) (body : FuncBody) (es : List Emission),
    functions[j]? = some body → units'[j]? = some es →
      Translation cx (units.length + j) body
        ((units ++ units').take (units.length + j)).flatten es

/-- Each function body is laid out in its turn. -/
lemma Laid.bodies {functions : List FuncBody} {units : List (List Emission)} (laid : p.Laid units)
    (h : functions.foldlM (fun p => p.processCodeEntry policy config) p = .ok q) :
    ∃ units', q.Laid (units ++ units') ∧
      Bodies (p.context policy config) units functions units' := by
  induction functions generalizing p units with
  | nil =>
    cases h
    refine ⟨[], ?_, rfl, ?_⟩
    · rwa [List.append_nil]
    · intro j body es found
      cases found
  | cons body functions ih =>
    rw [List.foldlM_cons, Compile.bind_ok] at h
    obtain ⟨p', hp, h⟩ := h
    obtain ⟨⟨code, calls⟩, translated, hp⟩ := Compile.bind_ok.mp hp
    cases hp
    obtain ⟨es, translates, added, recorded⟩ := FuncBuilder.translate_adds translated
    have next := @Laid.append p { p with
        nextFunc := p.nextFunc + 1
        instructionSet := code
        funcOffsets := p.funcOffsets ++ [p.instructionSet.length]
        snippetCalls := calls } units es laid added rfl rfl recorded
    -- the code before the function is that of the units before it
    have first : Translation (p.context policy config) units.length body units.flatten es := by
      refine ⟨?_, ?_⟩
      · have code := next.code
        have calls := next.snippetCalls
        rw [List.flatten_append, List.flatten_singleton] at code calls
        rw [← laid.code, ← laid.snippetCalls, ← laid.nextFunc, ← code, ← calls]
        exact translated
      · rw [← laid.code, ← laid.snippetCalls, ← laid.nextFunc]
        exact translates
    obtain ⟨units', laid', length, rest⟩ := ih next h
    rw [List.append_assoc] at laid'
    refine ⟨_, laid', congrArg (· + 1) length, ?_⟩
    intro j body' es' hb he
    cases j with
    | zero =>
      cases hb
      cases he
      rw [Nat.add_zero, List.take_left]
      exact first
    | succ j =>
      have next := rest j body' es' hb he
      have index : (units ++ [es]).length + j = units.length + (j + 1) := by
        rw [List.length_append, List.length_singleton]
        omega
      rw [index, List.append_assoc] at next
      exact next

/-- The function bodies are translated in one context. -/
lemma processCode_context {functions : List FuncBody}
    (h : functions.foldlM (fun p => p.processCodeEntry policy config) p = .ok q) :
    q.context policy config = p.context policy config := by
  induction functions generalizing p with
  | nil =>
    cases h
    rfl
  | cons body functions ih =>
    rw [List.foldlM_cons, Compile.bind_ok] at h
    obtain ⟨p', hp, h⟩ := h
    obtain ⟨_, _, hp⟩ := Compile.bind_ok.mp hp
    cases hp
    have rest := ih h
    exact rest

/-- Tables leave the code of the functions. -/
lemma processTables_alike {tables : List TableType} : p.CodeAlike (tables.foldl processTable p) := by
  induction tables generalizing p with
  | nil => exact .refl
  | cons table tables ih =>
    have first : p.CodeAlike (p.processTable table) := ⟨rfl, rfl, rfl, rfl⟩
    exact first.trans ih

/-- The functions of a module are laid out in order, the imported ones first. -/
theorem parse_laid {wasm : WasmModule} (h : parse policy config wasm = .ok p) :
    ∃ p₀ imported bodies, ({} : ModuleParser).processTypes wasm.types = .ok p₀ ∧
      p.Laid (imported ++ bodies) ∧
      List.Forall₂ (Imported policy config) (wasm.imports.filterMap Import.func?) imported ∧
      Trampolines policy config p₀ wasm.imports imported ∧
      Bodies (p.context policy config) imported wasm.functions bodies := by
  obtain ⟨p', sections, code⟩ := Compile.bind_ok.mp h
  simp only [parseSections, Compile.bind_ok] at sections
  obtain ⟨p0, types, p1, imports, p2, memories, p3, globals, p4, elements, data⟩ := sections
  have typed := types
  obtain ⟨registry, _, types⟩ := Compile.bind_ok.mp types
  obtain ⟨_, _, elements⟩ := Compile.bind_ok.mp elements
  obtain ⟨_, _, data⟩ := Compile.bind_ok.mp data
  cases types
  have empty : Laid { funcTypeRegistry := registry } [] := ⟨rfl, rfl, rfl, rfl⟩
  obtain ⟨imported, laid, named, trampolines⟩ := empty.imports imports
  have functions : p1.CodeAlike (p1.processFunctions wasm.functions) := ⟨rfl, rfl, rfl, rfl⟩
  have tables := functions.trans (@processTables_alike _ wasm.tables)
  have memories := CodeAlike.foldlM (fun _ _ _ h => by
    obtain ⟨sb, _, rfl⟩ := processMemory_ok h
    exact ⟨rfl, rfl, rfl, rfl⟩) memories
  have globals := CodeAlike.foldlM (fun _ _ _ h => by
    obtain ⟨_, _, h⟩ := Compile.bind_ok.mp h
    exact addGlobal_alike h) globals
  have segments : p3.CodeAlike p' := by
    cases elements
    cases data
    exact ⟨rfl, rfl, rfl, rfl⟩
  have before := ((tables.trans memories).trans globals).trans segments
  obtain ⟨bodies, laid, translated⟩ := (laid.congr before).bodies code
  rw [processCode_context code]
  exact ⟨_, imported, bodies, typed, laid, named, trampolines, translated⟩

/-! ## Snippets -/

/-- Some snippets have been emitted behind the code of a parser. -/
structure Linked (p : ModuleParser) (snippets : List Snippet) (emitted : List (Snippet × Nat))
    (code : List Opcode) (q : ModuleParser) : Prop where
  lookup : ∀ s, emitted.lookup s =
    if s ∈ snippets then some (p.nextFunc + snippets.idxOf s) else none
  instructionSet : q.instructionSet = code ++ (snippets.map snippetCode).flatten
  length : code.length = p.instructionSet.length
  funcOffsets : q.funcOffsets = p.funcOffsets ++
    (List.range snippets.length).map fun k => code.length + startOf (snippets.map snippetCode) k
  nextFunc : q.nextFunc = p.nextFunc + snippets.length
  nodup : snippets.Nodup

namespace Linked

variable {snippets : List Snippet} {emitted : List (Snippet × Nat)} {code : List Opcode}
  {snippet : Snippet}

/-- Before linking nothing is linked. -/
lemma refl : p.Linked [] [] p.instructionSet p where
  lookup _ := rfl
  instructionSet := (List.append_nil _).symm
  length := rfl
  funcOffsets := (List.append_nil _).symm
  nextFunc := rfl
  nodup := .nil

/-- Both parsers may be replaced by ones with the same code. -/
lemma congr (h : q.Linked snippets emitted code r) (alike : p.CodeAlike q) :
    p.Linked snippets emitted code r where
  lookup := by rw [← alike.nextFunc]; exact h.lookup
  instructionSet := h.instructionSet
  length := by rw [h.length, alike.instructionSet]
  funcOffsets := by rw [h.funcOffsets, alike.funcOffsets]
  nextFunc := by rw [h.nextFunc, alike.nextFunc]
  nodup := h.nodup

/-- What is linked stays linked while only the entrypoint changes. -/
lemma grows (h : p.Linked snippets emitted code q) (alike : q.CodeAlike r) :
    p.Linked snippets emitted code r where
  lookup := h.lookup
  instructionSet := by rw [alike.instructionSet, h.instructionSet]
  length := h.length
  funcOffsets := by rw [alike.funcOffsets, h.funcOffsets]
  nextFunc := by rw [alike.nextFunc, h.nextFunc]
  nodup := h.nodup

/-- The function of a snippet is the one emitted for its first call. -/
lemma snippetFunc (h : p.Linked snippets emitted code q) :
    ∃ snippets', snippets <+: snippets' ∧ (∀ s, s ∈ snippets' ↔ s ∈ snippets ∨ s = snippet) ∧
      (q.snippetFunc emitted snippet).1 = p.nextFunc + snippets'.idxOf snippet ∧
      p.Linked snippets' (q.snippetFunc emitted snippet).2.1 code
        (q.snippetFunc emitted snippet).2.2 := by
  unfold ModuleParser.snippetFunc
  have found := h.lookup snippet
  by_cases mem : snippet ∈ snippets
  · rw [if_pos mem] at found
    rw [found]
    refine ⟨snippets, List.prefix_refl _, fun s => ?_, rfl, h⟩
    refine ⟨.inl, ?_⟩
    rintro (known | rfl)
    · exact known
    · exact mem
  · rw [if_neg mem] at found
    rw [found]
    have last : (snippets ++ [snippet]).idxOf snippet = snippets.length := by
      rw [List.idxOf_append_of_notMem mem]
      simp
    refine ⟨snippets ++ [snippet], List.prefix_append _ _, fun s => ?_, ?_, ?_⟩
    · rw [List.mem_append, List.mem_singleton]
    · rw [last]
      exact h.nextFunc
    · refine ⟨?_, ?_, h.length, ?_, ?_, ?_⟩
      · intro s
        by_cases same : s = snippet
        · subst same
          rw [List.lookup_cons_self, if_pos (List.mem_append_right _ (.head _)), last, h.nextFunc]
        · rw [List.lookup_cons, beq_eq_false_iff_ne.mpr same, h.lookup s]
          by_cases known : s ∈ snippets
          · rw [if_pos known, if_pos (List.mem_append_left _ known), List.idxOf_append_of_mem known]
          · have unknown : s ∉ snippets ++ [snippet] := by
              rw [List.mem_append, List.mem_singleton]
              exact not_or.mpr ⟨known, same⟩
            rw [if_neg known, if_neg unknown]
      · dsimp only
        rw [h.instructionSet, List.map_append, List.flatten_append, List.append_assoc,
          List.map_singleton, List.flatten_singleton]
      · dsimp only
        have offset : ∀ k ≤ snippets.length,
            startOf ((snippets ++ [snippet]).map snippetCode) k = startOf (snippets.map snippetCode) k := by
          intro k le
          rw [List.map_append, startOf_append (by rwa [List.length_map])]
        have whole : startOf (snippets.map snippetCode) snippets.length =
            (snippets.map snippetCode).flatten.length := by
          rw [← startOf_length, List.length_map]
        rw [h.funcOffsets, h.instructionSet, List.length_append, List.length_append,
          List.length_singleton, List.range_succ, List.map_append, List.map_singleton,
          offset _ (Nat.le_refl _), whole, List.append_assoc]
        refine congrArg (fun offsets => p.funcOffsets ++ (offsets ++ _)) ?_
        refine List.map_congr_left fun k mem => ?_
        rw [offset k (Nat.le_of_lt (List.mem_range.mp mem))]
      · dsimp only
        rw [h.nextFunc, List.length_append]
        rfl
      · exact List.nodup_append.mpr ⟨h.nodup, List.nodup_singleton _, by
          rintro a ha b hb rfl
          rw [List.mem_singleton.mp hb] at ha
          exact mem ha⟩

/-- A call that is patched in the linked code. -/
lemma set {loc : Nat} {op : Opcode} (h : p.Linked snippets emitted code q) (lt : loc < code.length) :
    p.Linked snippets emitted (code.set loc op)
      { q with instructionSet := q.instructionSet.set loc op } where
  lookup := h.lookup
  instructionSet := by
    dsimp only
    rw [h.instructionSet, List.set_append_left _ _ lt]
  length := by rw [List.length_set, h.length]
  funcOffsets := by rw [List.length_set, h.funcOffsets]
  nextFunc := h.nextFunc
  nodup := h.nodup

/-- Linking calls emits the functions of their snippets, and puts their numbers into the calls. -/
lemma linkSnippets {calls : List SnippetCall} (h : p.Linked snippets emitted code q)
    (inside : ∀ call ∈ calls, call.loc < code.length)
    (linked : ModuleParser.linkSnippets calls emitted q = .ok r) :
    ∃ snippets' emitted', snippets <+: snippets' ∧
      (∀ s, s ∈ snippets' ↔ s ∈ snippets ∨ ∃ call ∈ calls, call.snippet = s) ∧ p.Linked snippets' emitted' (calls.foldl (fun code call =>
        code.set call.loc (callInternal (p.nextFunc + snippets'.idxOf call.snippet + 1))) code) r := by
  induction calls generalizing snippets emitted code q with
  | nil =>
    cases linked
    refine ⟨snippets, emitted, List.prefix_refl _, fun s => ⟨.inl, ?_⟩, h⟩
    rintro (known | ⟨call, mem, -⟩)
    · exact known
    · cases mem
  | cons call calls ih =>
    obtain ⟨snippets₁, before, known₁, func, h₁⟩ := @snippetFunc _ _ _ _ _ call.snippet h
    simp only [ModuleParser.linkSnippets] at linked
    split at linked
    · split at linked
      · have lt : call.loc < code.length := inside call (.head _)
        rw [func] at linked
        obtain ⟨snippets', emitted', extends_, known, done⟩ :=
          ih (h₁.set lt) (fun call mem => by rw [List.length_set]; exact inside call (.tail _ mem)) linked
        -- the function is numbered once and for all
        have number : snippets'.idxOf call.snippet = snippets₁.idxOf call.snippet := by
          obtain ⟨more, rfl⟩ := extends_
          exact List.idxOf_append_of_mem ((known₁ _).mpr (.inr rfl))
        refine ⟨snippets', emitted', before.trans extends_, fun s => ?_, ?_⟩
        · rw [known, known₁, List.exists_mem_cons_iff, or_assoc, eq_comm (a := s)]
        · rw [List.foldl_cons, number]
          exact done
      · cases linked
    · cases linked

end Linked

/-- The call of a snippet is made a call of the function with its number. -/
def linkCall (number : Snippet → Nat) (e : Emission) (op : Opcode) : Opcode :=
  match e.snippet? with
  | some s => callInternal (number s + 1)
  | none => op

/-- Patching the calls one by one patches each emission at its own place. -/
lemma foldl_calls {number : Snippet → Nat} {es : List Emission} {pre code : List Opcode}
    (length : code.length = es.length) :
    (snippetCallsFrom pre.length es).foldl (fun code call =>
        code.set call.loc (callInternal (number call.snippet + 1))) (pre ++ code) =
      pre ++ List.zipWith (linkCall number) es code := by
  induction es generalizing pre code with
  | nil =>
    rw [List.length_nil, List.length_eq_zero_iff] at length
    rw [length]
    rfl
  | cons e es ih =>
    obtain ⟨op, code, rfl⟩ := List.exists_cons_of_length_eq_add_one length
    have length : code.length = es.length := Nat.succ.inj length
    rw [snippetCallsFrom, List.foldl_append, List.zipWith_cons_cons]
    have first : ((e.snippet?.map (SnippetCall.mk pre.length)).toList).foldl (fun code call =>
        code.set call.loc (callInternal (number call.snippet + 1))) (pre ++ op :: code) =
          (pre ++ [linkCall number e op]) ++ code := by
      unfold linkCall
      cases e.snippet? with
      | none => simp
      | some s =>
        simp [List.set_append_right]
    have rest := @ih (pre ++ [linkCall number e op]) code length
    rw [List.length_append, List.length_singleton] at rest
    rw [first, rest, List.append_assoc]
    rfl

/-- Emissions without snippets have no snippet calls. -/
lemma snippetCallsFrom_nil {loc : Nat} {es : List Emission} (none : ∀ e ∈ es, e.snippet? = none) :
    snippetCallsFrom loc es = [] := by
  induction es generalizing loc with
  | nil => rfl
  | cons e es ih =>
    rw [snippetCallsFrom, none e (.head _), ih fun e mem => none e (.tail _ mem)]
    rfl

/-- A snippet call lies inside the emissions it comes from. -/
lemma snippetCallsFrom_lt {loc : Nat} {es : List Emission} :
    ∀ call ∈ snippetCallsFrom loc es, call.loc < loc + es.length := by
  induction es generalizing loc with
  | nil => nofun
  | cons e es ih =>
    intro call mem
    rw [List.length_cons]
    rcases List.mem_append.mp mem with mem | mem
    · obtain ⟨s, -, rfl⟩ := Option.map_eq_some_iff.mp (Option.mem_toList.mp mem)
      show loc < _
      omega
    · have lt := ih call mem
      omega

/-- A snippet is called exactly when an emission stands for it. -/
lemma mem_snippetCallsFrom {loc : Nat} {es : List Emission} {s : Snippet} :
    (∃ call ∈ snippetCallsFrom loc es, call.snippet = s) ↔ ∃ e ∈ es, e.snippet? = some s := by
  induction es generalizing loc with
  | nil =>
    rw [snippetCallsFrom]
    simp
  | cons e es ih =>
    rw [List.exists_mem_cons_iff, ← @ih (loc + 1), snippetCallsFrom]
    constructor
    · rintro ⟨call, mem, rfl⟩
      rcases List.mem_append.mp mem with mem | mem
      · obtain ⟨s, called, rfl⟩ := Option.map_eq_some_iff.mp (Option.mem_toList.mp mem)
        exact .inl called
      · exact .inr ⟨call, mem, rfl⟩
    · rintro (called | ⟨call, mem, rfl⟩)
      · refine ⟨⟨loc, s⟩, List.mem_append_left _ ?_, rfl⟩
        rw [called]
        exact .head _
      · exact ⟨call, List.mem_append_right _ mem, rfl⟩

/-- The snippets that are called are emitted, and their calls linked. -/
lemma emitSnippets_linked {units : List (List Emission)} (laid : p.Laid units)
    (off : config.codeSnippets = false → ∀ e ∈ units.flatten, e.snippet? = none)
    (h : p.emitSnippets config = .ok q) :
    ∃ snippets emitted, (∀ s, s ∈ snippets ↔ ∃ e ∈ units.flatten, e.snippet? = some s) ∧
      p.Linked snippets emitted
        (List.zipWith (linkCall fun s => p.nextFunc + snippets.idxOf s) units.flatten p.instructionSet) q := by
  have linked : linkSnippets p.snippetCalls [] p = .ok q := by
    unfold emitSnippets at h
    split at h
    · exact h
    next on =>
      cases h
      rw [laid.snippetCalls, snippetCallsFrom_nil (off (Bool.eq_false_iff.mpr on))]
      rfl
  obtain ⟨snippets, emitted, -, known, done⟩ := Linked.refl.linkSnippets (by
    rw [laid.snippetCalls]
    intro call mem
    have lt := snippetCallsFrom_lt call mem
    rwa [Nat.zero_add, ← laid.length] at lt) linked
  refine ⟨snippets, emitted, fun s => ?_, ?_⟩
  · rw [known, laid.snippetCalls, mem_snippetCallsFrom]
    exact ⟨fun called => called.resolve_left List.not_mem_nil, .inr⟩
  · have folded := @foldl_calls (fun s => p.nextFunc + snippets.idxOf s) units.flatten [] _ laid.length
    rw [List.length_nil, ← laid.snippetCalls] at folded
    rw [List.nil_append, List.nil_append] at folded
    rwa [folded] at done

end ModuleParser

end Rwasm
