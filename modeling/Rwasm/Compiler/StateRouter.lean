import Rwasm.Compiler.Instantiation
import Rwasm.Isa.Limbs
import Rwasm.Isa.StackMachine
import Rwasm.Vm.Bounds

/-!
# The state router

The dispatch between entry points (`emit_state_router`). For each listed function the router compares the
state on top of the stack with the function's tag and, where they are equal, drops the state and calls the
function in tail position. Behind the last comparison it drops the state and returns. A comparison takes
two slots above the stack, and the router checks for none.
-/

namespace Rwasm

open Opcode UntypedValue

/-! ## Routes -/

/-- The routes of a list of states: a state whose function is not exported has none. -/
def routesOf (exported : List (String × Nat)) (states : List (String × UntypedValue)) :
    List (Nat × UntypedValue) :=
  states.filterMap fun state => (exported.lookup state.1).map fun func => (func, state.2)

/-- The routes of a module. -/
def WasmModule.routes (wasm : WasmModule) (states : List (String × UntypedValue)) :
    List (Nat × UntypedValue) :=
  routesOf wasm.exports.reverse states

/-- The first route with a tag. -/
def routeTo (routes : List (Nat × UntypedValue)) (s : UntypedValue) : Option Nat :=
  (routes.find? fun route => route.2 = s).map Prod.fst

/-- The first route is taken when its state is the one asked for. -/
lemma routeTo_same {func : Nat} {tag s : UntypedValue} {routes : List (Nat × UntypedValue)}
    (h : tag = s) : routeTo ((func, tag) :: routes) s = some func := by
  rw [routeTo, List.find?_cons_of_pos (by exact decide_eq_true h)]
  rfl

/-- Otherwise the routes behind it decide. -/
lemma routeTo_other {func : Nat} {tag s : UntypedValue} {routes : List (Nat × UntypedValue)}
    (h : tag ≠ s) : routeTo ((func, tag) :: routes) s = routeTo routes s := by
  rw [routeTo, List.find?_cons_of_neg (by exact fun same => h (of_decide_eq_true same))]
  rfl

/-- The code of a route. -/
def routeCode (route : Nat × UntypedValue) : List Opcode :=
  [localGet 1, i32Const route.2, i32Eq, brIfEqz 3, drop, returnCallInternal (route.1 + 1)]

/-- The code of a router. -/
def routerCode (opcode : Option Opcode) (routes : List (Nat × UntypedValue)) : List Opcode :=
  opcode.toList ++ (routes.flatMap routeCode ++ [drop, ret])

/-! ## Running the router -/

section Run

variable {T : Type} {m : RwasmModule} {host : Host T} {lo hi p cap : Nat} {calls : List Nat}
  {store : Store T} {addr : Nat → Nat} {s : UntypedValue} {below : List UntypedValue}
  {func : Nat} {tag : UntypedValue} {routes : List (Nat × UntypedValue)}

/-- The comparison of a route. -/
lemma route_compares (at' : CodeAt m.codeSection p ((routeCode (func, tag)).map (Opcode.relocated addr)))
    (low : lo ≤ p) (high : p + 6 ≤ hi) (room : below.length + 3 ≤ cap) {e : Executor T}
    (rest : (boundedWithin m host lo hi).Steps
      ⟨ofBool (s == tag) :: s :: below, cap, calls, p + 3, store⟩ e) :
    (boundedWithin m host lo hi).Steps ⟨s :: below, cap, calls, p, store⟩ e := by
  obtain ⟨get, const, eq, -⟩ := at'
  have inside : ∀ k < 6, lo ≤ p + k ∧ p + k < hi := fun k lt => by omega
  have two : below.length + 2 ≤ cap := by omega
  refine boundedWithin_next (inside 0 (by decide)) get (step_onStack rfl) two ?_
  refine boundedWithin_next (inside 1 (by decide)) const (step_onStack rfl) room ?_
  exact boundedWithin_next (inside 2 (by decide)) eq (step_onStack rfl) two rest

/-- Without two slots above the stack, a route is not compared. -/
lemma route_cramped (at' : CodeAt m.codeSection p ((routeCode (func, tag)).map (Opcode.relocated addr)))
    (low : lo ≤ p) (high : p + 6 ≤ hi) (cramped : ¬ below.length + 3 ≤ cap) {e : Executor T}
    (st : (boundedWithin m host lo hi).Steps ⟨s :: below, cap, calls, p, store⟩ e) :
    lo ≤ e.ip ∧ e.ip < p + 2 := by
  obtain ⟨get, const, -⟩ := at'
  have inside : ∀ k < 6, lo ≤ p + k ∧ p + k < hi := fun k lt => by omega
  have copied : (⟨s :: below, cap, calls, p, store⟩ : Executor T).step m host (localGet 1) =
      .next ⟨s :: s :: below, cap, calls, p + 1, store⟩ := step_onStack rfl
  have pushed : (⟨s :: s :: below, cap, calls, p + 1, store⟩ : Executor T).step m host (i32Const tag) =
      .next ⟨tag :: s :: s :: below, cap, calls, p + 2, store⟩ := step_onStack rfl
  rcases st.cases with rfl | ⟨e₁, step, st⟩
  · exact ⟨low, Nat.lt_add_of_pos_right (by decide)⟩
  · obtain ⟨-, step⟩ := Machine.within_step_iff.mp step
    have same := (vm_step get).trans copied
    rw [(boundedVm_next step).1] at same
    cases same
    rcases st.cases with rfl | ⟨e₂, step, -⟩
    · exact ⟨Nat.le_succ_of_le low, Nat.lt_succ_self _⟩
    · obtain ⟨-, step⟩ := Machine.within_step_iff.mp step
      have same := (vm_step const).trans pushed
      obtain ⟨step, fits⟩ := boundedVm_next step
      rw [step] at same
      cases same
      exact absurd fits cramped

/-- A route with the tag enters its function, without the state. -/
lemma route_taken (at' : CodeAt m.codeSection p ((routeCode (func, tag)).map (Opcode.relocated addr)))
    (low : lo ≤ p) (high : p + 6 ≤ hi) (room : below.length + 3 ≤ cap) (same : tag = s) :
    (boundedWithin m host lo hi).Steps ⟨s :: below, cap, calls, p, store⟩
      ⟨below, cap, calls, addr (func + 1), store⟩ := by
  refine route_compares at' low high room ?_
  obtain ⟨-, -, -, branch, drops, call, -⟩ := at'
  have inside : ∀ k < 6, lo ≤ p + k ∧ p + k < hi := fun k lt => by omega
  have none : below.length ≤ cap := by omega
  have one : below.length + 1 ≤ cap := by omega
  have passes : (⟨ofBool (s == tag) :: s :: below, cap, calls, p + 3, store⟩ : Executor T).step m host
      (brIfEqz 3) = .next ⟨s :: below, cap, calls, p + 4, store⟩ := by
    rw [same, beq_self_eq_true]
    rfl
  refine boundedWithin_next (inside 3 (by decide)) branch passes one ?_
  refine boundedWithin_next (inside 4 (by decide)) drops (step_onStack rfl) none ?_
  exact boundedWithin_next (inside 5 (by decide)) call rfl none .refl

/-- A route with another tag is skipped. -/
lemma route_skipped (at' : CodeAt m.codeSection p ((routeCode (func, tag)).map (Opcode.relocated addr)))
    (low : lo ≤ p) (high : p + 6 ≤ hi) (room : below.length + 3 ≤ cap) (other : tag ≠ s) :
    (boundedWithin m host lo hi).Steps ⟨s :: below, cap, calls, p, store⟩
      ⟨s :: below, cap, calls, p + 6, store⟩ := by
  refine route_compares at' low high room ?_
  obtain ⟨-, -, -, branch, -⟩ := at'
  have jumps : (⟨ofBool (s == tag) :: s :: below, cap, calls, p + 3, store⟩ : Executor T).step m host
      (brIfEqz 3) = .next ⟨s :: below, cap, calls, p + 6, store⟩ := by
    rw [beq_eq_false_iff_ne.mpr (Ne.symm other)]
    exact Executor.jump_forward 3
  have inside : lo ≤ p + 3 ∧ p + 3 < hi := by omega
  have one : below.length + 1 ≤ cap := by omega
  exact boundedWithin_next inside branch jumps one .refl

/-- The slots that routes take above the state and the stack below it. -/
def routeSlots (routes : List (Nat × UntypedValue)) : Nat :=
  if routes = [] then 0 else 2

/-- The routes enter the first function with the tag, and drop the state where there is none. -/
theorem routes_run
    (at' : CodeAt m.codeSection p ((routes.flatMap routeCode ++ [drop, ret]).map
      (Opcode.relocated addr)))
    (low : lo ≤ p) (high : p + (routes.flatMap routeCode ++ [drop, ret]).length = hi)
    (room : below.length + 1 + routeSlots routes ≤ cap) :
    (boundedWithin m host lo hi).Steps ⟨s :: below, cap, calls, p, store⟩
      ⟨below, cap, calls, match routeTo routes s with
        | some func => addr (func + 1)
        | none => hi - 1, store⟩ := by
  induction routes generalizing p with
  | nil =>
    have last : hi - 1 = p + 1 := by
      rw [← high]
      rfl
    have inside : p < hi := by
      rw [← high]
      exact Nat.lt_add_of_pos_right (Nat.succ_pos _)
    have fits : below.length ≤ cap := by
      rw [routeSlots, if_pos rfl] at room
      omega
    show (boundedWithin m host lo hi).Steps _ ⟨below, cap, calls, hi - 1, store⟩
    rw [last]
    exact boundedWithin_next ⟨low, inside⟩ at'.1 (step_onStack rfl) fits .refl
  | cons route routes ih =>
    obtain ⟨func, tag⟩ := route
    rw [List.flatMap_cons, List.append_assoc, List.map_append, CodeAt.append_iff] at at'
    rw [List.flatMap_cons, List.append_assoc, List.length_append, ← Nat.add_assoc] at high
    have fits : p + 6 ≤ hi := high ▸ Nat.le_add_right _ _
    rw [routeSlots, if_neg (List.cons_ne_nil _ _)] at room
    by_cases same : tag = s
    · rw [routeTo_same same]
      exact route_taken at'.1 low fits room same
    · rw [routeTo_other same]
      refine (route_skipped at'.1 low fits room same).trans (ih at'.2 (by omega) high ?_)
      unfold routeSlots
      split <;> omega

end Run

/-! ## Intrinsic imports -/

/-- The imported functions, which are numbered first. -/
def Import.func? (i : Import) : Option ImportName :=
  match i.type with
  | .func _ => some i.name
  | _ => none

/-- What replaces the calls of a function, given the names of the imported ones. -/
def CompilationConfig.replacement (config : CompilationConfig) (imported : List ImportName)
    (func : Nat) : Option Intrinsic := do
  let name ← imported[func]?
  let entity ← config.importLinker.bind fun linker => linker.resolveByImportName name
  entity.intrinsic

/-- What replaces the calls of a function of a module. -/
def WasmModule.replacement (wasm : WasmModule) (config : CompilationConfig) (func : Nat) :
    Option Intrinsic :=
  config.replacement (wasm.imports.filterMap Import.func?) func

namespace ModuleParser

variable {policy : FuelPolicy} {config : CompilationConfig} {p q r : ModuleParser}

/-- Both parsers call functions alike: they know the same exports, the same intrinsics and the same types. -/
structure CallsAlike (p q : ModuleParser) : Prop where
  exportedFuncs : q.exportedFuncs = p.exportedFuncs
  intrinsics : q.intrinsics = p.intrinsics
  funcTypeRegistry : q.funcTypeRegistry = p.funcTypeRegistry
  compiledFuncs : q.compiledFuncs = p.compiledFuncs

namespace CallsAlike

/-- A parser calls functions as it does. -/
lemma refl : p.CallsAlike p := ⟨rfl, rfl, rfl, rfl⟩

/-- Three parsers that call alike. -/
lemma trans (h : p.CallsAlike q) (h' : q.CallsAlike r) : p.CallsAlike r :=
  ⟨h'.exportedFuncs.trans h.exportedFuncs, h'.intrinsics.trans h.intrinsics,
    h'.funcTypeRegistry.trans h.funcTypeRegistry, h'.compiledFuncs.trans h.compiledFuncs⟩

/-- A section none of whose entries touches the calls. -/
lemma foldlM {α : Type} {f : ModuleParser → α → Compile ModuleParser} {as : List α}
    (step : ∀ p a q, f p a = .ok q → p.CallsAlike q) (h : as.foldlM f p = .ok q) :
    p.CallsAlike q := by
  induction as generalizing p with
  | nil =>
    cases h
    exact .refl
  | cons a as ih =>
    rw [List.foldlM_cons, Compile.bind_ok] at h
    obtain ⟨p', hp, h⟩ := h
    exact (step p a p' hp).trans (ih h)

end CallsAlike

/-- The imported functions are looked up in order, and only their intrinsics are kept. -/
lemma processImports_calls {imports : List Import} {names : List ImportName}
    (h : imports.foldlM (fun p => p.processImport policy config) p = .ok q)
    (count : p.nextFunc = names.length)
    (known : ∀ x ∈ p.intrinsics, config.replacement names x.1 = some x.2) :
    q.exportedFuncs = p.exportedFuncs ∧ ∀ x ∈ q.intrinsics,
      config.replacement (names ++ imports.filterMap Import.func?) x.1 = some x.2 := by
  induction imports generalizing p names with
  | nil =>
    cases h
    rw [List.filterMap_nil, List.append_nil]
    exact ⟨rfl, known⟩
  | cons i imports ih =>
    rw [List.foldlM_cons, Compile.bind_ok] at h
    obtain ⟨p', hp, h⟩ := h
    unfold processImport at hp
    split at hp
    next type func =>
      obtain ⟨entity, code, found, _, rfl⟩ := processFuncImport_ok hp
      have name : Import.func? i = some i.name := by rw [Import.func?, func]
      rw [List.filterMap_cons_some name, List.append_cons]
      have rest := @ih _ (names ++ [i.name]) h
      refine rest ?_ ?_
      · rw [List.length_append, ← count]
        rfl
      · intro x mem
        rcases List.mem_append.mp mem with mem | mem
        · have old := known x mem
          obtain ⟨name, hn, old⟩ := Option.bind_eq_some_iff.mp old
          exact Option.bind_eq_some_iff.mpr ⟨name, List.getElem?_append_left
            (List.getElem?_eq_some_iff.mp hn).1 |>.trans hn, old⟩
        · -- The new intrinsic is that of the function imported now.
          obtain ⟨intrinsic, hi, rfl⟩ := List.mem_map.mp mem
          refine Option.bind_eq_some_iff.mpr ⟨i.name, ?_, ?_⟩
          · rw [count, List.getElem?_append_right (Nat.le_refl _), Nat.sub_self]
            rfl
          · exact Option.bind_eq_some_iff.mpr ⟨entity, found, Option.mem_toList.mp hi⟩
    next type global =>
      have name : Import.func? i = none := by rw [Import.func?, global]
      rw [List.filterMap_cons_none name]
      split at hp
      · unfold addGlobal at hp
        split at hp
        · cases hp
          have rest := @ih _ names h
          exact rest count known
        · cases hp
      · cases hp
    · cases hp

/-- The section of tables leaves the calls. -/
lemma processTables_calls {tables : List TableType} : p.CallsAlike (tables.foldl processTable p) := by
  induction tables generalizing p with
  | nil => exact .refl
  | cons table tables ih =>
    have first : p.CallsAlike (p.processTable table) := ⟨rfl, rfl, rfl, rfl⟩
    exact first.trans ih

/-- A global leaves the calls. -/
lemma processGlobal_calls {global : Global} (h : p.processGlobal global = .ok q) : p.CallsAlike q := by
  obtain ⟨_, _, h⟩ := Compile.bind_ok.mp h
  unfold addGlobal at h
  split at h
  · cases h
    exact ⟨rfl, rfl, rfl, rfl⟩
  · cases h

/-- The sections behind the imports add their exports and the types of the functions. -/
lemma parse_alike {wasm : WasmModule} (h : parse policy config wasm = .ok p) :
    ∃ p₀ p₁, ({} : ModuleParser).processTypes wasm.types = .ok p₀ ∧
      wasm.imports.foldlM (fun p => p.processImport policy config) p₀ = .ok p₁ ∧
      p.exportedFuncs = wasm.exports.reverse ++ p₁.exportedFuncs ∧ p.intrinsics = p₁.intrinsics ∧
      p.funcTypeRegistry = p₁.funcTypeRegistry ∧
      p.compiledFuncs = p₁.compiledFuncs ++ wasm.functions.map FuncBody.type := by
  obtain ⟨p', sections, bodies⟩ := Compile.bind_ok.mp h
  simp only [parseSections, Compile.bind_ok] at sections
  obtain ⟨p₀, types, p₁, imports, p₂, memories, p₃, globals, p₄, elements, data⟩ := sections
  have tables := @processTables_calls (p₁.processFunctions wasm.functions) wasm.tables
  have memories := CallsAlike.foldlM (fun _ _ _ h => by
    obtain ⟨sb, _, rfl⟩ := processMemory_ok h
    exact ⟨rfl, rfl, rfl, rfl⟩) memories
  have globals := CallsAlike.foldlM (fun _ _ _ => processGlobal_calls) globals
  have bodies := CallsAlike.foldlM (fun _ _ _ h => by
    obtain ⟨_, _, h⟩ := Compile.bind_ok.mp h
    cases h
    exact ⟨rfl, rfl, rfl, rfl⟩) bodies
  have before := (tables.trans memories).trans globals
  obtain ⟨_, _, elements⟩ := Compile.bind_ok.mp elements
  obtain ⟨_, _, data⟩ := Compile.bind_ok.mp data
  cases elements
  cases data
  refine ⟨p₀, p₁, types, imports, ?_, ?_, ?_, ?_⟩
  · rw [bodies.exportedFuncs]
    exact congrArg (wasm.exports.reverse ++ ·) before.exportedFuncs
  · exact bodies.intrinsics.trans before.intrinsics
  · exact bodies.funcTypeRegistry.trans before.funcTypeRegistry
  · exact bodies.compiledFuncs.trans before.compiledFuncs

/-- The parser knows the exports of the module, and the intrinsics of its imports. -/
theorem parse_calls {wasm : WasmModule} (h : parse policy config wasm = .ok p) :
    p.exportedFuncs = wasm.exports.reverse ∧
      ∀ x ∈ p.intrinsics, wasm.replacement config x.1 = some x.2 := by
  obtain ⟨p₀, p₁, types, imports, exports, intrinsics, -⟩ := parse_alike h
  obtain ⟨_, _, types⟩ := Compile.bind_ok.mp types
  cases types
  obtain ⟨none, known⟩ := @processImports_calls _ _ _ _ _ [] imports rfl
    fun _ mem => absurd mem List.not_mem_nil
  constructor
  · rw [exports, none]
    exact List.append_nil _
  · rw [intrinsics]
    exact known

/-- A function that is not an intrinsic import is called. -/
lemma intrinsic_eq_none {wasm : WasmModule} {func : Nat}
    (known : ∀ x ∈ p.intrinsics, wasm.replacement config x.1 = some x.2)
    (plain : wasm.replacement config func = none) :
    (p.context policy config).intrinsic func = none := by
  rw [Context.intrinsic, Option.map_eq_none_iff, List.find?_eq_none]
  intro x mem same
  have replaced := known x mem
  rw [of_decide_eq_true same, plain] at replaced
  cases replaced

/-! ## The code of the router -/

/-- Emitting nothing at the entrypoint. -/
lemma emitEntrypoint_nil : p.emitEntrypoint [] = p := by
  rw [emitEntrypoint, SegmentBuilder.emit, List.append_nil]

/-- Emitting twice at the entrypoint. -/
lemma emitEntrypoint_append {ops ops' : List Opcode} :
    (p.emitEntrypoint ops).emitEntrypoint ops' = p.emitEntrypoint (ops ++ ops') := by
  simp only [emitEntrypoint, SegmentBuilder.emit, List.append_assoc]

/-- A call of a function that is no intrinsic is one instruction. -/
lemma emitEntrypointCall_eq {func : Nat} {isReturnCall : Bool}
    (plain : (p.context policy config).intrinsic func = none)
    (h : p.emitEntrypointCall policy config func isReturnCall = .ok q) :
    q = p.emitEntrypoint
      [if isReturnCall then returnCallInternal (func + 1) else callInternal (func + 1)] := by
  obtain ⟨ops, emitted, h⟩ := Compile.bind_ok.mp h
  simp only [Context.emitFunctionCall, plain, Compile.bind_ok] at emitted
  obtain ⟨_, _, _, _, emitted⟩ := emitted
  cases emitted
  cases h
  rfl

/-- A state emits the code of its route. -/
lemma emitState_eq {state : String × UntypedValue}
    (plain : ∀ route ∈ routesOf p.exportedFuncs [state],
      (p.context policy config).intrinsic route.1 = none)
    (h : p.emitState policy config state = .ok q) :
    q = p.emitEntrypoint ((routesOf p.exportedFuncs [state]).flatMap routeCode) := by
  unfold emitState at h
  split at h
  next missing =>
    have skipped : routesOf p.exportedFuncs [state] = [] :=
      List.filterMap_cons_none (by rw [missing]; rfl)
    cases h
    rw [skipped, List.flatMap_nil, emitEntrypoint_nil]
  next func found =>
    have routed : routesOf p.exportedFuncs [state] = [(func, state.2)] :=
      List.filterMap_cons_some (by rw [found]; rfl)
    rw [routed] at plain ⊢
    simp only [Compile.bind_ok] at h
    obtain ⟨type, _, funcType, _, h⟩ := h
    split at h
    · cases h
    · have compared := emitEntrypointCall_eq
        (p := p.emitEntrypoint [localGet 1, i32Const state.2, i32Eq, brIfEqz 3, drop])
        (plain (func, state.2) (List.mem_singleton_self _)) h
      rw [compared, emitEntrypoint_append]
      rfl

/-- The states emit the code of their routes. -/
lemma emitStates_eq {states : List (String × UntypedValue)}
    (plain : ∀ route ∈ routesOf p.exportedFuncs states,
      (p.context policy config).intrinsic route.1 = none)
    (h : states.foldlM (emitState policy config) p = .ok q) :
    q = p.emitEntrypoint ((routesOf p.exportedFuncs states).flatMap routeCode) := by
  induction states generalizing p with
  | nil =>
    cases h
    exact emitEntrypoint_nil.symm
  | cons state states ih =>
    have split_ : routesOf p.exportedFuncs (state :: states) =
        routesOf p.exportedFuncs [state] ++ routesOf p.exportedFuncs states :=
      List.filterMap_append (l := [state])
    rw [List.foldlM_cons, Compile.bind_ok] at h
    obtain ⟨p', hp, h⟩ := h
    rw [split_] at plain ⊢
    obtain rfl := emitState_eq (fun route mem => plain route (List.mem_append_left _ mem)) hp
    have rest := ih (p := p.emitEntrypoint ((routesOf p.exportedFuncs [state]).flatMap routeCode))
      (fun route mem => plain route (List.mem_append_right _ mem)) h
    rw [rest, emitEntrypoint_append, List.flatMap_append]
    rfl

/-- The code of a router ends in a return, which `finalize` adds. -/
lemma emitStateRouter_eq {router : StateRouterConfig} (routed : config.stateRouter = some router)
    (plain : ∀ route ∈ routesOf p.exportedFuncs router.states,
      (p.context policy config).intrinsic route.1 = none)
    (h : p.emitStateRouter policy config = .ok q) :
    withReturn q.segmentBuilder.entrypointBytecode = p.segmentBuilder.entrypointBytecode ++
      routerCode router.opcode (routesOf p.exportedFuncs router.states) := by
  simp only [emitStateRouter, routed, Compile.bind_ok] at h
  obtain ⟨p', hp, h⟩ := h
  cases h
  have states := emitStates_eq (p := p.emitEntrypoint router.opcode.toList) plain hp
  rw [states, emitEntrypoint_append, emitEntrypoint_append]
  show withReturn (_ ++ (_ ++ (_ ++ [drop]))) = _
  rw [← List.append_assoc, ← List.append_assoc, withReturn, isReturnLast, List.getLast?_concat]
  simp only [Bool.false_eq_true, if_false, List.append_assoc]
  rfl

/-! ## What stands in front of it -/

/-- A call at the entrypoint leaves the calls. -/
lemma emitEntrypointCall_calls {func : Nat} {isReturnCall : Bool}
    (h : p.emitEntrypointCall policy config func isReturnCall = .ok q) : p.CallsAlike q := by
  obtain ⟨ops, _, h⟩ := Compile.bind_ok.mp h
  cases h
  exact ⟨rfl, rfl, rfl, rfl⟩

/-- The call of the start function leaves the calls. -/
lemma emitStart_calls (h : p.emitStart policy config = .ok q) : p.CallsAlike q := by
  unfold emitStart at h
  split at h
  · split at h
    · exact emitEntrypointCall_calls h
    · cases h
  · cases h
    exact .refl

/-- The main call leaves the calls. -/
lemma emitMain_calls (h : p.emitMain policy config = .ok q) : p.CallsAlike q := by
  unfold emitMain at h
  split at h
  · split at h
    · exact emitEntrypointCall_calls h
    · cases h
  · split at h
    · cases h
    · cases h
      exact .refl

/-- Without a name there is no call in front of the router. -/
lemma emitMain_none (unnamed : config.entrypointName = none) (h : p.emitMain policy config = .ok q) :
    q = p := by
  simp only [emitMain, unnamed] at h
  split at h
  · cases h
  · cases h
    rfl

/-- Linking a snippet leaves the calls. -/
lemma snippetFunc_calls {emitted : List (Snippet × Nat)} {snippet : Snippet} :
    p.CallsAlike (p.snippetFunc emitted snippet).2.2 := by
  unfold snippetFunc
  split <;> exact ⟨rfl, rfl, rfl, rfl⟩

/-- Linking all snippets leaves the calls. -/
lemma linkSnippets_calls {calls : List SnippetCall} {emitted : List (Snippet × Nat)}
    (h : linkSnippets calls emitted p = .ok q) : p.CallsAlike q := by
  induction calls generalizing emitted p with
  | nil =>
    cases h
    exact .refl
  | cons call calls ih =>
    simp only [linkSnippets] at h
    split at h
    · split at h
      · have rest := ih h
        exact snippetFunc_calls.trans
          ⟨rest.exportedFuncs, rest.intrinsics, rest.funcTypeRegistry, rest.compiledFuncs⟩
      · cases h
    · cases h

/-- The snippets leave the calls. -/
lemma emitSnippets_calls (h : p.emitSnippets config = .ok q) : p.CallsAlike q := by
  unfold emitSnippets at h
  split at h
  · exact linkSnippets_calls h
  · cases h
    exact .refl

/-- The entrypoint ends with the router, and begins the router where it is run from unless an entrypoint
is named. -/
theorem assemble_router {router : StateRouterConfig} {pc : Nat}
    (routed : config.stateRouter = some router)
    (plain : ∀ route ∈ routesOf p.exportedFuncs router.states,
      (p.context policy config).intrinsic route.1 = none)
    (h : p.assemble policy config = .ok (pc, q)) :
    ∃ pre, q.segmentBuilder.entrypointBytecode =
        pre ++ routerCode router.opcode (routesOf p.exportedFuncs router.states) ∧
      (config.entrypointName = none → pc = pre.length) := by
  simp only [assemble, Compile.bind_ok] at h
  obtain ⟨p1, h1, p2, h2, p3, h3, p4, h4, h⟩ := h
  cases h
  have before : p.CallsAlike p3 := by
    have returns : p1.CallsAlike (p1.emitEntrypoint [ret]) := ⟨rfl, rfl, rfl, rfl⟩
    exact (((emitStart_calls h1).trans returns).trans (emitMain_calls h2)).trans (emitSnippets_calls h3)
  have known : ∀ route ∈ routesOf p3.exportedFuncs router.states,
      (p3.context policy config).intrinsic route.1 = none := by
    intro route mem
    rw [before.exportedFuncs] at mem
    have same : (p3.context policy config).intrinsic route.1 =
        (p.context policy config).intrinsic route.1 := by
      show ((p3.intrinsics.find? _).map _) = _
      rw [before.intrinsics]
      rfl
    exact same.trans (plain route mem)
  refine ⟨p3.segmentBuilder.entrypointBytecode, ?_, ?_⟩
  · rw [← before.exportedFuncs]
    exact emitStateRouter_eq routed known h4
  · intro unnamed
    have snippets := emitSnippets_appends h3
    rw [Appends, SegmentBuilder.emit, List.append_nil] at snippets
    rw [snippets, emitMain_none unnamed h2]

/-- The linked module starts where the linker was told. -/
lemma link_sourcePc {pc : Nat} {binary : List Byte} {m : RwasmModule}
    (h : p.link pc binary = .ok m) : m.sourcePc = pc := by
  simp only [link, Compile.bind_ok] at h
  obtain ⟨_, _, _, _, h⟩ := h
  cases h
  rfl

end ModuleParser

/-! ## The dispatch -/

/-- The length of the entrypoint. The functions stand behind it. -/
def WasmModule.entrypointLength (wasm : WasmModule) (policy : FuelPolicy)
    (config : CompilationConfig) : Nat :=
  match (do (← ModuleParser.parse policy config wasm).assemble policy config : Compile _) with
  | .ok (_, p) => p.segmentBuilder.entrypointBytecode.length
  | .error _ => 0

/-- No function starts inside the entrypoint. -/
lemma WasmModule.entrypointLength_le (wasm : WasmModule) (policy : FuelPolicy)
    (config : CompilationConfig) (func : Nat) :
    wasm.entrypointLength policy config ≤ wasm.addresses policy config (func + 1) := by
  unfold entrypointLength addresses
  generalize (do (← ModuleParser.parse policy config wasm).assemble policy config :
    Compile (Nat × ModuleParser)) = assembled
  cases assembled with
  | ok result =>
    obtain ⟨pc, p⟩ := result
    dsimp only
    rw [ModuleParser.addressOf, if_pos (Nat.succ_pos func)]
    exact Nat.le_add_left _ _
  | error _ => exact Nat.zero_le _

section Dispatch

variable {T : Type}

/-- How the state gets on top of the stack of a router. -/
inductive StateRouterConfig.Pushes (router : StateRouterConfig) (m : RwasmModule) (host : Host T)
    (start : Nat) : Executor T → Executor T → Prop
  /-- Without an opcode it is the last parameter. -/
  | param {e} :
    router.opcode = none →
    e.ip = start →
    Pushes router m host start e e
  /-- The opcode is executed first. -/
  | opcode {op e e'} :
    router.opcode = some op →
    e.ip = start →
    (boundedVm m host).step e = .next e' →
    e'.ip = start + 1 →
    Pushes router m host start e e'
  /-- The execution goes on behind the opcode, as it does when the host was asked for the state. -/
  | resumed {op e} :
    router.opcode = some op →
    e.ip = start + 1 →
    Pushes router m host start e e

/-- The run from `e₀`, which is at `e` once the state `s` is on the stack, goes where the routes say: into
the function, which is executed in place of the router, or to a return. The router stands between `lo` and
`hi`. -/
def RwasmModule.Dispatches (m : RwasmModule) (host : Host T) (addr : Nat → Nat)
    (routes : List (Nat × UntypedValue)) (lo hi : Nat) (e₀ e : Executor T) (s : UntypedValue)
    (below : List UntypedValue) : Prop :=
  match routeTo routes s with
  | some func =>
    let entered : Executor T := { e with valueStack := below, ip := addr (func + 1) }
    (boundedWithin m host lo hi).Halts e₀ (.next entered) ∧
      ∀ exit, (boundedVm m host).Halts e₀ exit ↔ (boundedVm m host).Halts entered exit
  | none =>
    let last : Executor T := { e with valueStack := below, ip := hi - 1 }
    (boundedWithin m host lo hi).Steps e₀ last ∧ (boundedVm m host).step last = last.visitReturn

/-- A run of a router dispatches precisely when the slots of its comparisons are reserved above the
state. -/
def StateRouterConfig.Routes (router : StateRouterConfig) (m : RwasmModule) (host : Host T)
    (addr : Nat → Nat) (routes : List (Nat × UntypedValue)) (lo hi : Nat) : Prop :=
  ∀ (e₀ e : Executor T) (s : UntypedValue) (below : List UntypedValue),
    router.Pushes m host lo e₀ e → e.valueStack = s :: below → e.InBounds →
    (m.Dispatches host addr routes lo hi e₀ e s below ↔
      e.valueStack.length + routeSlots routes ≤ e.capacity)

variable {m : RwasmModule} {host : Host T} {addr : Nat → Nat} {routes : List (Nat × UntypedValue)}
  {lo hi : Nat} {router : StateRouterConfig} {e e' : Executor T}

/-- The state is pushed by the code in front of the first comparison. -/
lemma StateRouterConfig.Pushes.run (h : router.Pushes m host lo e e')
    (room : lo + router.opcode.toList.length < hi) :
    (boundedWithin m host lo hi).Steps e e' ∧ e'.ip = lo + router.opcode.toList.length := by
  cases h with
  | param none ip =>
    rw [none]
    exact ⟨.refl, ip⟩
  | opcode some ip moved ip' =>
    rw [some] at room ⊢
    have inside : lo ≤ e.ip ∧ e.ip < hi := ⟨ip.ge, ip ▸ lt_of_le_of_lt (Nat.le_add_right _ _) room⟩
    exact ⟨.single (Machine.within_next inside moved), ip'⟩
  | resumed some ip =>
    rw [some]
    exact ⟨.refl, ip⟩

/-- A run that comes further than the state comes there from the state on the stack. -/
lemma StateRouterConfig.Pushes.rest (h : router.Pushes m host lo e e') {last : Executor T}
    (room : lo + router.opcode.toList.length < hi) (far : lo + 1 < last.ip)
    (st : (boundedWithin m host lo hi).Steps e last) :
    (boundedWithin m host lo hi).Steps e' last := by
  cases h with
  | param | resumed => exact st
  | opcode some ip moved ip' =>
    rw [some] at room
    have inside : lo ≤ e.ip ∧ e.ip < hi := ⟨ip.ge, ip ▸ lt_of_le_of_lt (Nat.le_add_right _ _) room⟩
    rcases st.cases with rfl | ⟨e₁, step, st⟩
    · omega
    · have first : (boundedWithin m host lo hi).step e = .next e' := Machine.within_next inside moved
      rw [first] at step
      cases step
      exact st

/-- A run that dispatches goes on behind the first two instructions of the router. -/
lemma RwasmModule.Dispatches.passes {e₀ : Executor T} {s : UntypedValue} {below : List UntypedValue}
    (dispatches : m.Dispatches host addr routes lo hi e₀ e s below)
    (pushes : router.Pushes m host lo e₀ e) (far : lo + router.opcode.toList.length + 6 < hi) :
    ∃ e', (boundedWithin m host lo hi).Steps e e' ∧
      ¬ (lo ≤ e'.ip ∧ e'.ip < lo + router.opcode.toList.length + 2) := by
  unfold Dispatches at dispatches
  split at dispatches
  next func _ =>
    obtain ⟨⟨t, st, left⟩, -⟩ := dispatches
    have inside : lo + router.opcode.toList.length < hi := by omega
    have left : (boundedWithin m host lo hi).Halts e _ :=
      Machine.Halts.of_steps ⟨t, st, left⟩ (pushes.run inside).1
    obtain ⟨t', st', left'⟩ := left
    refine ⟨t', st', fun inside => ?_⟩
    have within : lo ≤ t'.ip ∧ t'.ip < hi := ⟨inside.1, by omega⟩
    simp only [boundedWithin, Machine.within, if_pos within] at left'
    split at left' <;> cases left'
  · have st := dispatches.1
    refine ⟨_, pushes.rest (by omega) ?_ st, fun inside => ?_⟩
    · dsimp only
      omega
    · have low := inside.2
      dsimp only at low
      omega

/-- The code of a router dispatches, if the functions stand behind it. -/
theorem routes_of_code
    (at' : CodeAt m.codeSection lo ((routerCode router.opcode routes).map (Opcode.relocated addr)))
    (length : lo + (routerCode router.opcode routes).length = hi)
    (behind : ∀ func, hi ≤ addr (func + 1)) : router.Routes m host addr routes lo hi := by
  intro e₀ e s below pushes stack bounded
  rw [routerCode, List.map_append, CodeAt.append_iff, List.length_map] at at'
  rw [routerCode, List.length_append, ← Nat.add_assoc] at length
  obtain ⟨-, code⟩ := at'
  have tail : 2 ≤ (routes.flatMap routeCode ++ [drop, ret]).length := by
    rw [List.length_append]
    exact Nat.le_add_left _ _
  have room : lo + router.opcode.toList.length < hi := by omega
  obtain ⟨pushed, ip⟩ := pushes.run room
  constructor
  · intro dispatches
    by_contra cramped
    cases routes with
    | nil => exact cramped bounded
    | cons route routes =>
      have far : lo + router.opcode.toList.length + 6 < hi := by
        rw [List.flatMap_cons, List.append_assoc, List.length_append] at length
        rw [List.flatMap_cons, List.append_assoc, List.map_append, CodeAt.append_iff] at code
        have six : (routeCode route).length = 6 := rfl
        have rest : 2 ≤ (routes.flatMap routeCode ++ [drop, ret]).length := by
          rw [List.length_append]
          exact Nat.le_add_left _ _
        omega
      obtain ⟨e', st, out⟩ := dispatches.passes pushes far
      rw [List.flatMap_cons, List.append_assoc, List.map_append, CodeAt.append_iff] at code
      obtain ⟨values, cap, calls, at_, store⟩ := e
      dsimp only at ip stack cramped
      subst ip stack
      have stays := route_cramped code.1 (Nat.le_add_right _ _) (by omega) cramped st
      exact out stays
  · intro fits
    obtain ⟨values, cap, calls, at_, store⟩ := e
    dsimp only at ip stack fits
    subst ip stack
    have run : (boundedWithin m host lo hi).Steps e₀ _ :=
      pushed.trans (routes_run code (Nat.le_add_right _ _) length fits)
    have live : below.length ≤ cap := by
      rw [List.length_cons] at fits
      omega
    unfold RwasmModule.Dispatches
    generalize routeTo routes s = target at run ⊢
    cases target with
    | some func =>
      refine ⟨run.halts (Machine.within_exit ?_), fun exit => ⟨fun halts => ?_, fun halts => ?_⟩⟩
      · intro inside
        exact Nat.lt_irrefl _ (inside.2.trans_le (behind func))
      · exact halts.of_steps run.of_within
      · exact run.of_within.halts halts
    | none =>
      have split_ : (routes.flatMap routeCode ++ [drop, ret]).map (Opcode.relocated addr) =
          (routes.flatMap routeCode ++ [drop]).map (Opcode.relocated addr) ++ [ret] := by
        simp only [List.map_append, List.append_assoc, List.map_cons, List.map_nil]
        rfl
      rw [split_, CodeAt.append_iff, List.length_map, List.length_append] at code
      rw [List.length_append] at length
      have returns : m.codeSection[hi - 1]? = some ret := by
        rw [← code.2.1, ← length]
        rfl
      refine ⟨run, ?_⟩
      exact boundedVm_return returns live

end Dispatch

/-- The router of a compiled module dispatches where the slots of its comparisons are reserved. It is what
the module is run from, unless an entrypoint is named too. -/
theorem stateRouter_dispatches {policy : FuelPolicy} {config : CompilationConfig} {wasm : WasmModule}
    {m : RwasmModule} {router : StateRouterConfig} (routed : config.stateRouter = some router)
    (plain : ∀ route ∈ wasm.routes router.states, wasm.replacement config route.1 = none)
    (compiled : RwasmModule.compile policy config wasm = .ok m) :
    ∃ start, (config.entrypointName = none → start = m.sourcePc) ∧
      CodeAt m.codeSection start
        (router.opcode.toList.map (Opcode.relocated (wasm.addresses policy config))) ∧
      (∀ func, wasm.entrypointLength policy config ≤ wasm.addresses policy config (func + 1)) ∧
      ∀ {T : Type} (host : Host T), router.Routes m host (wasm.addresses policy config)
        (wasm.routes router.states) start (wasm.entrypointLength policy config) := by
  obtain ⟨p, parsed, finalized⟩ := Compile.bind_ok.mp compiled
  obtain ⟨⟨pc, q⟩, assembled, linked⟩ := Compile.bind_ok.mp finalized
  obtain ⟨exported, known⟩ := ModuleParser.parse_calls parsed
  have routes : routesOf p.exportedFuncs router.states = wasm.routes router.states := by
    rw [exported]
    rfl
  obtain ⟨pre, entry, unnamed⟩ := ModuleParser.assemble_router routed
    (fun route mem => ModuleParser.intrinsic_eq_none known (plain route (routes ▸ mem))) assembled
  rw [routes] at entry
  have result : (do (← ModuleParser.parse policy config wasm).assemble policy config : Compile _) =
      .ok (pc, q) := by
    rw [parsed]
    exact assembled
  have addresses : wasm.addresses policy config =
      ModuleParser.addressOf q.funcOffsets q.segmentBuilder.entrypointBytecode.length := by
    funext func
    rw [WasmModule.addresses, result]
  have length : wasm.entrypointLength policy config = q.segmentBuilder.entrypointBytecode.length := by
    rw [WasmModule.entrypointLength, result]
  have code := (ModuleParser.link_eq linked).1
  rw [← addresses] at code
  have at' : CodeAt m.codeSection pre.length
      ((routerCode router.opcode (wasm.routes router.states)).map
        (Opcode.relocated (wasm.addresses policy config))) := by
    have self := @CodeAt.self _ m.codeSection
    rw [code, entry, List.append_assoc, List.map_append, List.map_append, CodeAt.append_iff,
      CodeAt.append_iff, List.length_map, Nat.zero_add] at self
    rw [code, entry, List.append_assoc, List.map_append, List.map_append]
    exact self.2.1
  refine ⟨pre.length, fun none => ?_, ?_, wasm.entrypointLength_le policy config, fun host => ?_⟩
  · rw [ModuleParser.link_sourcePc linked, unnamed none]
  · rw [routerCode, List.map_append, CodeAt.append_iff] at at'
    exact at'.1
  · refine routes_of_code at' ?_ (wasm.entrypointLength_le policy config)
    rw [length, entry, List.length_append]

/-! ## A module with a router -/

/-- A module that exports two functions. -/
def routedWasm : WasmModule where
  types := [⟨[], []⟩]
  functions := [⟨0, [], .nil⟩, ⟨0, [], .nil⟩]
  exports := [("main", 0), ("deploy", 1)]

/-- A router to the second function. -/
def deployRouter : StateRouterConfig where
  states := [("deploy", 7)]
  opcode := none

/-- A configuration with the router, and maybe a named entrypoint. -/
def routedConfig (name : Option String) : CompilationConfig where
  stateRouter := some deployRouter
  entrypointName := name

/-- Its compilation without a name: the router stands behind the return of the sections. -/
def deployModule : RwasmModule where
  codeSection := [
    stackCheck 5, ret,
    localGet 1, i32Const 7, i32Eq, brIfEqz 3, drop, returnCallInternal 14, drop, ret,
    signatureCheck 0, consumeFuel 1, stackCheck 0, ret,
    signatureCheck 0, consumeFuel 1, stackCheck 0, ret]
  sourcePc := 2

/-- With a name, the call of the first function stands in front of the router. -/
def mainModule : RwasmModule where
  codeSection := [
    stackCheck 5, ret, returnCallInternal 11,
    localGet 1, i32Const 7, i32Eq, brIfEqz 3, drop, returnCallInternal 15, drop, ret,
    signatureCheck 0, consumeFuel 1, stackCheck 0, ret,
    signatureCheck 0, consumeFuel 1, stackCheck 0, ret]
  sourcePc := 2

/-- Neither function is an import. -/
lemma routedWasm_plain (name : Option String) : ∀ route ∈ routedWasm.routes deployRouter.states,
    routedWasm.replacement (routedConfig name) route.1 = none :=
  fun _ _ => rfl

/-- The router of a compiled module dispatches from `source_pc`. -/
theorem stateRouter_dispatches_deploy :
    RwasmModule.compile unitPolicy (routedConfig none) routedWasm = .ok deployModule ∧
      deployRouter.Routes deployModule (Host.empty : Host Unit)
        (routedWasm.addresses unitPolicy (routedConfig none)) [(1, 7)] deployModule.sourcePc
        (routedWasm.entrypointLength unitPolicy (routedConfig none)) := by
  have compiled : RwasmModule.compile unitPolicy (routedConfig none) routedWasm = .ok deployModule := by
    decide +kernel
  obtain ⟨start, unnamed, -, -, routes⟩ :=
    stateRouter_dispatches rfl (routedWasm_plain none) compiled
  rw [unnamed rfl] at routes
  exact ⟨compiled, routes Host.empty⟩

/-- An executor that is given a state above other parameters. -/
def stateful (s : UntypedValue) (below : List UntypedValue) : Executor Unit :=
  { Executor.fresh (.new () none none) 2 with valueStack := s :: below }

/-- With a named entrypoint the run from `source_pc` does not reach the router. Without one it does, but
with 31 parameters below the state there is no reserved slot for the first comparison. -/
theorem not_stateRouter_dispatches :
    (¬ ∀ (policy : FuelPolicy) (config : CompilationConfig) (wasm : WasmModule) (m : RwasmModule)
        (router : StateRouterConfig) (host : Host Unit) (e₀ e : Executor Unit) (s : UntypedValue)
        (below : List UntypedValue), config.stateRouter = some router →
      (∀ route ∈ wasm.routes router.states, wasm.replacement config route.1 = none) →
      RwasmModule.compile policy config wasm = .ok m →
      router.Pushes m host m.sourcePc e₀ e → e.valueStack = s :: below → e.InBounds →
      e.valueStack.length + routeSlots (wasm.routes router.states) ≤ e.capacity →
      m.Dispatches host (wasm.addresses policy config) (wasm.routes router.states) m.sourcePc
        (wasm.entrypointLength policy config) e₀ e s below) ∧
    ¬ ∀ (policy : FuelPolicy) (config : CompilationConfig) (wasm : WasmModule) (m : RwasmModule)
        (router : StateRouterConfig) (host : Host Unit) (e₀ e : Executor Unit) (s : UntypedValue)
        (below : List UntypedValue), config.stateRouter = some router → config.entrypointName = none →
      (∀ route ∈ wasm.routes router.states, wasm.replacement config route.1 = none) →
      RwasmModule.compile policy config wasm = .ok m →
      router.Pushes m host m.sourcePc e₀ e → e.valueStack = s :: below → e.InBounds →
      m.Dispatches host (wasm.addresses policy config) (wasm.routes router.states) m.sourcePc
        (wasm.entrypointLength policy config) e₀ e s below := by
  constructor
  · intro all
    have compiled : RwasmModule.compile unitPolicy (routedConfig (some "main")) routedWasm =
        .ok mainModule := by
      decide +kernel
    have length : routedWasm.entrypointLength unitPolicy (routedConfig (some "main")) = 11 := by
      decide +kernel
    have dispatched := all unitPolicy (routedConfig (some "main")) routedWasm mainModule deployRouter
      Host.empty (stateful 7 []) (stateful 7 []) 7 [] rfl (routedWasm_plain _) compiled
      (.param rfl rfl) rfl (by decide) (by decide)
    have dispatched := dispatched.1
    rw [length] at dispatched
    -- The first function is entered, and the state is still on the stack.
    have entered : (boundedWithin mainModule Host.empty 2 11).Halts (stateful 7 [])
        (.next { stateful 7 [] with ip := 11 }) :=
      Machine.halts_of_run (n := 2) rfl
    have stack := congrArg (fun turn => match turn with
      | .next e => e.valueStack.length
      | .halt _ => 0) (entered.unique dispatched)
    cases stack
  · intro all
    have compiled : RwasmModule.compile unitPolicy (routedConfig none) routedWasm =
        .ok deployModule := by
      decide +kernel
    have length : routedWasm.entrypointLength unitPolicy (routedConfig none) = 10 := by
      decide +kernel
    have dispatched := all unitPolicy (routedConfig none) routedWasm deployModule deployRouter
      Host.empty (stateful 7 (List.replicate 31 0)) (stateful 7 (List.replicate 31 0)) 7
      (List.replicate 31 0) rfl rfl (routedWasm_plain _) compiled (.param rfl rfl) rfl (by decide)
    have dispatched := dispatched.1
    rw [length] at dispatched
    have cramped : (boundedWithin deployModule Host.empty 2 10).Halts (stateful 7 (List.replicate 31 0))
        (.halt .undefined) :=
      Machine.halts_of_run (n := 1) rfl
    cases cramped.unique dispatched

end Rwasm
