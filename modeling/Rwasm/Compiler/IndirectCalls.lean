import Rwasm.Compiler.Layout
import Rwasm.Compiler.Scopes
import Rwasm.Vm.References

/-!
# Indirect calls

An indirect call expects a type, and every function begins with a check of its own. The two are numbers that
the registry of types gives out (`FuncTypeRegistry`), compared by the machine (`visit_signature_check`). In
every run whose indirect calls find functions, the callee's body runs exactly when it has the type that is
expected. A reference that the host has made up need not be a function; the call goes there all the same.
-/

namespace Rwasm

open Opcode ModuleParser

/-- The type of an imported function. -/
def Import.funcType? (i : Import) : Option Nat :=
  match i.type with
  | .func type => some type
  | _ => none

/-- The types of the functions, of which the imported ones come first. -/
def WasmModule.funcTypes (wasm : WasmModule) : List Nat :=
  wasm.imports.filterMap Import.funcType? ++ wasm.functions.map FuncBody.type

/-- The type of a function. -/
def WasmModule.funcType? (wasm : WasmModule) (func : Nat) : Option FuncType :=
  wasm.funcTypes[func]?.bind fun type => wasm.types[type]?

/-- No other instruction has this stencil. -/
def Opcode.Kept (op : Opcode) : Prop :=
  ∀ op' : Opcode, op'.stencil = op → op' = op

/-- Signature checks are kept. -/
lemma Opcode.kept_signatureCheck {signature : Nat} : (signatureCheck signature).Kept := by
  intro op' same
  cases op' <;> cases same
  rfl

/-- So are the instructions that name a table. -/
lemma Opcode.kept_tableGet {table : Nat} : (tableGet table).Kept := by
  intro op' same
  cases op' <;> cases same
  rfl

/-- Indirect calls are kept. -/
lemma Opcode.kept_indirect {tail : Bool} {signature : Nat} : (indirect tail signature).Kept := by
  intro op' same
  cases tail <;> cases op' <;> cases same <;> rfl

namespace ModuleParser

variable {policy : FuelPolicy} {config : CompilationConfig} {p q : ModuleParser}

/-- Imported functions are numbered in order, with their types. -/
lemma processImports_types {imports : List Import}
    (h : imports.foldlM (fun p => p.processImport policy config) p = .ok q) :
    q.funcTypeRegistry = p.funcTypeRegistry ∧
      q.compiledFuncs = p.compiledFuncs ++ imports.filterMap Import.funcType? ∧
      q.nextFunc = p.nextFunc + (imports.filterMap Import.funcType?).length := by
  induction imports generalizing p with
  | nil =>
    cases h
    exact ⟨rfl, (List.append_nil _).symm, rfl⟩
  | cons i imports ih =>
    rw [List.foldlM_cons, Compile.bind_ok] at h
    obtain ⟨p', hp, h⟩ := h
    obtain ⟨registry, types, next⟩ := ih h
    unfold processImport at hp
    split at hp
    next type func =>
      obtain ⟨entity, code, -, -, rfl⟩ := processFuncImport_ok hp
      have known : Import.funcType? i = some type := by rw [Import.funcType?, func]
      rw [List.filterMap_cons_some known]
      refine ⟨registry, types.trans (List.append_cons _ _ _).symm, next.trans ?_⟩
      rw [List.length_cons, Nat.add_comm _ 1, ← Nat.add_assoc]
      rfl
    next type global =>
      have known : Import.funcType? i = none := by rw [Import.funcType?, global]
      rw [List.filterMap_cons_none known]
      split at hp
      · unfold addGlobal at hp
        split at hp
        · cases hp
          exact ⟨registry, types, next⟩
        · cases hp
      · cases hp
    · cases hp

/-- The section of types, which is the first one. -/
lemma processTypes_registers {types : List FuncType} (h : ({} : ModuleParser).processTypes types = .ok p) :
    p.funcTypeRegistry.Registers types ∧ p.compiledFuncs = [] ∧ p.nextFunc = 0 := by
  obtain ⟨registered, allocated, h⟩ := Compile.bind_ok.mp h
  cases h
  have empty : ({} : FuncTypeRegistry).Registers [] := ⟨rfl, rfl⟩
  exact ⟨empty.foldlM allocated, rfl, rfl⟩

/-- The parser knows the types of the module, and which of them its functions have. -/
lemma parse_types {wasm : WasmModule} (h : parse policy config wasm = .ok p)
    (typed : ({} : ModuleParser).processTypes wasm.types = .ok q) :
    p.funcTypeRegistry = q.funcTypeRegistry ∧ p.compiledFuncs = wasm.funcTypes := by
  obtain ⟨p₀, p₁, types, imports, -, -, registry, funcs⟩ := parse_alike h
  cases types.symm.trans typed
  obtain ⟨same, known, -⟩ := processImports_types imports
  constructor
  · rw [registry, same]
  · rw [funcs, known, (processTypes_registers typed).2.1]
    rfl

/-- The registry knows the section of types. -/
lemma parse_registers {wasm : WasmModule} (h : parse policy config wasm = .ok p)
    (typed : ({} : ModuleParser).processTypes wasm.types = .ok q) :
    p.funcTypeRegistry.Registers wasm.types := by
  rw [(parse_types h typed).1]
  exact (processTypes_registers typed).1

/-- The number of imports in front of a function import is the number of the function. -/
lemma exists_import {imports : List Import} {f : Nat} (lt : f < (imports.filterMap Import.func?).length) :
    ∃ pre i post type, imports = pre ++ i :: post ∧ i.type = .func type ∧
      (pre.filterMap Import.func?).length = f ∧ (pre.filterMap Import.funcType?).length = f := by
  induction imports generalizing f with
  | nil => cases lt
  | cons i imports ih =>
    cases kind : i.type with
    | func type =>
      have name : Import.func? i = some i.name := by rw [Import.func?, kind]
      have known : Import.funcType? i = some type := by rw [Import.funcType?, kind]
      cases f with
      | zero => exact ⟨[], i, imports, type, rfl, kind, rfl, rfl⟩
      | succ f =>
        rw [List.filterMap_cons_some name, List.length_cons] at lt
        obtain ⟨pre, i', post, type', rfl, kind', names, types⟩ := ih (Nat.lt_of_succ_lt_succ lt)
        refine ⟨i :: pre, i', post, type', rfl, kind', ?_, ?_⟩
        · rw [List.filterMap_cons_some name, List.length_cons, names]
        · rw [List.filterMap_cons_some known, List.length_cons, types]
    | global _ | other =>
      have name : Import.func? i = none := by rw [Import.func?, kind]
      have known : Import.funcType? i = none := by rw [Import.funcType?, kind]
      rw [List.filterMap_cons_none name] at lt
      obtain ⟨pre, i', post, type', rfl, kind', names, types⟩ := ih lt
      refine ⟨i :: pre, i', post, type', rfl, kind', ?_, ?_⟩
      · rw [List.filterMap_cons_none name, names]
      · rw [List.filterMap_cons_none known, types]

/-- A trampoline begins with the check of the type of its function. -/
lemma trampoline_begins {func type : Nat} {entity : ImportLinkerEntity} {es : List Emission}
    (h : p.trampoline policy config func type entity = .ok (p.instructionSet ++ es.map Emission.op)) :
    ∃ idx signature, p.compiledFuncs[func]? = some idx ∧
      p.funcTypeRegistry.resolveFuncTypeSignature idx = .ok signature ∧
      (es.map Emission.op).head? = some (signatureCheck signature) := by
  simp only [trampoline, Compile.bind_ok] at h
  obtain ⟨t, prepared, _, -, finished⟩ := h
  obtain ⟨idx, signature, known, signed, emits⟩ := InstructionTranslator.prepare_emits prepared
  refine ⟨idx, signature, Compile.unwrap_ok.mp known, signed, ?_⟩
  have final := InstructionTranslator.finish_stencil finished
  have emitted := emits.code
  simp only [InstructionTranslator.emit, InstructionTranslator.skeleton, List.map_append] at final emitted
  rw [emitted, List.append_assoc, List.append_cancel_left_eq] at final
  cases es with
  | nil => cases final
  | cons e es =>
    have same : e.op.stencil = signatureCheck signature := by injection final
    rw [List.map_cons, List.head?_cons, Opcode.kept_signatureCheck _ same]

end ModuleParser

/-- The indirect calls: whether in tail position, the type that is expected, and the table. -/
def Operator.indirect? : Operator → Option (Bool × Nat × Nat)
  | .plain (.callIndirect type table) => some (false, type, table)
  | .leave (.returnCallIndirect type table) => some (true, type, table)
  | _ => none

section Kept

open InstructionTranslator

variable {cx : Context} {t t' : InstructionTranslator} {tail : Bool} {type table : Nat}

/-- The visit of an indirect call ends with the call and the table. -/
lemma visit_indirect {op : Operator} (is : op.indirect? = some (tail, type, table))
    (live : t.reachable = true) (visited : t.visit cx op = .ok t') :
    ∃ code signature, cx.funcTypeRegistry.resolveFuncTypeSignature type = .ok signature ∧
      t'.instructionSet = code ++ [indirect tail signature, tableGet table] := by
  unfold Operator.indirect? at is
  split at is
  · cases is
    obtain ⟨ops, emitted, eq⟩ := visitCallIndirect_visited live visited
    obtain ⟨signature, signed, emitted⟩ := Compile.bind_ok.mp emitted
    cases emitted
    exact ⟨_, signature, signed, congrArg Skeleton.code eq⟩
  · cases is
    simp only [InstructionTranslator.visit, visitLeave, visitReturnCallIndirect, translateIfReachable, live,
      if_true, Compile.bind_ok, Prod.exists] at visited
    obtain ⟨_, -, _, -, _, _, -, _, -, _, -, _, -, signature, signed, visited⟩ := visited
    cases visited
    exact ⟨_, signature, signed, rfl⟩
  · cases is

/-- One more operator is visited. -/
lemma InstructionTranslator.visitAll_concat {ops : List Operator} {op : Operator}
    {t₁ t₂ : InstructionTranslator} (before : visitAll cx ops t = .ok t₁) (last : t₁.visit cx op = .ok t₂) :
    visitAll cx (ops ++ [op]) t = .ok t₂ := by
  induction ops generalizing t with
  | nil =>
    cases before
    exact Compile.bind_ok.mpr ⟨t₂, last, rfl⟩
  | cons op' ops ih =>
    obtain ⟨t', first, rest⟩ := Compile.bind_ok.mp before
    exact Compile.bind_ok.mpr ⟨t', first, ih rest⟩

/-- What the visits of some operators emitted is kept to the end of the function. -/
lemma translate_kept {func : Nat} {locals : List (Nat × ValType)} {pre post : List Operator}
    {code code' : List Opcode} {calls calls' : List SnippetCall}
    (translated : FuncBuilder.translate cx func locals (pre ++ post) code calls = .ok (code', calls'))
    (entered : FuncBuilder.enter cx func locals code calls = .ok t) (visited : visitAll cx pre t = .ok t') :
    t'.instructionSet.map Opcode.stencil <+: code'.map Opcode.stencil := by
  rw [FuncBuilder.translate_eq] at translated
  simp only [Compile.bind_ok, entered, Except.ok.injEq, exists_eq_left'] at translated
  obtain ⟨t₁, all, final, finished, h⟩ := translated
  cases h
  obtain ⟨t₂, first, rest⟩ := visitAll_append all
  cases first.symm.trans visited
  obtain ⟨es, emits, -⟩ := visitAll_emits rest
  have code := emits.code
  rw [List.map_append] at code
  rw [finish_stencil finished]
  exact ⟨_, code.symm⟩

end Kept

namespace Layout

variable {l : Layout} {policy : FuelPolicy} {config : CompilationConfig} {wasm : WasmModule}
  {p₀ p q : ModuleParser} {vals : List Value} {m : RwasmModule}

/-- A function begins there. -/
def Begins (l : Layout) (a : Nat) : Prop :=
  ∃ f < l.imported.length + l.bodies.length, a = l.start f

/-- An instruction that names no function is not relocated. -/
lemma place_unnamed {e : Emission} (unnamed : e.op.funcNumber = none) : l.place e = e.op := by
  have named := e.isSome_target
  rw [unnamed] at named
  rw [place, Option.isNone_iff_eq_none.mp (Option.isSome_eq_false_iff.mp named)]

/-- The first instruction of a function stands where the function begins. -/
lemma Describes.first {cx : Context} (h : l.Describes policy config wasm p₀ q cx vals m) {k : Nat}
    {unit : List Emission} {op : Opcode} (found : l.units[k]? = some unit)
    (first : (unit.map Emission.op).head? = some op) (unnamed : op.funcNumber = none) :
    m.codeSection[l.start k]? = some op := by
  cases unit with
  | nil => cases first
  | cons e es =>
    cases first
    have placed := h.placed found (j := 0) rfl
    rwa [Nat.add_zero, place_unnamed unnamed] at placed

/-- A function begins with the check of its type. -/
lemma Describes.begins (h : l.Describes policy config wasm p₀ q (p.context policy config) vals m)
    (typed : ({} : ModuleParser).processTypes wasm.types = .ok p₀)
    (parsed : parse policy config wasm = .ok p) {f : Nat} (lt : f < l.imported.length + l.bodies.length) :
    ∃ idx signature, wasm.funcTypes[f]? = some idx ∧
      p.funcTypeRegistry.resolveFuncTypeSignature idx = .ok signature ∧
      m.codeSection[l.start f]? = some (signatureCheck signature) := by
  obtain ⟨registry, funcs⟩ := parse_types parsed typed
  obtain ⟨-, none, zero⟩ := processTypes_registers typed
  by_cases imported : f < l.imported.length
  · have count : f < (wasm.imports.filterMap Import.func?).length := by
      rwa [h.imported.length_eq]
    obtain ⟨pre, i, post, type, split, kind, names, types⟩ := exists_import count
    obtain ⟨p', entity, es, before, -, found, compiled⟩ := h.trampolines pre i post type split kind
    obtain ⟨same, known, next⟩ := processImports_types before
    obtain ⟨idx, signature, known', signed, first⟩ := trampoline_begins compiled
    rw [names] at found
    have unit : l.units[f]? = some es := by
      rw [units, List.append_assoc, List.getElem?_append_left imported, found]
    refine ⟨idx, signature, ?_, ?_, h.first unit first rfl⟩
    · have declared : (p'.declareImport type entity).compiledFuncs =
          pre.filterMap Import.funcType? ++ [type] := by
        rw [declareImport, known, none, List.nil_append]
      have index : p'.nextFunc = f := by rw [next, zero, types, Nat.zero_add]
      have numbered : Import.funcType? i = some type := by rw [Import.funcType?, kind]
      have front : f < (pre.filterMap Import.funcType? ++ [type]).length := by
        rw [List.length_append, types]
        exact Nat.lt_succ_self f
      rw [declared, index] at known'
      rw [WasmModule.funcTypes, split, List.filterMap_append, List.filterMap_cons_some numbered,
        List.append_cons, List.append_assoc, List.getElem?_append_left front, known']
    · rw [registry, ← same]
      exact signed
  · have bodies : l.units[f]? = l.bodies[f - l.imported.length]? := by
      rw [units, List.getElem?_append_left (by rwa [List.length_append]),
        List.getElem?_append_right (Nat.not_lt.mp imported)]
    have inside : f - l.imported.length < l.bodies.length := by omega
    have func := List.getElem?_eq_getElem (h.bodies.1 ▸ inside)
    have body := h.bodies.2 _ _ _ func (List.getElem?_eq_getElem inside)
    obtain ⟨idx, signature, known, signed, first⟩ := body.translates.begins
    refine ⟨idx, signature, ?_, signed, h.first (bodies.trans (List.getElem?_eq_getElem inside)) first rfl⟩
    have known : p.compiledFuncs[l.imported.length + (f - l.imported.length)]? = some idx :=
      Compile.unwrap_ok.mp known
    rwa [funcs, Nat.add_sub_cancel' (Nat.not_lt.mp imported)] at known

/-- An operator of a function body is an indirect call, and what it is translated to stands there: whether it
is in tail position, the type that it expects, and its table. -/
inductive IndirectAt (l : Layout) (wasm : WasmModule) (cx : Context) : Nat → Bool → Nat → Nat → Prop
  | body {i j type table : Nat} {tail : Bool} {body : FuncBody} {pre post : List Operator} {op : Operator}
    {t t₁ t₂ : InstructionTranslator} :
    wasm.functions[j]? = some body →
    FuncBuilder.enter cx (l.imported.length + j) body.locals
      ((l.before (l.imported.length + j)).map Emission.op)
      (snippetCallsFrom 0 (l.before (l.imported.length + j))) = .ok t →
    body.operators = pre ++ op :: post →
    op.indirect? = some (tail, type, table) →
    InstructionTranslator.visitAll cx pre t = .ok t₁ →
    t₁.reachable = true →
    t₁.visit cx op = .ok t₂ →
    i + 2 = l.entrypoint.length + t₂.currentPc →
    IndirectAt l wasm cx i tail type table

/-- The code up to the end of a function is that of the entrypoint and of the functions. -/
lemma emissions_prefix {k : Nat} {unit : List Emission} (found : l.units[k]? = some unit) :
    l.entrypoint.map Opcode.emission ++ (l.before k ++ unit) <+: l.emissions := by
  obtain ⟨lt, rfl⟩ := List.getElem?_eq_some_iff.mp found
  rw [emissions, List.prefix_append_right_inj, before]
  have take := List.take_prefix (k + 1) l.units
  rw [← List.take_append_getElem lt] at take
  have flat := List.IsPrefix.flatten take
  rwa [List.flatten_append, List.flatten_singleton] at flat

/-- The element section holds null and the addresses of functions, when the element segments name functions
and the addresses fit into 32 bits. -/
lemma Describes.references (h : l.Describes policy config wasm p₀ q (p.context policy config) vals m)
    (typed : ({} : ModuleParser).processTypes wasm.types = .ok p₀)
    (parsed : parse policy config wasm = .ok p) (fits : m.codeSection.length ≤ 2 ^ 32)
    (named : ∀ elements b, wasm.elements.mapM (Element.segment vals) = some elements →
      b ∈ elements.flatMap ElementSegment.elements → b.toNat ≤ l.imported.length + l.bodies.length) :
    ∀ x ∈ m.elemSection, IsReference l.Begins x := by
  obtain ⟨elements, segments, -, eq⟩ := h.elements
  intro x mem
  rw [eq] at mem
  obtain ⟨b, known, rfl⟩ := List.mem_map.mp mem
  have le := named elements b segments known
  cases number : b.toNat with
  | zero => exact .inl rfl
  | succ f =>
    rw [number] at le
    obtain ⟨_, _, -, -, check⟩ := h.begins typed parsed le
    have lt : l.start f < 2 ^ 32 := Nat.lt_of_lt_of_le (List.getElem?_eq_some_iff.mp check).1 fits
    refine .inr ⟨f, le, ?_⟩
    show (BitVec.ofNat 32 (l.start f)).toNat = l.start f
    rw [BitVec.toNat_ofNat, Nat.mod_eq_of_lt lt]

/-- What a visit emitted stands in the code, when no other instruction has its stencil. -/
lemma Describes.stands {cx : Context} (h : l.Describes policy config wasm p₀ q cx vals m) {k n : Nat}
    {unit : List Emission} {code : List Opcode} {op : Opcode} (found : l.units[k]? = some unit)
    (kept : code.map Opcode.stencil <+: ((l.before k ++ unit).map Emission.op).map Opcode.stencil)
    (there : code[n]? = some op) (same : op.stencil = op) (alone : op.Kept) (unnamed : op.funcNumber = none) :
    m.codeSection[l.entrypoint.length + n]? = some op := by
  obtain ⟨rest, eq⟩ := kept
  have stencil : (code.map Opcode.stencil)[n]? = some op := by
    rw [List.getElem?_map, there, Option.map_some, same]
  have final : (((l.before k ++ unit).map Emission.op).map Opcode.stencil)[n]? = some op := by
    rw [← eq, List.getElem?_append_left (List.getElem?_eq_some_iff.mp stencil).1, stencil]
  rw [List.getElem?_map, List.getElem?_map] at final
  obtain ⟨op', emitted, same'⟩ := Option.map_eq_some_iff.mp final
  obtain ⟨e, at', rfl⟩ := Option.map_eq_some_iff.mp emitted
  cases alone _ same'
  obtain ⟨rest, whole⟩ := l.emissions_prefix found
  have inside : n < (l.before k ++ unit).length := (List.getElem?_eq_some_iff.mp at').1
  have place : l.emissions[l.entrypoint.length + n]? = some e := by
    rw [← whole, List.append_assoc, List.getElem?_append_right (by rw [List.length_map]; omega),
      List.length_map, Nat.add_sub_cancel_left, List.getElem?_append_left inside, at']
  rw [h.code, List.getElem?_map, place, Option.map_some, place_unnamed unnamed]

/-- An indirect call of the code expects the signature of its type. -/
lemma IndirectAt.indirect {cx : Context} (h : l.Describes policy config wasm p₀ q cx vals m)
    {i type table : Nat} {tail : Bool} (call : l.IndirectAt wasm cx i tail type table) :
    ∃ signature, cx.funcTypeRegistry.resolveFuncTypeSignature type = .ok signature ∧
      Executor.Indirect m i tail signature table := by
  cases call with
  | @body j _ _ _ body pre post op t t₁ t₂ func entered split is visited live last place =>
    have inside : j < l.bodies.length := h.bodies.1 ▸ (List.getElem?_eq_some_iff.mp func).1
    have unit := List.getElem?_eq_getElem inside
    have lt : l.imported.length + j < (l.imported ++ l.bodies).length := by
      rw [List.length_append]
      exact Nat.add_lt_add_left inside _
    have found : l.units[l.imported.length + j]? = some l.bodies[j] := by
      rw [units, List.getElem?_append_left lt, List.getElem?_append_right (Nat.le_add_right _ _),
        Nat.add_sub_cancel_left, unit]
    have before : ((l.imported ++ l.bodies).take (l.imported.length + j)).flatten =
        l.before (l.imported.length + j) := by
      rw [Layout.before, units, List.take_append_of_le_length (Nat.le_of_lt lt)]
    have translated := (h.bodies.2 j body _ func unit).code
    rw [before, split, List.append_cons] at translated
    have all : InstructionTranslator.visitAll cx (pre ++ [op]) t = .ok t₂ :=
      InstructionTranslator.visitAll_concat visited last
    have kept := translate_kept translated entered all
    obtain ⟨code, signature, signed, emitted⟩ := visit_indirect is live last
    have length : i = l.entrypoint.length + code.length := by
      have pc : t₂.currentPc = code.length + 2 := by
        rw [InstructionTranslator.currentPc, emitted, List.length_append]
        rfl
      omega
    have first : t₂.instructionSet[code.length]? = some (.indirect tail signature) := by
      rw [emitted, List.getElem?_append_right (Nat.le_refl _), Nat.sub_self]
      rfl
    have second : t₂.instructionSet[code.length + 1]? = some (tableGet table) := by
      rw [emitted, List.getElem?_append_right (Nat.le_add_right _ _), Nat.add_sub_cancel_left]
      rfl
    refine ⟨signature, signed, ?_, ?_⟩
    · rw [length]
      refine h.stands found kept first ?_ Opcode.kept_indirect ?_
      · cases tail <;> rfl
      · cases tail <;> rfl
    · rw [length, Nat.add_assoc]
      exact h.stands found kept second rfl Opcode.kept_tableGet rfl

section Calls

variable {T : Type} {host : Host T} {e : Executor T}

/-- A call arrives at a function, and the check at its beginning goes on: the body of the function runs. -/
def Enters (l : Layout) (m : RwasmModule) (host : Host T) (e : Executor T) (f : Nat) : Prop :=
  ∃ e₁ e₂, (vm m host).step e = .next e₁ ∧ e₁.ip = l.start f ∧
    (vm m host).step e₁ = .next e₂ ∧ e₂.ip = l.start f + 1

/-- What an indirect call that expects a type makes of the slot it looks up. The body of a function runs
exactly when the slot holds the function, and the function has the type. A slot that is not there or null, and
a function of another type, end in a trap of their own; where a function is found, there is nothing else. -/
structure CallsTyped (l : Layout) (wasm : WasmModule) (m : RwasmModule) (host : Host T) (e : Executor T)
    (type : Nat) (slot : Option UntypedValue) : Prop where
  enters : ∀ f < l.imported.length + l.bodies.length, l.Enters m host e f ↔
    ∃ func, slot = some func ∧ func ≠ NULL_FUNC_IDX ∧ func.toNat = l.start f ∧
      wasm.funcType? f = wasm.types[type]?
  outOfBounds : slot = none → ∃ e', (vm m host).step e = .halt (.trapped .tableOutOfBounds e')
  null : slot = some NULL_FUNC_IDX →
    ∃ e', (vm m host).step e = .halt (.trapped .indirectCallToNull e')
  badSignature : ∀ f < l.imported.length + l.bodies.length, ∀ func, slot = some func →
    func.toNat = l.start f → wasm.funcType? f ≠ wasm.types[type]? →
      ∃ e₁ e₂, (vm m host).step e = .next e₁ ∧ e₁.ip = l.start f ∧
        (vm m host).step e₁ = .halt (.trapped .badSignature e₂)
  finds : e.FindsIn m l.Begins → slot = none ∨ slot = some NULL_FUNC_IDX ∨
    ∃ f < l.imported.length + l.bodies.length, ∃ func, slot = some func ∧ func.toNat = l.start f

/-- The indirect calls of a compiled module check the type that they expect. -/
lemma IndirectAt.typed (h : l.Describes policy config wasm p₀ q (p.context policy config) vals m)
    (typed : ({} : ModuleParser).processTypes wasm.types = .ok p₀)
    (parsed : parse policy config wasm = .ok p) {type table : Nat} {tail : Bool}
    (call : l.IndirectAt wasm (p.context policy config) e.ip tail type table) {k : UntypedValue}
    {below : List UntypedValue} {entity : TableEntity} (stack : e.valueStack = k :: below)
    (there : e.store.tables table = some entity)
    (room : tail = true ∨ e.callStack.length < N_MAX_RECURSION_DEPTH) :
    l.CallsTyped wasm m host e type (entity.getUntyped k.toNat) := by
  obtain ⟨signature, signed, call⟩ := call.indirect h
  have registers := parse_registers parsed typed
  -- the signature of a function is the one that is expected exactly when its type is
  have callee : ∀ f < l.imported.length + l.bodies.length, ∃ signature',
      m.codeSection[l.start f]? = some (signatureCheck signature') ∧
      (signature = signature' ↔ wasm.funcType? f = wasm.types[type]?) := by
    intro f lt
    obtain ⟨idx, signature', known, signed', check⟩ := h.begins typed parsed lt
    refine ⟨signature', check, ?_⟩
    rw [registers.signature_eq_iff signed signed', WasmModule.funcType?, known]
    exact eq_comm
  have apart : ∀ {f : Nat} {func : UntypedValue}, func.toNat = l.start f → func ≠ NULL_FUNC_IDX := by
    rintro f _ at' rfl
    exact h.inhabited.start_pos.ne at'
  constructor
  case enters =>
    intro f lt
    obtain ⟨signature', check, same⟩ := callee f lt
    constructor
    · rintro ⟨e₁, e₂, next, at', on, -⟩
      cases holds : entity.getUntyped k.toNat with
      | none =>
        obtain ⟨e', trap⟩ := call.outOfBounds host stack there holds
        rw [trap] at next
        cases next
      | some func =>
        by_cases null : func = NULL_FUNC_IDX
        · obtain ⟨e', trap⟩ := call.null host stack there (null ▸ holds)
          rw [trap] at next
          cases next
        · obtain ⟨e', arrives, ip, pending⟩ := call.arrives host stack there holds null room
          cases arrives.symm.trans next
          refine ⟨func, rfl, null, ip.symm.trans at', same.mp ?_⟩
          by_contra other
          obtain ⟨e', trap⟩ := Executor.check_other host (at' ▸ check) pending other
          rw [trap] at on
          cases on
    · rintro ⟨func, holds, known, at', expected⟩
      obtain ⟨e₁, arrives, ip, pending⟩ := call.arrives host stack there holds known room
      have here : m.codeSection[e₁.ip]? = some (signatureCheck signature') := by rw [ip, at', check]
      obtain ⟨e₂, on, next, -⟩ := Executor.check_same host here (same.mpr expected ▸ pending)
      exact ⟨e₁, e₂, arrives, ip.trans at', on, by rw [next, ip, at']⟩
  case outOfBounds => exact call.outOfBounds host stack there
  case null => exact call.null host stack there
  case badSignature =>
    intro f lt func holds at' unexpected
    obtain ⟨signature', check, same⟩ := callee f lt
    obtain ⟨e₁, arrives, ip, pending⟩ := call.arrives host stack there holds (apart at') room
    have here : m.codeSection[e₁.ip]? = some (signatureCheck signature') := by rw [ip, at', check]
    obtain ⟨e₂, trap⟩ := Executor.check_other host here pending fun eq => unexpected (same.mp eq)
    exact ⟨e₁, e₂, arrives, ip.trans at', trap⟩
  case finds =>
    intro finds
    cases holds : entity.getUntyped k.toNat with
    | none => exact .inl rfl
    | some func =>
      by_cases null : func = NULL_FUNC_IDX
      · exact .inr (.inl (congrArg some null))
      · obtain ⟨f, lt, at'⟩ := call.finds finds stack there holds null
        exact .inr (.inr ⟨f, lt, func, rfl, at'⟩)

/-- What holds in a state of a run. An indirect call checks the type that it expects. When a function is
called directly, nothing is pending, so that its signature check goes on. Nothing is left pending for the
next run. -/
structure Checks (l : Layout) (wasm : WasmModule) (cx : Context) (m : RwasmModule) (host : Host T)
    (e : Executor T) : Prop where
  indirect : ∀ tail type table, l.IndirectAt wasm cx e.ip tail type table →
    ∀ k below entity, e.valueStack = k :: below → e.store.tables table = some entity →
      tail = true ∨ e.callStack.length < N_MAX_RECURSION_DEPTH →
        l.CallsTyped wasm m host e type (entity.getUntyped k.toNat)
  direct : ∀ n e', m.codeSection[e.ip]? = some (callInternal n) ∨
    m.codeSection[e.ip]? = some (returnCallInternal n) → (vm m host).step e = .next e' →
      e'.store.lastSignature = none ∧
        ∀ signature, m.codeSection[e'.ip]? = some (signatureCheck signature) →
          ∃ e'', (vm m host).step e' = .next e'' ∧ e''.ip = e'.ip + 1
  settled : ∀ exit result store, (vm m host).step e = .halt exit →
    (Executor.settle m exit result).store = some store → store.lastSignature = none

/-- A direct call leaves nothing pending. -/
lemma direct_idle {A : Nat → Prop} {e' : Executor T} {n : Nat} (pending : e.PendingIn A)
    (checked : Executor.Checked m A)
    (call : m.codeSection[e.ip]? = some (callInternal n) ∨ m.codeSection[e.ip]? = some (returnCallInternal n))
    (next : (vm m host).step e = .next e') : e'.store.lastSignature = none := by
  rcases call with code | code
  all_goals
    have idle := pending.idle checked code fun _ check => by cases check
    simp only [vm, code] at next
    refine Executor.lastSignature_step next (fun signature => ⟨?_, ?_⟩) idle
    · intro indirect
      cases indirect
    · intro indirect
      cases indirect

/-- In every state of a run that finds functions the signatures are checked. -/
lemma Describes.checks (h : l.Describes policy config wasm p₀ q (p.context policy config) vals m)
    (typed : ({} : ModuleParser).processTypes wasm.types = .ok p₀)
    (parsed : parse policy config wasm = .ok p) {e₀ : Executor T} (idle : e₀.store.lastSignature = none)
    (run : Executor.RunsIn m host l.Begins e₀ e) :
    l.Checks wasm (p.context policy config) m host e := by
  have checked : Executor.Checked m l.Begins := by
    rintro _ ⟨f, lt, rfl⟩
    obtain ⟨_, signature, -, -, check⟩ := h.begins typed parsed lt
    exact ⟨signature, check⟩
  have pending := run.pendingIn checked idle
  constructor
  case indirect =>
    intro tail type table call k below entity stack there room
    exact call.typed h typed parsed stack there room
  case direct =>
    intro n e' call next
    have clear := direct_idle pending checked call next
    refine ⟨clear, ?_⟩
    intro signature check
    obtain ⟨e'', on, ip, -⟩ := Executor.check_idle host check clear
    exact ⟨e'', on, ip⟩
  case settled =>
    intro exit result store halt left
    exact pending.settled checked halt left

end Calls

end Layout

section Claim

variable {policy : FuelPolicy} {config : CompilationConfig} {wasm : WasmModule} {m : RwasmModule}

/-- Indirect calls are safe. Signatures are equal exactly when the types are. In every state of a run whose
indirect calls find functions, the types are checked. And they do find functions in every run that puts
nothing but references into tables. -/
theorem indirectCalls_typed (valid : wasm.Valid) (compiled : RwasmModule.compile policy config wasm = .ok m) :
    ∃ p₀ p pc q vals l, ({} : ModuleParser).processTypes wasm.types = .ok p₀ ∧
      parse policy config wasm = .ok p ∧ p.assemble policy config = .ok (pc, q) ∧
      wasm.initialGlobals (config.defaultImportedGlobalValue.getD 0) = some vals ∧
      Layout.Describes l policy config wasm p₀ q (p.context policy config) vals m ∧
      (∀ i j type type', wasm.types[i]? = some type → wasm.types[j]? = some type' →
        ∃ signature signature', p.funcTypeRegistry.resolveFuncTypeSignature i = .ok signature ∧
          p.funcTypeRegistry.resolveFuncTypeSignature j = .ok signature' ∧
          (signature = signature' ↔ type = type')) ∧
      (∀ (T : Type) (host : Host T) (e₀ e : Executor T), e₀.store.lastSignature = none →
        Executor.RunsIn m host l.Begins e₀ e → l.Checks wasm (p.context policy config) m host e) ∧
      (m.codeSection.length ≤ 2 ^ 32 →
        (∀ elements b, wasm.elements.mapM (Element.segment vals) = some elements →
          b ∈ elements.flatMap ElementSegment.elements → b.toNat ≤ l.imported.length + l.bodies.length) →
        ∀ (T : Type) (host : Host T) (e₀ e : Executor T), (∀ v, e₀.store.Holds v → IsReference l.Begins v) →
          Executor.RunsPutting m host (IsReference l.Begins) e₀ e →
            Executor.RunsIn m host l.Begins e₀ e ∧ e.FindsIn m l.Begins) := by
  obtain ⟨p₀, p, pc, q, vals, l, typed, parsed, assembled, initial, h⟩ := compile_layout valid compiled
  have registers := parse_registers parsed typed
  refine ⟨p₀, p, pc, q, vals, l, typed, parsed, assembled, initial, h, ?_, ?_, ?_⟩
  · intro i j type type' there there'
    exact ⟨_, _, registers.resolves there, registers.resolves there',
      List.idxOf_inj (List.mem_of_getElem? there)⟩
  · intro T host e₀ e idle run
    exact h.checks typed parsed idle run
  · intro fits named T host e₀ e holds run
    exact run.runsIn (h.references typed parsed fits named) holds

end Claim

/-- A function that puts a reference it is given into a table and calls it. -/
def forgedMain : FuncBody :=
  ⟨0, [], .plain (.i32Const 0) (.plain (.localGet 0) (.plain (.tableSet 0) (.plain (.i32Const 0)
    (.plain (.callIndirect 1 0) .nil))))⟩

/-- The function, and one of another type. -/
def forgedWasm : WasmModule where
  types := [⟨[.funcRef], []⟩, ⟨[], []⟩, ⟨[], [.i32]⟩]
  tables := [⟨.funcRef, 1, none⟩]
  functions := [forgedMain, ⟨2, [], .leave .unreachable .nil⟩]
  exports := [("main", 0)]

/-- A configuration in which the first function may be given references. -/
def forgedConfig : CompilationConfig where
  entrypointName := some "main"
  allowMalformedEntrypointFuncType := true
  allowFuncRefFunctionTypes := true

/-- Its compilation: the entrypoint, the call of the first function, and the two functions. -/
def forgedModule : RwasmModule where
  codeSection := [
    stackCheck 5, refFunc 0, i32Const 1, tableGrow 0, drop, ret,
    returnCallInternal 7,
    signatureCheck 0, consumeFuel 7, stackCheck 2,
    i32Const 0, localGet 2, tableSet 0, i32Const 0, callIndirect 1, tableGet 0, bulkDrop 1, ret,
    signatureCheck 2, consumeFuel 1, stackCheck 1, unreachable]
  sourcePc := 6

/-- The module of the example is valid. -/
lemma forgedWasm_valid : forgedWasm.Valid := by
  refine ⟨trivial, ?_, ⟨by decide, nofun⟩, nofun, nofun, nofun, by decide, by decide⟩
  intro t mem
  cases List.mem_singleton.mp mem
  decide

/-- It is compiled to this. -/
lemma forgedWasm_compiled : RwasmModule.compile unitPolicy forgedConfig forgedWasm = .ok forgedModule := by
  decide +kernel

/-- Its indirect call stands there. -/
lemma forgedWasm_indirectAt {p₀ p q : ModuleParser} {pc : Nat} {vals : List Value} {l : Layout}
    (parsed : parse unitPolicy forgedConfig forgedWasm = .ok p)
    (assembled : p.assemble unitPolicy forgedConfig = .ok (pc, q))
    (h : l.Describes unitPolicy forgedConfig forgedWasm p₀ q (p.context unitPolicy forgedConfig) vals
      forgedModule) :
    l.IndirectAt forgedWasm (p.context unitPolicy forgedConfig) 14 false 1 0 := by
  have computed : (do
      let p ← parse unitPolicy forgedConfig forgedWasm
      let linked ← p.assemble unitPolicy forgedConfig
      let t ← FuncBuilder.enter (p.context unitPolicy forgedConfig) 0 [] [] []
      let t₁ ← InstructionTranslator.visitAll (p.context unitPolicy forgedConfig)
        [.plain (.i32Const 0), .plain (.localGet 0), .plain (.tableSet 0), .plain (.i32Const 0)] t
      let t₂ ← t₁.visit (p.context unitPolicy forgedConfig) (.plain (.callIndirect 1 0))
      return (linked.2.segmentBuilder.entrypointBytecode.length, t₁.reachable, t₂.currentPc)) =
        .ok (7, true, 9) := by
    decide +kernel
  simp only [parsed, assembled, Compile.bind_ok, Except.ok.injEq, exists_eq_left'] at computed
  obtain ⟨t, entered, t₁, visited, t₂, last, computed⟩ := computed
  injection computed with computed
  injection computed with length computed
  injection computed with live behind
  have imported : l.imported = [] := List.forall₂_nil_left_iff.mp h.imported
  have first : l.before (l.imported.length + 0) = [] := by
    rw [imported]
    rfl
  have split : forgedMain.operators = [.plain (.i32Const 0), .plain (.localGet 0), .plain (.tableSet 0),
      .plain (.i32Const 0)] ++ .plain (.callIndirect 1 0) :: [.end] := rfl
  have main : forgedWasm.functions[0]? = some forgedMain := rfl
  refine .body main ?_ split rfl visited live last ?_
  · rw [first, imported]
    exact entered
  · rw [h.assembled, length, behind]

/-- A state in front of the call, in which the table holds the second function. -/
def atIndirectCall : Executor Unit :=
  { Executor.fresh (.new () none none) 14 with
    valueStack := [0]
    store := { Store.new () none none with tables := fun _ => some ⟨[18]⟩ } }

/-- In the module of the example, the call does not run the body of the second function, which is there. -/
theorem indirectCalls_typed_forged :
    ∃ (p₀ p q : ModuleParser) (vals : List Value) (l : Layout),
      l.Describes unitPolicy forgedConfig forgedWasm p₀ q (p.context unitPolicy forgedConfig) vals
        forgedModule ∧
      l.CallsTyped forgedWasm forgedModule Host.empty atIndirectCall 1 (some 18) := by
  obtain ⟨p₀, p, pc, q, vals, l, -, parsed, assembled, -, h, -, checks, -⟩ :=
    indirectCalls_typed forgedWasm_valid forgedWasm_compiled
  have call := forgedWasm_indirectAt parsed assembled h
  have checked := checks Unit Host.empty atIndirectCall atIndirectCall rfl .refl
  have typed := checked.indirect _ _ _ call 0 [] ⟨[18]⟩ rfl rfl (.inr (by decide))
  exact ⟨p₀, p, q, vals, l, h, typed⟩

/-- A run of the example that is given the address of the last instruction: it comes to the indirect call, and
the call goes there. -/
lemma forgedModule_run : ∃ store : Store Unit, ∃ e₀ e e₁ e₂ : Executor Unit,
    Entrypoint forgedModule Host.empty (.new () none none) (.ok [] store) ∧
      (Executor.fresh store forgedModule.sourcePc).pushParams [.funcRef 21] = some e₀ ∧
      (vm forgedModule Host.empty).Steps e₀ e ∧ e.ip = 14 ∧ e.valueStack = [0, 21] ∧
      e.store.tables 0 = some ⟨[21]⟩ ∧ e.callStack.length < N_MAX_RECURSION_DEPTH ∧
      (vm forgedModule Host.empty).step e = .next e₁ ∧ e₁.ip = 21 ∧
      (vm forgedModule Host.empty).step e₁ = .halt (.trapped .unreachableCodeReached e₂) :=
  ⟨_, _, _, _, _, ⟨_, Machine.halts_of_run (n := 6) rfl, rfl⟩, rfl, Machine.steps_of_run (n := 8) rfl,
    rfl, rfl, rfl, by decide, rfl, rfl, rfl⟩

/-- References that are forged are called: the run goes on at the address, in the middle of a function. -/
theorem not_indirectCalls_typed :
    ¬ ∀ (policy : FuelPolicy) (config : CompilationConfig) (wasm : WasmModule) (m : RwasmModule), wasm.Valid →
      RwasmModule.compile policy config wasm = .ok m →
      ∃ (p₀ p q : ModuleParser) (vals : List Value) (l : Layout),
        l.Describes policy config wasm p₀ q (p.context policy config) vals m ∧
        ∀ (T : Type) (host : Host T) (context : T) (store : Store T) (params : List Value)
            (e₀ e : Executor T),
          Entrypoint m host (.new context none none) (.ok [] store) →
          (Executor.fresh store m.sourcePc).pushParams params = some e₀ → (vm m host).Steps e₀ e →
          ∀ tail signature table k below entity, Executor.Indirect m e.ip tail signature table →
            e.valueStack = k :: below → e.store.tables table = some entity →
            tail = true ∨ e.callStack.length < N_MAX_RECURSION_DEPTH →
              (∃ f, l.Enters m host e f) ∨
              (∃ e', (vm m host).step e = .halt (.trapped .tableOutOfBounds e')) ∨
              (∃ e', (vm m host).step e = .halt (.trapped .indirectCallToNull e')) ∨
              ∃ e₁ e₂, (vm m host).step e = .next e₁ ∧
                (vm m host).step e₁ = .halt (.trapped .badSignature e₂) := by
  intro all
  obtain ⟨p₀, p, q, vals, l, -, outcome⟩ := all _ _ _ _ forgedWasm_valid forgedWasm_compiled
  obtain ⟨store, e₀, e, e₁, e₂, entrypoint, pushed, steps, ip, stack, there, room, next, -, trap⟩ :=
    forgedModule_run
  have call : Executor.Indirect forgedModule e.ip false 1 0 := by
    rw [ip]
    exact ⟨rfl, rfl⟩
  have ends := outcome Unit Host.empty () store _ e₀ e entrypoint pushed steps _ _ _ _ _ _ call stack there
    (.inr room)
  rcases ends with ⟨f, e', e'', next', -, on, -⟩ | ⟨e', halt⟩ | ⟨e', halt⟩ | ⟨e', e'', next', halt⟩
  · cases next.symm.trans next'
    cases trap.symm.trans on
  · cases next.symm.trans halt
  · cases next.symm.trans halt
  · cases next.symm.trans next'
    cases trap.symm.trans halt

end Rwasm
