import Rwasm.Vm.Executor

/-!
# Function types

The errors of the compiler (`compiler/error.rs`) and the function types of a module
(`compiler/func_type_registry.rs`). The registry keeps each type twice, as declared and with every
64-bit value replaced by its two limbs, and gives structurally equal types one signature.
-/

namespace Rwasm

/-- The errors of the compiler (`CompilationError`). -/
inductive CompilationError where
  | branchOffsetOutOfBounds
  | blockFuelOutOfBounds
  | notSupportedExtension
  | dropKeepOutOfBounds
  | branchTableTargetsOutOfBounds
  | malformedWasmBinary
  | notSupportedImportType
  | notSupportedFuncType
  | unresolvedImportFunction
  | malformedImportFunctionType
  | nonDefaultMemoryIndex
  | constEvaluationFailed
  | notSupportedLocalType
  | notSupportedGlobalType
  | maxReadonlyDataReached
  | missingEntrypoint
  | malformedFuncType
  | memoryOutOfBounds
  | tableOutOfBounds
  | startSectionsAreNotAllowed
  deriving DecidableEq, Repr

/-- How a compilation fails: with an error, or at an assertion of the source. -/
inductive CompilationFailure where
  | error (e : CompilationError)
  | panic
  deriving DecidableEq, Repr

/-- A compilation step. -/
abbrev Compile := Except CompilationFailure

namespace Compile

variable {α β : Type}

/-- A compilation that ends with an error. -/
def fail (e : CompilationError) : Compile α :=
  .error (.error e)

/-- A compilation that panics. -/
def panic : Compile α :=
  .error .panic

/-- `unwrap` and the assertions of the source. -/
def unwrap : Option α → Compile α
  | some a => .ok a
  | none => panic

/-- A sequence of two steps succeeds when both do. -/
lemma bind_ok {x : Compile α} {f : α → Compile β} {b : β} :
    (x >>= f) = .ok b ↔ ∃ a, x = .ok a ∧ f a = .ok b := by
  cases x with
  | error e => simp [bind, Except.bind]
  | ok a => simp [bind, Except.bind]

/-- Unwrapping gives what is there. -/
@[simp] lemma unwrap_ok {x : Option α} {a : α} : unwrap x = .ok a ↔ x = some a := by
  cases x <;> simp [unwrap, panic]

/-- An error is no result. -/
@[simp] lemma fail_ne_ok {e : CompilationError} {a : α} : (fail e : Compile α) ≠ .ok a := nofun

/-- A panic is no result. -/
@[simp] lemma panic_ne_ok {a : α} : (panic : Compile α) ≠ .ok a := nofun

end Compile

/-- A function type. -/
structure FuncType where
  params : List ValType
  results : List ValType
  deriving DecidableEq, Repr

/-- The type of a block (`wasmparser::BlockType`). -/
inductive BlockType where
  | empty
  | type (t : ValType)
  | funcType (idx : Nat)
  deriving DecidableEq, Repr

/-- A list of types with every 64-bit type replaced by two slots. -/
def expandTypes (ts : List ValType) : List ValType :=
  ts.flatMap fun
    | .i64 | .f64 => [.i32, .i32]
    | t => [t]

/-- The expansion has a type for each slot. -/
@[simp] lemma length_expandTypes (ts : List ValType) : (expandTypes ts).length = slotCount ts := by
  induction ts with
  | nil => rfl
  | cons t ts ih =>
    have cons : slotCount (t :: ts) = t.slots + slotCount ts := by simp [slotCount]
    rw [cons, ← ih]
    cases t <;> simp [expandTypes, ValType.slots] <;> omega

/-- The registry (`FuncTypeRegistry`). -/
structure FuncTypeRegistry where
  originalFuncTypes : List FuncType := []
  funcTypes : List FuncType := []
  originalSignatures : List Nat := []

namespace FuncTypeRegistry

/-- `resolve_func_type`: the type over slots. -/
def resolveFuncType (registry : FuncTypeRegistry) (idx : Nat) : Compile FuncType :=
  .unwrap registry.funcTypes[idx]?

/-- `resolve_original_func_type`: the type as declared. -/
def resolveOriginalFuncType (registry : FuncTypeRegistry) (idx : Nat) : Compile FuncType :=
  .unwrap registry.originalFuncTypes[idx]?

/-- `resolve_func_type_signature`. -/
def resolveFuncTypeSignature (registry : FuncTypeRegistry) (idx : Nat) : Compile Nat :=
  .unwrap registry.originalSignatures[idx]?

/-- `alloc_func_type`; vectors are refused. -/
def allocFuncType (registry : FuncTypeRegistry) (funcType : FuncType) :
    Compile FuncTypeRegistry :=
  if .v128 ∈ funcType.params ∨ .v128 ∈ funcType.results then
    .fail .notSupportedFuncType
  else
    .ok {
      originalFuncTypes := registry.originalFuncTypes ++ [funcType]
      funcTypes := registry.funcTypes ++
        [⟨expandTypes funcType.params, expandTypes funcType.results⟩]
      originalSignatures := registry.originalSignatures ++
        [registry.originalFuncTypes.idxOf funcType] }

/-- `new`: allocates the types of a type section. -/
def new (funcTypes : List FuncType) : Compile FuncTypeRegistry :=
  funcTypes.foldlM allocFuncType {}

/-- `resolve_func_params_len_type_by_block`. -/
def resolveFuncParamsLenTypeByBlock (registry : FuncTypeRegistry) (blockType : BlockType) :
    Compile Nat :=
  match blockType with
  | .funcType idx => do
    let funcType ← registry.resolveFuncType idx
    return funcType.params.length
  | .empty | .type _ => return 0

/-- `resolve_func_results_len_type_by_block`. -/
def resolveFuncResultsLenTypeByBlock (registry : FuncTypeRegistry) (blockType : BlockType) :
    Compile Nat :=
  match blockType with
  | .funcType idx => do
    let funcType ← registry.resolveFuncType idx
    return funcType.results.length
  | .type t => return match t with | .i64 | .f64 => 2 | _ => 1
  | .empty => return 0

/-- The registry knows the types of a section, each of them under the place of the first one that is equal
to it. -/
structure Registers (registry : FuncTypeRegistry) (types : List FuncType) : Prop where
  originalFuncTypes : registry.originalFuncTypes = types
  originalSignatures : registry.originalSignatures = types.map fun type => types.idxOf type

section Registers

variable {registry registry' : FuncTypeRegistry} {types : List FuncType}

/-- A type is registered behind those before it, which keep their signatures. -/
lemma Registers.alloc {funcType : FuncType} (h : registry.Registers types)
    (allocated : registry.allocFuncType funcType = .ok registry') :
    registry'.Registers (types ++ [funcType]) := by
  unfold allocFuncType at allocated
  split at allocated
  · cases allocated
  cases allocated
  have kept : ∀ type ∈ types, types.idxOf type = (types ++ [funcType]).idxOf type :=
    fun type mem => (List.idxOf_append_of_mem mem).symm
  have last : types.idxOf funcType = (types ++ [funcType]).idxOf funcType := by
    by_cases mem : funcType ∈ types
    · exact kept funcType mem
    · rw [List.idxOf_append_of_notMem mem, List.idxOf_of_notMem mem, List.idxOf_cons_self]
      rfl
  constructor
  · rw [h.originalFuncTypes]
  · rw [h.originalFuncTypes, h.originalSignatures, List.map_append, List.map_congr_left kept, last]
    rfl

/-- A section of types. -/
lemma Registers.foldlM {types' : List FuncType} (h : registry.Registers types)
    (allocated : types'.foldlM allocFuncType registry = .ok registry') :
    registry'.Registers (types ++ types') := by
  induction types' generalizing registry types with
  | nil =>
    cases allocated
    rwa [List.append_nil]
  | cons type types' ih =>
    rw [List.foldlM_cons, Compile.bind_ok] at allocated
    obtain ⟨next, first, rest⟩ := allocated
    rw [List.append_cons]
    exact ih (h.alloc first) rest

/-- The signature of a type is the place of the first one that is equal to it. -/
lemma Registers.signature (h : registry.Registers types) {idx signature : Nat}
    (found : registry.resolveFuncTypeSignature idx = .ok signature) :
    ∃ type, types[idx]? = some type ∧ signature = types.idxOf type := by
  rw [resolveFuncTypeSignature, Compile.unwrap_ok, h.originalSignatures, List.getElem?_map,
    Option.map_eq_some_iff] at found
  obtain ⟨type, found, rfl⟩ := found
  exact ⟨type, found, rfl⟩

/-- Each type of the section has a signature. -/
lemma Registers.resolves (h : registry.Registers types) {idx : Nat} {type : FuncType}
    (there : types[idx]? = some type) :
    registry.resolveFuncTypeSignature idx = .ok (types.idxOf type) := by
  rw [resolveFuncTypeSignature, Compile.unwrap_ok, h.originalSignatures, List.getElem?_map, there, Option.map_some]

/-- Types have the same signature exactly when they are equal. -/
lemma Registers.signature_eq_iff (h : registry.Registers types) {idx idx' signature signature' : Nat}
    (found : registry.resolveFuncTypeSignature idx = .ok signature)
    (found' : registry.resolveFuncTypeSignature idx' = .ok signature') :
    signature = signature' ↔ types[idx]? = types[idx']? := by
  obtain ⟨type, there, rfl⟩ := h.signature found
  obtain ⟨type', there', rfl⟩ := h.signature found'
  rw [there, there', Option.some_inj]
  exact List.idxOf_inj (List.mem_of_getElem? there)

end Registers

end FuncTypeRegistry

end Rwasm
