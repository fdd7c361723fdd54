import Rwasm.Compiler.Emission
import Rwasm.Wasm.Typing

/-!
# The emulated stack

The translator keeps the types of the values on the stack, and the number of the slots they take. On typed
code, both are those of the validation.
-/

namespace Rwasm

open Opcode

/-- What a translation reads of the module is what the module is validated with. -/
structure Context.Agrees (cx : Context) (Γ : Typing) : Prop where
  original : cx.funcTypeRegistry.originalFuncTypes = Γ.types
  slots : cx.funcTypeRegistry.funcTypes = Γ.types.map fun type =>
    ⟨expandTypes type.params, expandTypes type.results⟩
  callees : ∀ func type, Γ.callees func = some type →
    ∃ idx, cx.compiledFuncs[func]? = some idx ∧ Γ.types[idx]? = some type
  globals : cx.globals.map GlobalType.contentType = Γ.globals
  tables : cx.tables.map TableType.elementType = Γ.tables
  snippets : cx.withCodeSnippets = true

namespace Context.Agrees

variable {cx : Context} {Γ : Typing}

/-- A type of the module is found under its index. -/
lemma resolveOriginal (agrees : cx.Agrees Γ) {idx : Nat} {type : FuncType}
    (found : Γ.types[idx]? = some type) :
    cx.funcTypeRegistry.resolveOriginalFuncType idx = .ok type := by
  rw [FuncTypeRegistry.resolveOriginalFuncType, agrees.original, found]
  rfl

/-- So is the same type on slots. -/
lemma resolveFuncType (agrees : cx.Agrees Γ) {idx : Nat} {type : FuncType}
    (found : Γ.types[idx]? = some type) :
    cx.funcTypeRegistry.resolveFuncType idx = .ok ⟨expandTypes type.params, expandTypes type.results⟩ := by
  rw [FuncTypeRegistry.resolveFuncType, agrees.slots, List.getElem?_map, found]
  rfl

/-- The slots of the parameters and of the results of a block. -/
lemma blockLens (agrees : cx.Agrees Γ) {type : BlockType} {ps rs : List ValType}
    (typed : Γ.blockType type = some ⟨ps, rs⟩) :
    cx.funcTypeRegistry.resolveFuncParamsLenTypeByBlock type = .ok (slotCount ps) ∧
      cx.funcTypeRegistry.resolveFuncResultsLenTypeByBlock type = .ok (slotCount rs) := by
  cases type with
  | empty =>
    cases typed
    exact ⟨rfl, rfl⟩
  | type t =>
    cases typed
    refine ⟨rfl, ?_⟩
    cases t <;> rfl
  | funcType idx =>
    have resolved := agrees.resolveFuncType typed
    constructor
    · rw [FuncTypeRegistry.resolveFuncParamsLenTypeByBlock, resolved, ← length_expandTypes]
      rfl
    · rw [FuncTypeRegistry.resolveFuncResultsLenTypeByBlock, resolved, ← length_expandTypes]
      rfl

/-- The types of the parameters and of the results of a block. -/
lemma blockTypes (agrees : cx.Agrees Γ) {type : BlockType} {ps rs : List ValType}
    (typed : Γ.blockType type = some ⟨ps, rs⟩) :
    InstructionTranslator.blockParams cx type = .ok ps ∧
      InstructionTranslator.blockResults cx type = .ok rs := by
  cases type with
  | empty | type =>
    cases typed
    exact ⟨rfl, rfl⟩
  | funcType idx =>
    have resolved := agrees.resolveOriginal typed
    constructor
    · rw [InstructionTranslator.blockParams, resolved]
      rfl
    · rw [InstructionTranslator.blockResults, resolved]
      rfl

end Context.Agrees

/-- A compilation that succeeds has a result. -/
lemma Compile.exists_of_isOk {α : Type} {x : Compile α} (h : x.isOk = true) : ∃ a, x = .ok a := by
  cases x with
  | error => cases h
  | ok a => exact ⟨a, rfl⟩

/-- No types take no slots. -/
@[simp] lemma slotCount_nil : slotCount [] = 0 := rfl

/-- The slots of the first type and of the rest. -/
@[simp] lemma slotCount_cons {t : ValType} {ts : List ValType} :
    slotCount (t :: ts) = t.slots + slotCount ts := by
  rw [slotCount, List.map_cons, List.sum_cons]
  rfl

/-- The slots of two lists of types. -/
@[simp] lemma slotCount_append {ts us : List ValType} :
    slotCount (ts ++ us) = slotCount ts + slotCount us := by
  rw [slotCount, List.map_append, List.sum_append]
  rfl

/-- The order of the types does not matter for their slots. -/
@[simp] lemma slotCount_reverse {ts : List ValType} : slotCount ts.reverse = slotCount ts := by
  rw [slotCount, List.map_reverse, List.sum_reverse]
  rfl

namespace InstructionTranslator

variable {cx : Context} {Γ : Typing} {t t' : InstructionTranslator} {type : ValType}
  {ts us base : List ValType} {n : Nat}

/-- The emulated height. -/
def height (t : InstructionTranslator) : Nat :=
  t.stackHeight.height

/-- The types `ts` on top of the emulated stack are replaced by `us`, and the height follows. -/
structure Retypes (t t' : InstructionTranslator) (ts us base : List ValType) : Prop where
  types : t'.stackTypes = us ++ base
  height : t'.height + slotCount ts = t.height + slotCount us

/-! ## The steps of a visit -/

/-- Popping slots lowers the height and leaves the types. -/
lemma popN_height (h : t.popN n = .ok t') : t'.stackTypes = t.stackTypes ∧ n + t'.height = t.height :=
  ⟨(popN_stack h).1, (popN_stack h).2.1⟩

/-- Popping the slots of a type lowers the height and leaves the types. -/
lemma popHeightOf_height (h : t.popHeightOf type = .ok t') :
    t'.stackTypes = t.stackTypes ∧ ValueStackHeight.slots type + t'.height = t.height :=
  popN_height h

/-- Popping a type leaves the height. -/
lemma popType_height (h : t.popType = .ok (type, t')) :
    t.stackTypes = type :: t'.stackTypes ∧ t'.height = t.height := by
  refine ⟨popType_stackTypes h, ?_⟩
  unfold popType at h
  split at h
  · cases h
    rfl
  · cases h

/-- A raised charge leaves types and height. -/
lemma bumpFuelConsumption_height (h : t.bumpFuelConsumption cx n = .ok t') :
    t'.stackTypes = t.stackTypes ∧ t'.height = t.height :=
  ⟨(bumpFuelConsumption_stack h).1, congrArg ValueStackHeight.height (bumpFuelConsumption_stack h).2⟩

/-- Popping expected types leaves the height. -/
lemma expectTypes_height (h : expectTypes ts t = .ok t') :
    t.stackTypes = ts ++ t'.stackTypes ∧ t'.height = t.height := by
  induction ts generalizing t with
  | nil =>
    cases h
    exact ⟨rfl, rfl⟩
  | cons type ts ih =>
    obtain ⟨⟨popped, t₁⟩, h₁, h⟩ := Compile.bind_ok.mp h
    obtain ⟨types₁, height₁⟩ := popType_height h₁
    dsimp only at h
    split at h
    next same =>
      obtain ⟨types, height⟩ := ih h
      refine ⟨?_, height.trans height₁⟩
      rw [types₁, types, same, List.cons_append]
    · cases h

/-- Pushing slots raises the height. -/
@[simp] lemma height_pushN : (t.pushN n).height = t.height + n := rfl

/-- Pushing the slots of a type raises the height by them. -/
@[simp] lemma height_pushHeightOf :
    (t.pushHeightOf type).height = t.height + ValueStackHeight.slots type := rfl

/-- Pushing a type leaves the height. -/
@[simp] lemma height_pushType : (t.pushType type).height = t.height := rfl

/-- Emitting leaves the height. -/
@[simp] lemma height_emit {ops : List Opcode} : (t.emit ops).height = t.height := rfl

/-- Pushing the slots of a type leaves the types. -/
@[simp] lemma stackTypes_pushHeightOf : (t.pushHeightOf type).stackTypes = t.stackTypes := rfl

/-- Pushing a type puts it on top. -/
@[simp] lemma stackTypes_pushType : (t.pushType type).stackTypes = type :: t.stackTypes := rfl

/-- Emitting leaves the types. -/
@[simp] lemma stackTypes_emit {ops : List Opcode} : (t.emit ops).stackTypes = t.stackTypes := rfl

/-- A word takes one slot. -/
@[simp] lemma slots_i32 : ValType.slots .i32 = 1 := rfl

/-- So it does for the emulated height. -/
@[simp] lemma heightSlots_i32 : ValueStackHeight.slots .i32 = 1 := rfl

/-- The emulated height counts the slots of a type, vectors apart. -/
lemma slots_eq (narrow : type ≠ .v128) : ValueStackHeight.slots type = type.slots := by
  cases type <;> first | rfl | exact absurd rfl narrow

/-! ## Operators over values -/

/-- A load replaces an address by the loaded value. -/
lemma translateLoad_retypes {op : LoadOperator} {offset : Nat} (live : t.reachable = true)
    (narrow : op.loadedType ≠ .v128) (types : t.stackTypes = .i32 :: base)
    (h : t.translateLoad cx op offset = .ok t') : t.Retypes t' [.i32] [op.loadedType] base := by
  simp only [translateLoad, translateIfReachable, live, if_true, Compile.bind_ok, Prod.exists] at h
  obtain ⟨t₁, h₁, type, t₂, h₂, t₃, h₃, t₄, h₄, h⟩ := h
  cases h
  obtain ⟨types₁, height₁⟩ := bumpFuelConsumption_height h₁
  obtain ⟨types₂, height₂⟩ := popType_height h₂
  obtain ⟨types₃, height₃⟩ := popHeightOf_height h₃
  obtain ⟨types₄, height₄⟩ := popN_height h₄
  rw [types₁, types] at types₂
  cases types₂
  rw [height_pushHeightOf, slots_eq narrow] at height₄
  rw [height_pushN, heightSlots_i32] at height₃
  refine ⟨by rw [stackTypes_emit, stackTypes_pushType, types₄]; exact congrArg _ types₃, ?_⟩
  simp only [height_emit, height_pushType, slotCount_cons, slotCount_nil, ValType.slots] at height₃ height₄ ⊢
  omega

/-- A store takes the address and the value. -/
lemma translateStore_retypes {op : StoreOperator} {offset : Nat} (live : t.reachable = true)
    (narrow : op.storedType ≠ .v128) (types : t.stackTypes = op.storedType :: .i32 :: base)
    (h : t.translateStore cx op offset = .ok t') : t.Retypes t' [op.storedType, .i32] [] base := by
  simp only [translateStore, translateIfReachable, live, if_true, Compile.bind_ok, Prod.exists] at h
  obtain ⟨t₁, h₁, value, t₂, h₂, t₃, h₃, address, t₄, h₄, t₅, h₅, t₆, h₆, h⟩ := h
  cases h
  obtain ⟨types₁, height₁⟩ := bumpFuelConsumption_height h₁
  obtain ⟨types₂, height₂⟩ := popType_height h₂
  obtain ⟨types₃, height₃⟩ := popHeightOf_height h₃
  obtain ⟨types₄, height₄⟩ := popType_height h₄
  obtain ⟨types₅, height₅⟩ := popHeightOf_height h₅
  obtain ⟨types₆, height₆⟩ := popN_height h₆
  rw [pushN_stackTypes, types₁, types] at types₂
  obtain ⟨rfl, rest⟩ := List.cons.inj types₂
  rw [types₃, ← rest] at types₄
  obtain ⟨rfl, rest⟩ := List.cons.inj types₄
  rw [slots_eq narrow] at height₃
  rw [heightSlots_i32] at height₅
  refine ⟨types₆.trans (types₅.trans rest.symm), ?_⟩
  simp only [height_emit, height_pushN, slotCount_cons, slotCount_nil, slots_i32] at height₂ height₅ ⊢
  omega

/-- A conversion replaces its input by its output. -/
lemma translateConversion_retypes {input output : ValType} {ops : List Opcode} (live : t.reachable = true)
    (narrow : input ≠ .v128 ∧ output ≠ .v128) (types : t.stackTypes = input :: base)
    (h : t.translateConversion cx input output ops n = .ok t') : t.Retypes t' [input] [output] base := by
  simp only [translateConversion, translateIfReachable, live, if_true, Compile.bind_ok, Prod.exists] at h
  obtain ⟨t₁, h₁, type, t₂, h₂, t₃, h₃, t₄, h₄, h⟩ := h
  cases h
  obtain ⟨types₁, height₁⟩ := bumpFuelConsumption_height h₁
  obtain ⟨types₂, height₂⟩ := popType_height h₂
  obtain ⟨types₃, height₃⟩ := popHeightOf_height h₃
  obtain ⟨types₄, height₄⟩ := popN_height h₄
  rw [pushN_stackTypes, types₁, types] at types₂
  cases types₂
  rw [slots_eq narrow.1] at height₃
  rw [height_pushHeightOf, slots_eq narrow.2] at height₄
  refine ⟨types₄.trans types₃, ?_⟩
  simp only [height_emit, height_pushN, height_pushType, slotCount_cons, slotCount_nil] at height₂ height₃ ⊢
  omega

/-- So does a reinterpretation. -/
lemma visitReinterpret_retypes {input output : ValType} (live : t.reachable = true)
    (narrow : input ≠ .v128 ∧ output ≠ .v128) (types : t.stackTypes = input :: base)
    (h : t.visitReinterpret cx input output = .ok t') : t.Retypes t' [input] [output] base := by
  simp only [visitReinterpret, translateIfReachable, live, if_true, Compile.bind_ok, Prod.exists] at h
  obtain ⟨type, t₁, h₁, t₂, h₂, t₃, h₃, h⟩ := h
  cases h
  obtain ⟨types₁, height₁⟩ := popType_height h₁
  obtain ⟨types₂, height₂⟩ := bumpFuelConsumption_height h₂
  obtain ⟨types₃, height₃⟩ := popHeightOf_height h₃
  rw [types] at types₁
  cases types₁
  rw [slots_eq narrow.1] at height₃
  refine ⟨types₃.trans (congrArg _ types₂), ?_⟩
  simp only [height_pushHeightOf, height_pushType, slotCount_cons, slotCount_nil, slots_eq narrow.2]
    at height₃ ⊢
  omega

/-- A binary operator replaces two operands by one of their type. -/
lemma translateBinary_retypes {ops : List Opcode} (live : t.reachable = true) (narrow : type ≠ .v128)
    (types : t.stackTypes = type :: type :: base) (h : t.translateBinary cx ops n = .ok t') :
    t.Retypes t' [type, type] [type] base := by
  simp only [translateBinary, translateIfReachable, live, if_true, Compile.bind_ok, Prod.exists] at h
  obtain ⟨t₁, h₁, rhs, t₂, h₂, lhs, t₃, h₃, t₄, h₄, t₅, h₅, t₆, h₆, h⟩ := h
  cases h
  obtain ⟨types₁, height₁⟩ := bumpFuelConsumption_height h₁
  obtain ⟨types₂, height₂⟩ := popType_height h₂
  obtain ⟨types₃, height₃⟩ := popType_height h₃
  obtain ⟨types₄, height₄⟩ := popHeightOf_height h₄
  obtain ⟨types₅, height₅⟩ := popHeightOf_height h₅
  obtain ⟨types₆, height₆⟩ := popN_height h₆
  rw [types₁, types] at types₂
  obtain ⟨rfl, rest⟩ := List.cons.inj types₂
  rw [← rest] at types₃
  obtain ⟨rfl, rest⟩ := List.cons.inj types₃
  refine ⟨types₆.trans (types₅.trans (types₄.trans (congrArg _ rest.symm))), ?_⟩
  simp only [height_emit, height_pushN, height_pushType, height_pushHeightOf, slotCount_cons, slotCount_nil,
    slots_eq narrow] at height₄ height₅ height₆ ⊢
  omega

/-- A comparison replaces two operands by a word. -/
lemma translateBinaryCompare_retypes {ops : List Opcode} (live : t.reachable = true) (narrow : type ≠ .v128)
    (types : t.stackTypes = type :: type :: base) (h : t.translateBinaryCompare cx ops n = .ok t') :
    t.Retypes t' [type, type] [.i32] base := by
  simp only [translateBinaryCompare, translateIfReachable, live, if_true, Compile.bind_ok, Prod.exists] at h
  obtain ⟨t₁, h₁, rhs, t₂, h₂, lhs, t₃, h₃, t₄, h₄, t₅, h₅, t₆, h₆, h⟩ := h
  cases h
  obtain ⟨types₁, height₁⟩ := bumpFuelConsumption_height h₁
  obtain ⟨types₂, height₂⟩ := popType_height h₂
  obtain ⟨types₃, height₃⟩ := popType_height h₃
  obtain ⟨types₄, height₄⟩ := popHeightOf_height h₄
  obtain ⟨types₅, height₅⟩ := popHeightOf_height h₅
  obtain ⟨types₆, height₆⟩ := popN_height h₆
  rw [types₁, types] at types₂
  obtain ⟨rfl, rest⟩ := List.cons.inj types₂
  rw [← rest] at types₃
  obtain ⟨rfl, rest⟩ := List.cons.inj types₃
  refine ⟨types₆.trans (types₅.trans (types₄.trans (congrArg _ rest.symm))), ?_⟩
  simp only [height_emit, height_pushN, height_pushType, height_pushHeightOf, slotCount_cons, slotCount_nil,
    slots_eq narrow, slots_i32, heightSlots_i32] at height₄ height₅ height₆ ⊢
  omega

/-- A unary operator keeps the type. -/
lemma translateUnary_retypes {ops : List Opcode} (live : t.reachable = true)
    (types : t.stackTypes = type :: base) (h : t.translateUnary cx ops n = .ok t') :
    t.Retypes t' [type] [type] base := by
  simp only [translateUnary, translateIfReachable, live, if_true, Compile.bind_ok, Prod.exists] at h
  obtain ⟨t₁, h₁, operand, t₂, h₂, t₃, h₃, t₄, h₄, h⟩ := h
  cases h
  obtain ⟨types₁, height₁⟩ := bumpFuelConsumption_height h₁
  obtain ⟨types₂, height₂⟩ := popType_height h₂
  obtain ⟨types₃, height₃⟩ := popHeightOf_height h₃
  obtain ⟨types₄, height₄⟩ := popN_height h₄
  rw [types₁, types] at types₂
  cases types₂
  refine ⟨types₄.trans types₃, ?_⟩
  simp only [height_emit, height_pushN, height_pushType, height_pushHeightOf] at height₃ height₄ ⊢
  omega

/-- A test replaces its operand by a word. -/
lemma translateUnaryCompare_retypes {ops : List Opcode} (live : t.reachable = true) (narrow : type ≠ .v128)
    (types : t.stackTypes = type :: base) (h : t.translateUnaryCompare cx ops n = .ok t') :
    t.Retypes t' [type] [.i32] base := by
  simp only [translateUnaryCompare, translateIfReachable, live, if_true, Compile.bind_ok, Prod.exists] at h
  obtain ⟨t₁, h₁, operand, t₂, h₂, t₃, h₃, t₄, h₄, h⟩ := h
  cases h
  obtain ⟨types₁, height₁⟩ := bumpFuelConsumption_height h₁
  obtain ⟨types₂, height₂⟩ := popType_height h₂
  obtain ⟨types₃, height₃⟩ := popHeightOf_height h₃
  obtain ⟨types₄, height₄⟩ := popN_height h₄
  rw [types₁, types] at types₂
  cases types₂
  refine ⟨types₄.trans types₃, ?_⟩
  simp only [height_emit, height_pushN, height_pushType, height_pushHeightOf, slotCount_cons, slotCount_nil,
    slots_eq narrow, slots_i32, heightSlots_i32] at height₃ height₄ ⊢
  omega

/-- A snippet that is called replaces its parameters by its results. -/
lemma translateToSnippetCall_retypes {s : Snippet} (live : t.reachable = true)
    (snippets : cx.withCodeSnippets = true)
    (types : t.stackTypes = s.definition.origParams.reverse ++ base)
    (h : t.translateToSnippetCall cx s = .ok t') :
    t.Retypes t' s.definition.origParams.reverse s.definition.origResults.reverse base := by
  unfold translateToSnippetCall at h
  rw [if_pos snippets] at h
  simp only [translateIfReachable, live, if_true, Compile.bind_ok] at h
  obtain ⟨t₁, h₁, t₂, h₂, t₃, h₃, h⟩ := h
  cases h
  obtain ⟨types₁, height₁⟩ := bumpFuelConsumption_height h₁
  obtain ⟨types₂, height₂⟩ := popN_height h₂
  obtain ⟨types₃, height₃⟩ := expectTypes_height h₃
  rw [pushN_stackTypes, types₂, types₁, types] at types₃
  have rest : t₃.stackTypes = base := (List.append_cancel_left types₃).symm
  refine ⟨congrArg _ rest, ?_⟩
  rw [height_pushN] at height₃
  show t₃.height + _ = _
  simp only [Snippet.funcType, length_expandTypes, slotCount_reverse] at height₂ height₃ ⊢
  omega

end InstructionTranslator

/-- The types a routine of the translator works on, and the type it leaves. -/
inductive Translation.Typed : Translation → List ValType → ValType → Prop
  | unary {ops n type} :
    Typed (unary ops n) [type] type
  | binary {ops n type} :
    type ≠ .v128 →
    Typed (binary ops n) [type, type] type
  | unaryCompare {ops n type} :
    type ≠ .v128 →
    Typed (unaryCompare ops n) [type] .i32
  | binaryCompare {ops n type} :
    type ≠ .v128 →
    Typed (binaryCompare ops n) [type, type] .i32
  | conversion {input output ops n} :
    input ≠ .v128 ∧ output ≠ .v128 →
    Typed (conversion input output ops n) [input] output
  | reinterpret {input output} :
    input ≠ .v128 ∧ output ≠ .v128 →
    Typed (reinterpret input output) [input] output
  | snippet {s type} :
    s.definition.origResults = [type] →
    Typed (snippet s) s.definition.origParams type

/-- The routine of an operator works on its types. -/
lemma NumericOperator.translation_typed {op : NumericOperator} :
    op.translation.Typed op.signature.1 op.signature.2 := by
  cases op
  all_goals
    first
    | exact .unary
    | exact .binary (by decide)
    | exact .unaryCompare (by decide)
    | exact .binaryCompare (by decide)
    | exact .conversion (by decide)
    | exact .reinterpret (by decide)
    | exact .snippet rfl

namespace InstructionTranslator

variable {cx : Context} {Γ : Typing} {t t' : InstructionTranslator} {type : ValType}
  {ts us base : List ValType} {n : Nat}

/-- A numeric operator leaves its result, where the snippet it is translated to is called. -/
lemma visitNumeric_retypes {op : NumericOperator} (live : t.reachable = true)
    (snippets : ∀ s, op.translation = .snippet s → cx.withCodeSnippets = true)
    (types : t.stackTypes = op.signature.1.reverse ++ base) (h : t.visitNumeric cx op = .ok t') :
    t.Retypes t' op.signature.1.reverse [op.signature.2] base := by
  unfold visitNumeric at h
  have typed := @NumericOperator.translation_typed op
  generalize op.translation = routine at h typed snippets
  generalize op.signature.1 = params at types typed ⊢
  generalize op.signature.2 = result at typed ⊢
  cases typed with
  | unary => exact translateUnary_retypes live types h
  | binary narrow => exact translateBinary_retypes live narrow types h
  | unaryCompare narrow => exact translateUnaryCompare_retypes live narrow types h
  | binaryCompare narrow => exact translateBinaryCompare_retypes live narrow types h
  | conversion narrow => exact translateConversion_retypes live narrow types h
  | reinterpret narrow => exact visitReinterpret_retypes live narrow types h
  | snippet results =>
    have called := translateToSnippetCall_retypes live (snippets _ rfl) types h
    rwa [results] at called

/-- The operators that call snippets have two operands of 64 bits. -/
lemma snippet_params {op : NumericOperator} {M : Meaning} {s : Snippet} (meaning : op.meaning = some M)
    (called : op.translation = .snippet s) : M.params = [.i64, .i64] := by
  cases op <;> cases meaning <;> first | rfl | cases called

/-- A numeric operator leaves its result on the emulated stack, unless it is a comparison whose snippet is not
called: in its place there is what an operand leaves. -/
theorem visitNumeric_retypes_iff {op : NumericOperator} {M : Meaning} (live : t.reachable = true)
    (meaning : op.meaning = some M) (types : t.stackTypes = M.params.reverse ++ base)
    (h : t.visitNumeric cx op = .ok t') :
    t.Retypes t' M.params.reverse [M.result] base ↔
      cx.withCodeSnippets = true ∨ ∀ s, op.translation = .snippet s → M.result = .i64 := by
  have retypes : (∀ s, op.translation = .snippet s → cx.withCodeSnippets = true) →
      t.Retypes t' M.params.reverse [M.result] base := by
    intro snippets
    have typed := NumericOperator.signature_eq meaning
    have whole := @visitNumeric_retypes _ _ _ base op live snippets (by rw [typed]; exact types) h
    rwa [typed] at whole
  by_cases snippets : cx.withCodeSnippets = true
  · exact iff_of_true (retypes fun _ _ => snippets) (.inl snippets)
  · -- without snippets the operator goes the way of a binary one, which keeps the type of its operands
    have inlined : ∀ s, op.translation = .snippet s → t.Retypes t' [.i64, .i64] [.i64] base := by
      intro s called
      unfold visitNumeric translateToSnippetCall at h
      rw [called] at h
      dsimp only at h
      rw [if_neg snippets] at h
      rw [snippet_params meaning called] at types
      exact translateBinary_retypes live (by rintro ⟨⟩) types h
    constructor
    · intro retypes
      refine .inr fun s called => ?_
      have same := (inlined s called).types
      rw [retypes.types] at same
      exact (List.cons.inj same).1
    · rintro (on | results)
      · exact absurd on snippets
      · cases translated : op.translation with
        | snippet s =>
          rw [snippet_params meaning translated, results s translated]
          exact inlined s translated
        | _ =>
          refine retypes fun s called => ?_
          cases translated.symm.trans called

/-- The translation of a function that takes and returns a number of 64 bits. -/
def wideContext (snippets : Bool) : Context where
  costs := ⟨1, 1, 1, 1, 1, fun _ => 0⟩
  withConsumeFuel := true
  withCodeSnippets := snippets
  funcTypeRegistry := ⟨[⟨[.i64], [.i64]⟩], [⟨[.i32, .i32], [.i32, .i32]⟩], [0]⟩
  compiledFuncs := [0]

/-- Two numbers of 64 bits on the emulated stack. -/
def wideOperands : InstructionTranslator where
  controlFrames := [.block 0 ⟨.empty, 0, none, 0⟩]
  stackTypes := [.i64, .i64]
  stackHeight := ⟨4, 4⟩

/-- Without snippets, the comparison leaves two slots where its result has one. -/
theorem visitNumeric_retypes_iff_i64Eq :
    ∃ t', wideOperands.visitNumeric (wideContext false) .i64Eq = .ok t' ∧
      ¬ wideOperands.Retypes t' [.i64, .i64] [.i32] [] := by
  obtain ⟨t', h⟩ := Compile.exists_of_isOk
    (show (wideOperands.visitNumeric (wideContext false) .i64Eq).isOk = true by decide +kernel)
  refine ⟨t', h, fun retypes => ?_⟩
  have exact' := @visitNumeric_retypes_iff (wideContext false) _ _ [] .i64Eq _ rfl rfl rfl h
  rcases exact'.mp retypes with on | results
  · cases on
  · cases results .i64Eq rfl

/-- `i32.wrap_i64` replaces a pair of words by one. -/
lemma visitI32WrapI64_retypes (live : t.reachable = true) (types : t.stackTypes = .i64 :: base)
    (h : t.visitI32WrapI64 cx = .ok t') : t.Retypes t' [.i64] [.i32] base := by
  simp only [visitI32WrapI64, translateIfReachable, live, if_true, Compile.bind_ok, Prod.exists] at h
  obtain ⟨t₁, h₁, type, t₂, h₂, h⟩ := h
  obtain ⟨types₁, height₁⟩ := bumpFuelConsumption_height h₁
  obtain ⟨types₂, height₂⟩ := popType_height h₂
  obtain ⟨types₃, height₃⟩ := popN_height h
  rw [types₁, types] at types₂
  obtain ⟨rfl, rest⟩ := List.cons.inj types₂
  refine ⟨types₃.trans (congrArg _ rest.symm), ?_⟩
  simp only [height_emit, height_pushType, slotCount_cons, slotCount_nil, ValType.slots] at height₃ ⊢
  omega

/-- A constant pushes its type. -/
lemma visitConst_retypes {ops : List Opcode} (live : t.reachable = true) (types : t.stackTypes = base)
    (h : t.visitConst cx type ops = .ok t') : t.Retypes t' [] [type] base := by
  simp only [visitConst, translateIfReachable, live, if_true, Compile.bind_ok] at h
  obtain ⟨t₁, h₁, h⟩ := h
  cases h
  obtain ⟨types₁, height₁⟩ := bumpFuelConsumption_height h₁
  refine ⟨congrArg _ (types₁.trans types), ?_⟩
  simp only [height_emit, height_pushN, height_pushType, slotCount_cons, slotCount_nil]
  omega

/-- `ref.null` pushes its type. -/
lemma visitRefNull_retypes (live : t.reachable = true) (types : t.stackTypes = base)
    (h : t.visitRefNull cx type = .ok t') : t.Retypes t' [] [type] base := by
  simp only [visitRefNull, translateIfReachable, live, if_true, Compile.bind_ok] at h
  obtain ⟨t₁, h₁, h⟩ := h
  obtain ⟨types₁, height₁⟩ := bumpFuelConsumption_height h₁
  split at h
  all_goals cases h
  all_goals
    refine ⟨congrArg _ (types₁.trans types), ?_⟩
    simp only [height_emit, height_pushN, height_pushType, slotCount_cons, slotCount_nil, ValType.slots]
    omega

/-- The slots of a type are one, or two where it is wide. -/
lemma slots_of_wide (wide : type = .i64 ∨ type = .f64) : type.slots = 2 := by
  rcases wide with rfl | rfl <;> rfl

/-- A type that is not wide takes one slot. -/
lemma slots_of_not_wide (narrow : ¬ (type = .i64 ∨ type = .f64)) : type.slots = 1 := by
  cases type <;> first | rfl | exact absurd (.inl rfl) narrow | exact absurd (.inr rfl) narrow

/-- `drop` takes a value of any type. -/
lemma visitDrop_retypes (live : t.reachable = true) (types : t.stackTypes = type :: base)
    (h : t.visitDrop = .ok t') : t.Retypes t' [type] [] base := by
  simp only [visitDrop, translateIfReachable, live, if_true, Compile.bind_ok, Prod.exists] at h
  obtain ⟨t₁, h₁, item, t₂, h₂, h⟩ := h
  obtain ⟨types₁, height₁⟩ := popN_height h₁
  obtain ⟨types₂, height₂⟩ := popType_height h₂
  rw [types₁, types] at types₂
  obtain ⟨rfl, rest⟩ := List.cons.inj types₂
  split at h
  next wide =>
    obtain ⟨t₃, h₃, h⟩ := Compile.bind_ok.mp h
    cases h
    obtain ⟨types₃, height₃⟩ := popN_height h₃
    refine ⟨types₃.trans rest.symm, ?_⟩
    simp only [height_emit, slotCount_cons, slotCount_nil, slots_of_wide wide] at height₃ ⊢
    omega
  next narrow =>
    cases h
    refine ⟨rest.symm, ?_⟩
    simp only [height_emit, slotCount_cons, slotCount_nil, slots_of_not_wide narrow]
    omega

/-- `select` takes a word and one of two values. -/
lemma visitSelect_retypes (live : t.reachable = true) (types : t.stackTypes = .i32 :: type :: type :: base)
    (h : t.visitSelect cx = .ok t') : t.Retypes t' [.i32, type, type] [type] base := by
  simp only [visitSelect, translateIfReachable, live, if_true, Compile.bind_ok, Prod.exists] at h
  obtain ⟨t₁, h₁, t₂, h₂, cond, t₃, h₃, item, t₄, h₄, h⟩ := h
  obtain ⟨types₁, height₁⟩ := bumpFuelConsumption_height h₁
  obtain ⟨types₂, height₂⟩ := popN_height h₂
  obtain ⟨types₃, height₃⟩ := popType_height h₃
  obtain ⟨types₄, height₄⟩ := popType_height h₄
  rw [pushN_stackTypes, types₂, types₁, types] at types₃
  obtain ⟨rfl, rest⟩ := List.cons.inj types₃
  rw [← rest] at types₄
  obtain ⟨rfl, rest⟩ := List.cons.inj types₄
  rw [height_pushN] at height₃
  -- two slots are gone by now, and a wide selection takes a third one
  split at h
  next wide =>
    obtain ⟨t₅, h₅, h⟩ := Compile.bind_ok.mp h
    cases h
    obtain ⟨types₅, height₅⟩ := popN_height h₅
    refine ⟨types₅.trans rest.symm, ?_⟩
    simp only [height_emit, slotCount_cons, slotCount_nil, slots_of_wide wide, slots_i32]
    omega
  next narrow =>
    cases h
    refine ⟨rest.symm, ?_⟩
    simp only [height_emit, slotCount_cons, slotCount_nil, slots_of_not_wide narrow, slots_i32]
    omega

/-! ## Variables -/

/-- The type of a local, found from the top of the stack. -/
lemma localType {locals : List ValType} {idx : Nat} (found : locals[idx]? = some type) :
    idx < (ts ++ locals.reverse).length ∧
      (ts ++ locals.reverse)[(ts ++ locals.reverse).length - idx - 1]? = some type := by
  obtain ⟨lt, eq⟩ := List.getElem?_eq_some_iff.mp found
  have reached : ts.length ≤ (ts ++ locals.reverse).length - idx - 1 := by
    rw [List.length_append, List.length_reverse]
    omega
  constructor
  · rw [List.length_append, List.length_reverse]
    omega
  · rw [List.getElem?_append_right reached, List.getElem?_reverse (by
      rw [List.length_append, List.length_reverse]; omega), ← found]
    congr 1
    rw [List.length_append, List.length_reverse]
    omega

/-- `local.get` pushes the type of the local. -/
lemma visitLocalGet_retypes {locals : List ValType} {idx : Nat} (live : t.reachable = true)
    (found : locals[idx]? = some type) (types : t.stackTypes = ts ++ locals.reverse)
    (h : t.visitLocalGet cx idx = .ok t') : t.Retypes t' [] [type] (ts ++ locals.reverse) := by
  simp only [visitLocalGet, translateIfReachable, live, if_true, Compile.bind_ok] at h
  obtain ⟨t₁, h₁, depth, hd, value, hv, h⟩ := h
  obtain ⟨types₁, height₁⟩ := bumpFuelConsumption_height h₁
  obtain ⟨inside, there⟩ := @localType _ ts _ _ found
  rw [relativeLocalDepth_eq hd, Compile.unwrap_ok, types₁, types, if_pos (by omega), there] at hv
  cases hv
  cases h
  split
  next wide =>
    refine ⟨congrArg _ (types₁.trans types), ?_⟩
    simp only [height_emit, height_pushN, height_pushType, slotCount_cons, slotCount_nil, slots_of_wide wide]
    omega
  next narrow =>
    refine ⟨congrArg _ (types₁.trans types), ?_⟩
    simp only [height_emit, height_pushN, height_pushType, slotCount_cons, slotCount_nil,
      slots_of_not_wide narrow]
    omega

/-- `local.set` takes a value. -/
lemma visitLocalSet_retypes {idx : Nat} (live : t.reachable = true) (types : t.stackTypes = type :: base)
    (h : t.visitLocalSet cx idx = .ok t') : t.Retypes t' [type] [] base := by
  simp only [visitLocalSet, translateIfReachable, live, if_true, Compile.bind_ok, Prod.exists] at h
  obtain ⟨t₁, h₁, t₂, h₂, value, t₃, h₃, depth, -, h⟩ := h
  obtain ⟨types₁, height₁⟩ := bumpFuelConsumption_height h₁
  obtain ⟨types₂, height₂⟩ := popN_height h₂
  obtain ⟨types₃, height₃⟩ := popType_height h₃
  rw [types₂, types₁, types] at types₃
  obtain ⟨rfl, rest⟩ := List.cons.inj types₃
  split at h
  next wide =>
    obtain ⟨types₄, height₄⟩ := popN_height h
    refine ⟨types₄.trans rest.symm, ?_⟩
    simp only [height_emit, slotCount_cons, slotCount_nil, slots_of_wide wide] at height₄ ⊢
    omega
  next narrow =>
    cases h
    refine ⟨rest.symm, ?_⟩
    simp only [height_emit, slotCount_cons, slotCount_nil, slots_of_not_wide narrow]
    omega

/-- `local.tee` leaves the value where it is. -/
lemma visitLocalTee_retypes {idx : Nat} (live : t.reachable = true) (types : t.stackTypes = type :: base)
    (h : t.visitLocalTee cx idx = .ok t') : t.Retypes t' [type] [type] base := by
  simp only [visitLocalTee, translateIfReachable, live, if_true, Compile.bind_ok] at h
  obtain ⟨t₁, h₁, depth, -, value, -, h⟩ := h
  obtain ⟨types₁, height₁⟩ := bumpFuelConsumption_height h₁
  split at h
  next wide =>
    obtain ⟨t₂, h₂, h⟩ := Compile.bind_ok.mp h
    cases h
    obtain ⟨types₂, height₂⟩ := popN_height h₂
    refine ⟨types₂.trans (types₁.trans types), ?_⟩
    rw [height_pushN] at height₂
    rw [height_emit]
    omega
  next narrow =>
    cases h
    exact ⟨types₁.trans types, by rw [height_emit, height₁]⟩

/-- `global.get` pushes the type of the global. -/
lemma visitGlobalGet_retypes {idx : Nat} {g : GlobalType} (live : t.reachable = true)
    (found : cx.globals[idx]? = some g) (types : t.stackTypes = base)
    (h : t.visitGlobalGet cx idx = .ok t') : t.Retypes t' [] [g.contentType] base := by
  simp only [visitGlobalGet, translateIfReachable, live, if_true, Compile.bind_ok, Context.resolveGlobalType,
    Compile.unwrap_ok] at h
  obtain ⟨t₁, h₁, g', there, h⟩ := h
  obtain ⟨types₁, height₁⟩ := bumpFuelConsumption_height h₁
  cases found.symm.trans there
  split at h
  next wide =>
    cases h
    refine ⟨congrArg _ (types₁.trans types), ?_⟩
    simp only [height_emit, height_pushN, height_pushType, slotCount_cons, slotCount_nil, slots_of_wide wide]
    omega
  next narrow =>
    cases h
    refine ⟨congrArg _ (types₁.trans types), ?_⟩
    simp only [height_emit, height_pushN, height_pushType, slotCount_cons, slotCount_nil,
      slots_of_not_wide narrow]
    omega

/-- `global.set` takes a value of that type. -/
lemma visitGlobalSet_retypes {idx : Nat} {g : GlobalType} (live : t.reachable = true)
    (found : cx.globals[idx]? = some g) (types : t.stackTypes = g.contentType :: base)
    (h : t.visitGlobalSet cx idx = .ok t') : t.Retypes t' [g.contentType] [] base := by
  simp only [visitGlobalSet, translateIfReachable, live, if_true, Compile.bind_ok, Prod.exists,
    Context.resolveGlobalType, Compile.unwrap_ok] at h
  obtain ⟨t₁, h₁, g', there, type, t₂, h₂, t₃, h₃, h⟩ := h
  obtain ⟨types₁, height₁⟩ := bumpFuelConsumption_height h₁
  obtain ⟨types₂, height₂⟩ := popType_height h₂
  obtain ⟨types₃, height₃⟩ := popN_height h₃
  cases found.symm.trans there
  rw [types₁, types] at types₂
  obtain ⟨rfl, rest⟩ := List.cons.inj types₂
  rw [height_emit] at height₃
  split at h
  next wide =>
    obtain ⟨types₄, height₄⟩ := popN_height h
    refine ⟨types₄.trans (types₃.trans rest.symm), ?_⟩
    simp only [height_emit, slotCount_cons, slotCount_nil, slots_of_wide wide] at height₄ ⊢
    omega
  next narrow =>
    cases h
    refine ⟨types₃.trans rest.symm, ?_⟩
    simp only [slotCount_cons, slotCount_nil, slots_of_not_wide narrow]
    omega

/-- `memory.size` pushes a word. -/
lemma visitMemorySize_retypes (live : t.reachable = true) (types : t.stackTypes = base)
    (h : t.visitMemorySize cx = .ok t') : t.Retypes t' [] [.i32] base := by
  simp only [visitMemorySize, translateIfReachable, live, if_true, Compile.bind_ok] at h
  obtain ⟨t₁, h₁, h⟩ := h
  cases h
  obtain ⟨types₁, height₁⟩ := bumpFuelConsumption_height h₁
  refine ⟨congrArg _ (types₁.trans types), ?_⟩
  simp only [height_emit, height_pushN, height_pushType, slotCount_cons, slotCount_nil, slots_i32]
  omega

/-- A call pops the parameters and pushes the results. -/
lemma adjustValueStackForCall_retypes {idx : Nat} {callee : FuncType} (agrees : cx.Agrees Γ)
    (typed : Γ.types[idx]? = some callee) (types : t.stackTypes = callee.params.reverse ++ base)
    (h : t.adjustValueStackForCall cx idx = .ok t') :
    t.Retypes t' callee.params.reverse callee.results.reverse base := by
  simp only [adjustValueStackForCall, Compile.bind_ok] at h
  obtain ⟨slots, hs, t₁, h₁, original, ho, t₂, h₂, h⟩ := h
  cases (agrees.resolveFuncType typed).symm.trans hs
  cases (agrees.resolveOriginal typed).symm.trans ho
  cases h
  obtain ⟨types₁, height₁⟩ := popN_height h₁
  obtain ⟨types₂, height₂⟩ := expectTypes_height h₂
  rw [pushN_stackTypes, types₁, types] at types₂
  have rest : t₂.stackTypes = base := (List.append_cancel_left types₂).symm
  refine ⟨congrArg _ rest, ?_⟩
  rw [height_pushN] at height₂
  show t₂.height + _ = _
  simp only [length_expandTypes, slotCount_reverse] at height₁ height₂ ⊢
  omega

/-- A call replaces the parameters by the results. -/
lemma visitCall_retypes {func : Nat} {callee : FuncType} (agrees : cx.Agrees Γ) (live : t.reachable = true)
    (found : Γ.callees func = some callee) (types : t.stackTypes = callee.params.reverse ++ base)
    (h : t.visitCall cx func = .ok t') : t.Retypes t' callee.params.reverse callee.results.reverse base := by
  obtain ⟨idx, resolved, typed⟩ := agrees.callees func callee found
  simp only [visitCall, translateIfReachable, live, if_true, Compile.bind_ok] at h
  obtain ⟨t₁, h₁, idx', there, t₂, h₂, ops, -, h⟩ := h
  rw [Context.resolveFuncTypeIndex, resolved] at there
  cases there
  cases h
  obtain ⟨types₁, height₁⟩ := bumpFuelConsumption_height h₁
  obtain ⟨types₂, height₂⟩ := adjustValueStackForCall_retypes agrees typed (types₁.trans types) h₂
  refine ⟨types₂, ?_⟩
  rw [height_emit, height₂, height₁]

/-- An indirect call takes the index as well. -/
lemma visitCallIndirect_retypes {idx table : Nat} {callee : FuncType} (agrees : cx.Agrees Γ)
    (live : t.reachable = true) (found : Γ.types[idx]? = some callee)
    (types : t.stackTypes = .i32 :: (callee.params.reverse ++ base))
    (h : t.visitCallIndirect cx idx table = .ok t') :
    t.Retypes t' (.i32 :: callee.params.reverse) callee.results.reverse base := by
  simp only [visitCallIndirect, translateIfReachable, live, if_true, Compile.bind_ok, Prod.exists] at h
  obtain ⟨t₁, h₁, t₂, h₂, type, t₃, h₃, t₄, h₄, signature, -, h⟩ := h
  cases h
  obtain ⟨types₁, height₁⟩ := bumpFuelConsumption_height h₁
  obtain ⟨types₂, height₂⟩ := popN_height h₂
  obtain ⟨types₃, height₃⟩ := popType_height h₃
  rw [types₂, types₁, types] at types₃
  obtain ⟨-, rest⟩ := List.cons.inj types₃
  obtain ⟨types₄, height₄⟩ := adjustValueStackForCall_retypes agrees found rest.symm h₄
  refine ⟨types₄, ?_⟩
  rw [height_emit, slotCount_cons, slots_i32]
  omega

/-- `memory.grow` replaces a word by a word. -/
lemma visitMemoryGrow_retypes (live : t.reachable = true) (types : t.stackTypes = .i32 :: base)
    (h : t.visitMemoryGrow cx = .ok t') : t.Retypes t' [.i32] [.i32] base := by
  simp only [visitMemoryGrow, translateIfReachable, live, if_true, Compile.bind_ok, Prod.exists] at h
  obtain ⟨t₁, h₁, memory, -, popped, t₂, h₂, t₃, h₃, t₄, h₄, h⟩ := h
  cases h
  obtain ⟨types₁, height₁⟩ := bumpFuelConsumption_height h₁
  obtain ⟨types₂, height₂⟩ := popType_height h₂
  obtain ⟨types₃, height₃⟩ := popN_height h₃
  obtain ⟨types₄, height₄⟩ := popN_height h₄
  rw [stackTypes_emit, types₁, types] at types₂
  rw [pushN_stackTypes, stackTypes_pushType, ← types₂] at types₃
  refine ⟨types₄.trans types₃, ?_⟩
  rw [height_emit] at height₂
  rw [height_pushN, height_pushType] at height₃
  rw [height_pushN]
  simp only [slotCount_cons, slotCount_nil, slots_i32]
  omega

/-- `ref.func` pushes a reference. -/
lemma visitRefFunc_retypes {func : Nat} (live : t.reachable = true) (types : t.stackTypes = base)
    (h : t.visitRefFunc cx func = .ok t') : t.Retypes t' [] [.funcRef] base := by
  simp only [visitRefFunc, translateIfReachable, live, if_true, Compile.bind_ok] at h
  obtain ⟨t₁, h₁, h⟩ := h
  cases h
  obtain ⟨types₁, height₁⟩ := bumpFuelConsumption_height h₁
  refine ⟨congrArg _ (types₁.trans types), ?_⟩
  simp only [height_emit, height_pushN, height_pushType, slotCount_cons, slotCount_nil, ValType.slots]
  omega

/-- Popping a number of types leaves the height. -/
lemma popTypes_height (h : popTypes n t = .ok t') :
    (∃ popped, popped.length = n ∧ t.stackTypes = popped ++ t'.stackTypes) ∧ t'.height = t.height := by
  induction n generalizing t with
  | zero =>
    cases h
    exact ⟨⟨[], rfl, rfl⟩, rfl⟩
  | succ n ih =>
    obtain ⟨⟨type, t₁⟩, h₁, h⟩ := Compile.bind_ok.mp h
    obtain ⟨types₁, height₁⟩ := popType_height h₁
    obtain ⟨⟨popped, length, types⟩, height⟩ := ih h
    refine ⟨⟨type :: popped, congrArg Nat.succ length, ?_⟩, height.trans height₁⟩
    rw [types₁, types, List.cons_append]

/-- The types that are popped are the ones that are there. -/
lemma popTypes_types (h : popTypes n t = .ok t') (length : ts.length = n) (types : t.stackTypes = ts ++ base) :
    t'.stackTypes = base := by
  obtain ⟨⟨popped, length', types'⟩, -⟩ := popTypes_height h
  rw [types] at types'
  exact (List.append_inj types' (length.trans length'.symm)).2.symm

/-- A bulk instruction has three operands of a slot each. -/
lemma visitBulk_retypes {ops : Compile (List Opcode)} (live : t.reachable = true) (three : ts.length = 3)
    (slots : slotCount ts = 3) (types : t.stackTypes = ts ++ base) (h : t.visitBulk cx ops = .ok t') :
    t.Retypes t' ts [] base := by
  simp only [visitBulk, translateIfReachable, live, if_true, Compile.bind_ok] at h
  obtain ⟨t₁, h₁, t₂, h₂, code, -, t₃, h₃, t₄, h₄, h⟩ := h
  cases h
  obtain ⟨types₁, height₁⟩ := bumpFuelConsumption_height h₁
  have types₂ := popTypes_types h₂ three (types₁.trans types)
  have height₂ := (popTypes_height h₂).2
  obtain ⟨types₃, height₃⟩ := popN_height h₃
  obtain ⟨types₄, height₄⟩ := popN_height h₄
  refine ⟨types₄.trans (types₃.trans types₂), ?_⟩
  rw [height_pushN] at height₃
  rw [height_emit, slotCount_nil, slots]
  omega

/-- The drop of a segment leaves the operands. -/
lemma visitSegmentDrop_retypes {ops : List Opcode} (live : t.reachable = true) (types : t.stackTypes = base)
    (h : t.visitSegmentDrop cx ops = .ok t') : t.Retypes t' [] [] base := by
  simp only [visitSegmentDrop, translateIfReachable, live, if_true, Compile.bind_ok] at h
  obtain ⟨t₁, h₁, h⟩ := h
  cases h
  obtain ⟨types₁, height₁⟩ := bumpFuelConsumption_height h₁
  exact ⟨types₁.trans types, by rw [height_emit, height₁]⟩

/-- A reference takes one slot. -/
lemma slots_of_ref (ref : type = .funcRef ∨ type = .externRef) : type.slots = 1 := by
  rcases ref with rfl | rfl <;> rfl

/-- `table.get` replaces an index by an element. -/
lemma visitTableGet_retypes {table : Nat} {tableType : TableType} (live : t.reachable = true)
    (found : cx.tables[table]? = some tableType) (slots : tableType.elementType.slots = 1)
    (types : t.stackTypes = .i32 :: base) (h : t.visitTableGet cx table = .ok t') :
    t.Retypes t' [.i32] [tableType.elementType] base := by
  simp only [visitTableGet, translateIfReachable, live, if_true, Compile.bind_ok, Prod.exists,
    Context.resolveTableType, Compile.unwrap_ok] at h
  obtain ⟨t₁, h₁, popped, t₂, h₂, tableType', there, h⟩ := h
  cases found.symm.trans there
  cases h
  obtain ⟨types₁, height₁⟩ := bumpFuelConsumption_height h₁
  obtain ⟨types₂, height₂⟩ := popType_height h₂
  rw [types₁, types] at types₂
  obtain ⟨-, rest⟩ := List.cons.inj types₂
  refine ⟨congrArg _ rest.symm, ?_⟩
  simp only [height_pushType, height_emit, slotCount_cons, slotCount_nil, slots_i32, slots]
  omega

/-- `table.set` takes an element and its index. -/
lemma visitTableSet_retypes {table : Nat} (live : t.reachable = true) (slots : type.slots = 1)
    (types : t.stackTypes = [type, .i32] ++ base) (h : t.visitTableSet cx table = .ok t') :
    t.Retypes t' [type, .i32] [] base := by
  simp only [visitTableSet, translateIfReachable, live, if_true, Compile.bind_ok] at h
  obtain ⟨t₁, h₁, t₂, h₂, t₃, h₃, h⟩ := h
  cases h
  obtain ⟨types₁, height₁⟩ := bumpFuelConsumption_height h₁
  obtain ⟨types₂, height₂⟩ := popN_height h₂
  have types₃ := popTypes_types h₃ rfl (types₂.trans (types₁.trans types))
  have height₃ := (popTypes_height h₃).2
  refine ⟨types₃, ?_⟩
  simp only [height_emit, slotCount_cons, slotCount_nil, slots_i32, slots]
  omega

/-- `table.grow` replaces an element and a number by a word. -/
lemma visitTableGrow_retypes {table : Nat} (live : t.reachable = true) (slots : type.slots = 1)
    (types : t.stackTypes = [.i32, type] ++ base) (h : t.visitTableGrow cx table = .ok t') :
    t.Retypes t' [.i32, type] [.i32] base := by
  simp only [visitTableGrow, translateIfReachable, live, if_true, Compile.bind_ok] at h
  obtain ⟨t₁, h₁, t₂, h₂, tableType, -, t₃, h₃, t₄, h₄, h⟩ := h
  cases h
  obtain ⟨types₁, height₁⟩ := bumpFuelConsumption_height h₁
  have types₂ := popTypes_types h₂ rfl (types₁.trans types)
  have height₂ := (popTypes_height h₂).2
  obtain ⟨types₃, height₃⟩ := popN_height h₃
  obtain ⟨types₄, height₄⟩ := popN_height h₄
  refine ⟨types₄.trans (types₃.trans (congrArg _ types₂)), ?_⟩
  rw [height_pushN, height_emit, height_pushType] at height₃
  simp only [height_pushN, slotCount_cons, slotCount_nil, slots_i32, slots]
  omega

/-- `table.size` pushes a word. -/
lemma visitTableSize_retypes {table : Nat} (live : t.reachable = true) (types : t.stackTypes = base)
    (h : t.visitTableSize cx table = .ok t') : t.Retypes t' [] [.i32] base := by
  simp only [visitTableSize, translateIfReachable, live, if_true, Compile.bind_ok] at h
  obtain ⟨t₁, h₁, h⟩ := h
  cases h
  obtain ⟨types₁, height₁⟩ := bumpFuelConsumption_height h₁
  refine ⟨congrArg _ (types₁.trans types), ?_⟩
  simp only [height_emit, height_pushN, height_pushType, slotCount_cons, slotCount_nil, slots_i32]
  omega

/-- What is beneath the types that are replaced stays. -/
lemma Retypes.frame {ws : List ValType} (h : t.Retypes t' ts us (ws ++ base)) :
    t.Retypes t' (ts ++ ws) (us ++ ws) base := by
  refine ⟨by rw [h.types, List.append_assoc], ?_⟩
  have height := h.height
  simp only [slotCount_append]
  omega

/-- The visit of a typed operator leaves its types on the emulated stack. -/
theorem visitPlain_retypes {op : PlainOperator} {mid : List ValType} (agrees : cx.Agrees Γ)
    (typed : op.HasType Γ ts us) (live : t.reachable = true)
    (types : t.stackTypes = ts ++ (mid ++ Γ.locals.reverse)) (h : t.visitPlain cx op = .ok t') :
    t.Retypes t' ts us (mid ++ Γ.locals.reverse) := by
  cases typed with
  | nop =>
    cases h
    exact ⟨types, rfl⟩
  | call found =>
    rw [List.append_assoc] at types
    exact (visitCall_retypes agrees live found types h).frame
  | callIndirect found =>
    rw [List.cons_append, List.append_assoc] at types
    exact (visitCallIndirect_retypes agrees live found types h).frame
  | drop => exact (visitDrop_retypes live types h).frame
  | select | typedSelect => exact (visitSelect_retypes live types h).frame
  | localGet found =>
    -- the local may be beneath the types that are named
    rw [← List.append_assoc] at types
    have pushed := visitLocalGet_retypes live found types h
    rw [List.append_assoc] at pushed
    exact pushed.frame
  | localSet => exact (visitLocalSet_retypes live types h).frame
  | localTee => exact (visitLocalTee_retypes live types h).frame
  | globalGet found =>
    rw [← agrees.globals, List.getElem?_map, Option.map_eq_some_iff] at found
    obtain ⟨g, there, rfl⟩ := found
    exact (visitGlobalGet_retypes live there types h).frame
  | globalSet found =>
    rw [← agrees.globals, List.getElem?_map, Option.map_eq_some_iff] at found
    obtain ⟨g, there, rfl⟩ := found
    exact (visitGlobalSet_retypes live there types h).frame
  | @load op offset ts =>
    have narrow : op.loadedType ≠ .v128 := by
      cases op <;> decide
    exact (translateLoad_retypes live narrow types h).frame
  | @store op offset ts =>
    have narrow : op.storedType ≠ .v128 := by
      cases op <;> decide
    exact (translateStore_retypes live narrow types h).frame
  | memorySize => exact (visitMemorySize_retypes live types h).frame
  | memoryGrow => exact (visitMemoryGrow_retypes live types h).frame
  | i32Const | i64Const | f32Const | f64Const => exact (visitConst_retypes live types h).frame
  | refNull => exact (visitRefNull_retypes live types h).frame
  | refIsNull ref =>
    have narrow : ∀ {type : ValType}, type = .funcRef ∨ type = .externRef → type ≠ .v128 := by
      rintro type (rfl | rfl)
      all_goals decide
    exact (translateUnaryCompare_retypes live (narrow ref) types h).frame
  | refFunc => exact (visitRefFunc_retypes live types h).frame
  | i32WrapI64 => exact (visitI32WrapI64_retypes live types h).frame
  | numeric =>
    rw [List.append_assoc] at types
    exact (visitNumeric_retypes live (fun _ _ => agrees.snippets) types h).frame
  | memoryInit | memoryCopy | memoryFill | tableInit | tableCopy =>
    exact (@visitBulk_retypes _ _ _ [.i32, .i32, .i32] _ _ live rfl rfl types h).frame
  | dataDrop | elemDrop => exact (visitSegmentDrop_retypes live types h).frame
  | @tableFill table elem ts found ref =>
    have slots : slotCount [.i32, elem, .i32] = 3 := by
      simp only [slotCount_cons, slotCount_nil, slots_i32, slots_of_ref ref]
    exact (@visitBulk_retypes _ _ _ [.i32, elem, .i32] _ _ live rfl slots types h).frame
  | tableGet found ref =>
    rw [← agrees.tables, List.getElem?_map, Option.map_eq_some_iff] at found
    obtain ⟨tableType, there, rfl⟩ := found
    exact (visitTableGet_retypes live there (slots_of_ref ref) types h).frame
  | tableSet found ref => exact (visitTableSet_retypes live (slots_of_ref ref) types h).frame
  | tableGrow found ref => exact (visitTableGrow_retypes live (slots_of_ref ref) types h).frame
  | tableSize => exact (visitTableSize_retypes live types h).frame

end InstructionTranslator

end Rwasm
