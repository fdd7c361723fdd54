import Rwasm.Compiler.Parser
import Rwasm.Compiler.Skeleton
import Rwasm.Isa.Outline
import Rwasm.Vm.Step

/-!
# The declared heights of the expansions

The constants that say how many slots a 64-bit operator needs above its operands, against what its code
does: as the body of a snippet behind its own check, and inlined, against the peak that the translator
records.
-/

namespace Rwasm

open InstructionSet Opcode

/-- The types of the operands of a numeric operator. -/
def NumericOperator.operands : NumericOperator → List ValType
  | i32Eqz | i32Clz | i32Ctz | i32Popcnt | i32Extend8S | i32Extend16S | i64ExtendI32S
  | i64ExtendI32U | f32ConvertI32S | f32ConvertI32U | f64ConvertI32S | f64ConvertI32U
  | f32ReinterpretI32 => [.i32]
  | i64Eqz | i64Clz | i64Ctz | i64Popcnt | i64Extend8S | i64Extend16S | i64Extend32S
  | f32ConvertI64S | f32ConvertI64U | f64ConvertI64S | f64ConvertI64U | f64ReinterpretI64 => [.i64]
  | f32Abs | f32Neg | f32Ceil | f32Floor | f32Trunc | f32Nearest | f32Sqrt | i32TruncF32S
  | i32TruncF32U | i64TruncF32S | i64TruncF32U | f64PromoteF32 | i32ReinterpretF32
  | i32TruncSatF32S | i32TruncSatF32U | i64TruncSatF32S | i64TruncSatF32U => [.f32]
  | f64Abs | f64Neg | f64Ceil | f64Floor | f64Trunc | f64Nearest | f64Sqrt | i32TruncF64S
  | i32TruncF64U | i64TruncF64S | i64TruncF64U | f32DemoteF64 | i64ReinterpretF64
  | i32TruncSatF64S | i32TruncSatF64U | i64TruncSatF64S | i64TruncSatF64U => [.f64]
  | i32Eq | i32Ne | i32LtS | i32LtU | i32GtS | i32GtU | i32LeS | i32LeU | i32GeS | i32GeU | i32Add
  | i32Sub | i32Mul | i32DivS | i32DivU | i32RemS | i32RemU | i32And | i32Or | i32Xor | i32Shl
  | i32ShrS | i32ShrU | i32Rotl | i32Rotr => [.i32, .i32]
  | i64Eq | i64Ne | i64LtS | i64LtU | i64GtS | i64GtU | i64LeS | i64LeU | i64GeS | i64GeU | i64Add
  | i64Sub | i64Mul | i64DivS | i64DivU | i64RemS | i64RemU | i64And | i64Or | i64Xor | i64Shl
  | i64ShrS | i64ShrU | i64Rotl | i64Rotr => [.i64, .i64]
  | f32Eq | f32Ne | f32Lt | f32Gt | f32Le | f32Ge | f32Add | f32Sub | f32Mul | f32Div | f32Min
  | f32Max | f32Copysign => [.f32, .f32]
  | f64Eq | f64Ne | f64Lt | f64Gt | f64Le | f64Ge | f64Add | f64Sub | f64Mul | f64Div | f64Min
  | f64Max | f64Copysign => [.f64, .f64]

/-- The slots a translation declares to need above its operands. -/
def Translation.maxStackHeight : Translation → Nat
  | unary _ n | binary _ n | unaryCompare _ n | binaryCompare _ n | conversion _ _ _ n => n
  | reinterpret _ _ => 0
  | snippet s => s.definition.maxStackHeight

/-- What a translation emits in place. -/
def Translation.inlined : Translation → List Opcode
  | unary emitted _ | binary emitted _ | unaryCompare emitted _ | binaryCompare emitted _
  | conversion _ _ emitted _ => emitted
  | reinterpret _ _ => []
  | snippet s => s.definition.emitter

/-- An operator that is expanded in place. -/
inductive Expansion
  | numeric (op : NumericOperator)
  | load (op : LoadOperator) (offset : Nat)
  | store (op : StoreOperator) (offset : Nat)

namespace Expansion

/-- The types of the operands. -/
def operands : Expansion → List ValType
  | numeric op => op.operands
  | load _ _ => [.i32]
  | store op _ => [.i32, op.storedType]

/-- The slots of the operands. -/
def slots (x : Expansion) : Nat :=
  slotCount x.operands

/-- The code. -/
def emitted : Expansion → List Opcode
  | numeric op => op.translation.inlined
  | load op offset => op.emitted offset
  | store op offset => op.emitted offset

/-- How far the translator lets the stack rise above the operands: by the declared height, and for a
load by what the value has more slots than the address. -/
def rise : Expansion → Nat
  | numeric op => op.translation.maxStackHeight
  | load op _ => op.maxStackHeight + op.loadedType.slots - 1
  | store op _ => op.maxStackHeight

/-- The visit of the operator. -/
def visit (cx : Context) (t : InstructionTranslator) : Expansion → Compile InstructionTranslator
  | numeric op => t.visitNumeric cx op
  | load op offset => t.translateLoad cx op offset
  | store op offset => t.translateStore cx op offset

end Expansion

/-- The code of a snippet stays below its declared height, above its four operands. -/
lemma Snippet.staysBelow (s : Snippet) :
    StaysBelow s.definition.emitter 4 s.definition.maxStackHeight := by
  cases s <;> decide +kernel

/-- What a numeric operator is expanded to stays below the declared height. -/
lemma NumericOperator.staysBelow (op : NumericOperator) :
    StaysBelow op.translation.inlined (slotCount op.operands) op.translation.maxStackHeight := by
  cases op
  case i64Eq | i64Ne | i64LtS | i64LtU | i64GtS | i64GtU | i64LeS | i64LeU | i64GeS | i64GeU
      | i64Add | i64Sub | i64Mul | i64DivS | i64DivU | i64RemS | i64RemU | i64Shl | i64ShrS
      | i64ShrU | i64Rotl | i64Rotr =>
    exact Snippet.staysBelow _
  all_goals decide +kernel

/-- What an operator is translated to that calls no snippet. -/
lemma NumericOperator.emitted_inlined {cx : Context} (op : NumericOperator)
    (inlined : op.snippet? cx = none) : op.emitted cx = op.translation.inlined := by
  unfold NumericOperator.snippet? at inlined
  unfold NumericOperator.emitted
  cases ht : op.translation with rw [ht] at inlined
  | snippet s =>
    dsimp only at inlined ⊢
    split at inlined
    · cases inlined
    next off => exact if_neg off
  | _ => rfl

/-- The code of every expansion stays below what the translator counts. -/
lemma Expansion.staysBelow (x : Expansion) : StaysBelow x.emitted x.slots x.rise := by
  cases x with
  | numeric op => exact op.staysBelow
  | load op offset => cases op <;> exact rfl
  | store op offset => cases op <;> exact rfl

namespace InstructionTranslator

variable {cx : Context} {t t' : InstructionTranslator} {ops : List Opcode} {n : Nat} {type : ValType}

/-- Popping a type leaves the height alone. -/
lemma popType_stackHeight (h : t.popType = .ok (type, t')) : t'.stackHeight = t.stackHeight := by
  unfold popType at h
  split at h
  · cases h
    rfl
  · cases h

/-- Recording `n` slots above the current height, before anything is popped. -/
lemma maxHeight_pushN : t.stackHeight.height + n ≤ (t.pushN n).stackHeight.maxHeight :=
  Nat.le_max_left _ _

/-- Pushing slots never lowers the recorded height. -/
lemma maxHeight_le_pushN : t.stackHeight.maxHeight ≤ (t.pushN n).stackHeight.maxHeight :=
  Nat.le_max_right _ _

/-- Popping slots leaves the recorded height. -/
lemma maxHeight_popN (h : t.popN n = .ok t') : t'.stackHeight.maxHeight = t.stackHeight.maxHeight :=
  (popN_stack h).2.2

/-- A unary operator records what its code rises by. -/
lemma translateUnary_raises (r : t.reachable = true) (h : t.translateUnary cx ops n = .ok t') :
    t.stackHeight.height + n ≤ t'.stackHeight.maxHeight := by
  simp only [translateUnary, translateIfReachable, r, if_true, Compile.bind_ok, Prod.exists] at h
  obtain ⟨t₁, h₁, type, t₂, h₂, t₃, h₃, t₄, h₄, h⟩ := h
  cases h
  calc t.stackHeight.height + n
    _ = (t₂.pushType type).stackHeight.height + n := by
      rw [← (bumpFuelConsumption_stack h₁).2, ← popType_stackHeight h₂]
      rfl
    _ ≤ t₃.stackHeight.maxHeight := (maxHeight_popN h₃).symm ▸ maxHeight_pushN
    _ ≤ t₄.stackHeight.maxHeight := (maxHeight_popN h₄).symm ▸ maxHeight_le_pushN

/-- A test records what its code rises by. -/
lemma translateUnaryCompare_raises (r : t.reachable = true)
    (h : t.translateUnaryCompare cx ops n = .ok t') :
    t.stackHeight.height + n ≤ t'.stackHeight.maxHeight := by
  simp only [translateUnaryCompare, translateIfReachable, r, if_true, Compile.bind_ok,
    Prod.exists] at h
  obtain ⟨t₁, h₁, type, t₂, h₂, t₃, h₃, t₄, h₄, h⟩ := h
  cases h
  calc t.stackHeight.height + n
    _ = (t₂.pushType .i32).stackHeight.height + n := by
      rw [← (bumpFuelConsumption_stack h₁).2, ← popType_stackHeight h₂]
      rfl
    _ ≤ t₃.stackHeight.maxHeight := (maxHeight_popN h₃).symm ▸ maxHeight_pushN
    _ ≤ t₄.stackHeight.maxHeight := (maxHeight_popN h₄).symm ▸ maxHeight_le_pushN

/-- A conversion records what its code rises by. -/
lemma translateConversion_raises {input output : ValType} (r : t.reachable = true)
    (h : t.translateConversion cx input output ops n = .ok t') :
    t.stackHeight.height + n ≤ t'.stackHeight.maxHeight := by
  simp only [translateConversion, translateIfReachable, r, if_true, Compile.bind_ok,
    Prod.exists] at h
  obtain ⟨t₁, h₁, type, t₂, h₂, t₃, h₃, t₄, h₄, h⟩ := h
  cases h
  calc t.stackHeight.height + n
    _ ≤ (t₁.pushN n).stackHeight.maxHeight := (bumpFuelConsumption_stack h₁).2 ▸ maxHeight_pushN
    _ = (t₂.pushType output).stackHeight.maxHeight := by
      rw [← popType_stackHeight h₂]
      rfl
    _ = t₃.stackHeight.maxHeight := (maxHeight_popN h₃).symm
    _ ≤ t₄.stackHeight.maxHeight := (maxHeight_popN h₄).symm ▸ maxHeight_le_pushN

/-- A binary operator records what its code rises by. -/
lemma translateBinary_raises (r : t.reachable = true) (h : t.translateBinary cx ops n = .ok t') :
    t.stackHeight.height + n ≤ t'.stackHeight.maxHeight := by
  simp only [translateBinary, translateIfReachable, r, if_true, Compile.bind_ok, Prod.exists] at h
  obtain ⟨t₁, h₁, type, t₂, h₂, _, t₃, h₃, t₄, h₄, t₅, h₅, t₆, h₆, h⟩ := h
  cases h
  calc t.stackHeight.height + n
    _ = (t₃.pushType type).stackHeight.height + n := by
      rw [← (bumpFuelConsumption_stack h₁).2, ← popType_stackHeight h₂, ← popType_stackHeight h₃]
      rfl
    _ ≤ t₄.stackHeight.maxHeight := (maxHeight_popN h₄).symm ▸ maxHeight_pushN
    _ = t₅.stackHeight.maxHeight := (maxHeight_popN h₅).symm
    _ ≤ t₆.stackHeight.maxHeight := (maxHeight_popN h₆).symm ▸ maxHeight_le_pushN

/-- A comparison records what its code rises by. -/
lemma translateBinaryCompare_raises (r : t.reachable = true)
    (h : t.translateBinaryCompare cx ops n = .ok t') :
    t.stackHeight.height + n ≤ t'.stackHeight.maxHeight := by
  simp only [translateBinaryCompare, translateIfReachable, r, if_true, Compile.bind_ok,
    Prod.exists] at h
  obtain ⟨t₁, h₁, _, t₂, h₂, _, t₃, h₃, t₄, h₄, t₅, h₅, t₆, h₆, h⟩ := h
  cases h
  calc t.stackHeight.height + n
    _ = (t₃.pushType .i32).stackHeight.height + n := by
      rw [← (bumpFuelConsumption_stack h₁).2, ← popType_stackHeight h₂, ← popType_stackHeight h₃]
      rfl
    _ ≤ t₄.stackHeight.maxHeight := (maxHeight_popN h₄).symm ▸ maxHeight_pushN
    _ = t₅.stackHeight.maxHeight := (maxHeight_popN h₅).symm
    _ ≤ t₆.stackHeight.maxHeight := (maxHeight_popN h₆).symm ▸ maxHeight_le_pushN

/-- A reinterpretation pushes as many slots as it pops. -/
lemma visitReinterpret_raises {input output : ValType} (r : t.reachable = true)
    (same : ValueStackHeight.slots input = ValueStackHeight.slots output)
    (h : t.visitReinterpret cx input output = .ok t') :
    t.stackHeight.height ≤ t'.stackHeight.maxHeight := by
  simp only [visitReinterpret, translateIfReachable, r, if_true, Compile.bind_ok, Prod.exists] at h
  obtain ⟨type, t₁, h₁, t₂, h₂, t₃, h₃, h⟩ := h
  cases h
  obtain ⟨-, height, -⟩ := popN_stack h₃
  calc t.stackHeight.height
    _ = (t₂.pushType output).stackHeight.height := by
      rw [← popType_stackHeight h₁, ← (bumpFuelConsumption_stack h₂).2]
      rfl
    _ = t₃.stackHeight.height + ValueStackHeight.slots output := by rw [← height, same, Nat.add_comm]
    _ ≤ (t₃.pushHeightOf output).stackHeight.maxHeight := maxHeight_pushN

/-- A load records the loaded value in place of what it pops for the address. -/
lemma translateLoad_raises {op : LoadOperator} {offset : Nat} (r : t.reachable = true)
    (h : t.translateLoad cx op offset = .ok t') : ∃ type types, t.stackTypes = type :: types ∧
      t.stackHeight.height + op.maxStackHeight ≤ t'.stackHeight.maxHeight ∧
      t.stackHeight.height + op.maxStackHeight + ValueStackHeight.slots op.loadedType ≤
        t'.stackHeight.maxHeight + ValueStackHeight.slots type := by
  simp only [translateLoad, translateIfReachable, r, if_true, Compile.bind_ok, Prod.exists] at h
  obtain ⟨t₁, h₁, type, t₂, h₂, t₃, h₃, t₄, h₄, h⟩ := h
  cases h
  have first : t.stackHeight.height + op.maxStackHeight ≤
      (t₂.pushN op.maxStackHeight).stackHeight.maxHeight := by
    rw [← (bumpFuelConsumption_stack h₁).2, ← popType_stackHeight h₂]
    exact maxHeight_pushN
  obtain ⟨-, height, same⟩ := popN_stack h₃
  have pushed : (t₂.pushN op.maxStackHeight).stackHeight.height =
      t.stackHeight.height + op.maxStackHeight := by
    rw [← (bumpFuelConsumption_stack h₁).2, ← popType_stackHeight h₂]
    rfl
  have last : (t₃.pushHeightOf op.loadedType).stackHeight.maxHeight = t₄.stackHeight.maxHeight :=
    (maxHeight_popN h₄).symm
  have second : t₃.stackHeight.height + ValueStackHeight.slots op.loadedType ≤
      t₄.stackHeight.maxHeight := last ▸ maxHeight_pushN
  have mono : t₃.stackHeight.maxHeight ≤ t₄.stackHeight.maxHeight := last ▸ maxHeight_le_pushN
  refine ⟨type, t₂.stackTypes, ?_, ?_, ?_⟩
  · rw [← (bumpFuelConsumption_stack h₁).1]
    exact popType_stackTypes h₂
  · show _ ≤ t₄.stackHeight.maxHeight
    omega
  · show _ ≤ t₄.stackHeight.maxHeight + _
    omega

/-- A store records what its code rises by. -/
lemma translateStore_raises {op : StoreOperator} {offset : Nat} (r : t.reachable = true)
    (h : t.translateStore cx op offset = .ok t') :
    t.stackHeight.height + op.maxStackHeight ≤ t'.stackHeight.maxHeight := by
  simp only [translateStore, translateIfReachable, r, if_true, Compile.bind_ok, Prod.exists] at h
  obtain ⟨t₁, h₁, _, t₂, h₂, t₃, h₃, _, t₄, h₄, t₅, h₅, t₆, h₆, h⟩ := h
  cases h
  calc t.stackHeight.height + op.maxStackHeight
    _ ≤ (t₁.pushN op.maxStackHeight).stackHeight.maxHeight :=
      (bumpFuelConsumption_stack h₁).2 ▸ maxHeight_pushN
    _ = t₃.stackHeight.maxHeight := by rw [maxHeight_popN h₃, popType_stackHeight h₂]
    _ = t₅.stackHeight.maxHeight := by rw [maxHeight_popN h₅, popType_stackHeight h₄]
    _ = t₆.stackHeight.maxHeight := (maxHeight_popN h₆).symm

/-- The visit of a numeric operator that is inlined records the declared height. -/
lemma visitNumeric_raises {op : NumericOperator} (r : t.reachable = true)
    (inlined : op.snippet? cx = none) (h : t.visitNumeric cx op = .ok t') :
    t.stackHeight.height + op.translation.maxStackHeight ≤ t'.stackHeight.maxHeight := by
  unfold visitNumeric at h
  unfold NumericOperator.snippet? at inlined
  cases ht : op.translation with rw [ht] at h inlined
  | unary => exact translateUnary_raises r h
  | binary => exact translateBinary_raises r h
  | unaryCompare => exact translateUnaryCompare_raises r h
  | binaryCompare => exact translateBinaryCompare_raises r h
  | conversion => exact translateConversion_raises r h
  | reinterpret input output =>
    refine visitReinterpret_raises r ?_ h
    cases op <;> cases ht <;> rfl
  | snippet s =>
    dsimp only at inlined h
    split at inlined
    · cases inlined
    next off =>
      rw [translateToSnippetCall, if_neg off] at h
      exact translateBinary_raises r h

end InstructionTranslator

namespace Expansion

variable {cx : Context} {t t' : InstructionTranslator} {x : Expansion} {T : Type}

/-- The snippet that is called in place of the expansion. -/
def snippet? (cx : Context) : Expansion → Option Snippet
  | numeric op => op.snippet? cx
  | _ => none

/-- The slots the translator counts for the operands. -/
def counted (x : Expansion) (t : InstructionTranslator) : Nat :=
  ((t.stackTypes.take x.operands.length).map ValueStackHeight.slots).sum

/-- An executor in front of the expansion: the operands are there, the translator counts no fewer
slots for them, and beneath them the stack is no higher over `base` than it counts. -/
structure Enters (x : Expansion) (t : InstructionTranslator) (base : Nat) (e : Executor T) :
    Prop where
  operands : x.slots ≤ e.valueStack.length
  counted : x.slots ≤ x.counted t
  below : e.valueStack.length + x.counted t ≤ base + t.stackHeight.height + x.slots

/-- The visit emits the expansion behind the code there is. -/
lemma visit_emitted (r : t.reachable = true) (inlined : x.snippet? cx = none)
    (h : x.visit cx t = .ok t') :
    t'.instructionSet.drop t.instructionSet.length = x.emitted := by
  have emits {delta : Nat} {ops : List Opcode}
      (eq : t'.skeleton = (t.skeleton.charge cx delta).emit ops) :
      t'.instructionSet.drop t.instructionSet.length = ops := by
    have code : t'.instructionSet = (t.skeleton.charge cx delta).code ++ ops :=
      congrArg Skeleton.code eq
    have len : (t.skeleton.charge cx delta).code.length = t.instructionSet.length :=
      Skeleton.length_charge
    rw [code, ← len, List.drop_left]
  cases x with
  | numeric op =>
    have eq := InstructionTranslator.visitNumeric_skeleton r h
    rw [show op.snippet? cx = none from inlined] at eq
    rw [op.emitted_inlined inlined] at eq
    exact emits eq
  | load op offset => exact emits (InstructionTranslator.translateLoad_skeleton r h)
  | store op offset => exact emits (InstructionTranslator.translateStore_skeleton r h)

/-- The recorded peak lies above all that the expansion needs. -/
lemma visit_raises {base : Nat} {e : Executor T} (r : t.reachable = true)
    (inlined : x.snippet? cx = none) (h : x.visit cx t = .ok t') (enters : x.Enters t base e) :
    e.valueStack.length + x.rise ≤ base + t'.stackHeight.maxHeight := by
  have below := enters.below
  have counted := enters.counted
  cases x with
  | numeric op =>
    have raises := InstructionTranslator.visitNumeric_raises r inlined h
    simp only [rise]
    omega
  | load op offset =>
    obtain ⟨type, types, top, first, second⟩ := InstructionTranslator.translateLoad_raises r h
    have one : (load op offset).counted t = ValueStackHeight.slots type := by
      simp [Expansion.counted, Expansion.operands, top]
    have slots : (load op offset).slots = 1 := rfl
    have same : op.loadedType.slots = ValueStackHeight.slots op.loadedType := by cases op <;> rfl
    rw [one, slots] at below counted
    simp only [rise, same]
    omega
  | store op offset =>
    have raises := InstructionTranslator.translateStore_raises r h
    simp only [rise]
    omega

end Expansion

/-- A snippet that is called never has the stack higher than the declared height above where it was
entered. -/
def Snippet.BodyBounded (s : Snippet) : Prop :=
  ∀ {T : Type} (m : RwasmModule) (host : Host T) (e e' : Executor T),
    CodeAt m.codeSection e.ip (ModuleParser.snippetCode s) →
    slotCount s.definition.origParams ≤ e.valueStack.length →
    (vmWithin m host e.ip (e.ip + 1 + s.definition.emitter.length)).Steps e e' →
    e'.valueStack.length ≤ e.valueStack.length + s.definition.maxStackHeight

/-- An expansion that a visit has inlined never has the stack higher than the recorded peak. -/
def Expansion.InlineBounded (x : Expansion) (t t' : InstructionTranslator) : Prop :=
  ∀ {T : Type} (m : RwasmModule) (host : Host T) (base : Nat) (e e' : Executor T),
    CodeAt m.codeSection e.ip (t'.instructionSet.drop t.instructionSet.length) →
    x.Enters t base e →
    (vmWithin m host e.ip (e.ip + (t'.instructionSet.drop t.instructionSet.length).length)).Steps
      e e' →
    e'.valueStack.length ≤ base + t'.stackHeight.maxHeight

/-- A snippet takes two operands of two slots. -/
lemma Snippet.slotCount_origParams (s : Snippet) : slotCount s.definition.origParams = 4 := by
  cases s <;> rfl

/-- The check in front of the body changes no height. -/
lemma Snippet.bodyBounded (s : Snippet) : s.BodyBounded := by
  intro T m host e e' placed pushed st
  rw [s.slotCount_origParams] at pushed
  unfold ModuleParser.snippetCode at placed
  rw [List.append_assoc, CodeAt.append_iff, CodeAt.append_iff] at placed
  obtain ⟨check, body, -⟩ := placed
  rcases st.cases with rfl | ⟨e₁, first, st⟩
  · omega
  · obtain ⟨-, stepped⟩ := Machine.within_step_iff.mp first
    rw [vm_step check.1] at stepped
    obtain ⟨ip, kept⟩ : e₁.ip = e.ip + 1 ∧ e₁.valueStack = e.valueStack := by
      have frame := Executor.step_frame stepped
      simp only [Executor.Frame] at frame
      rw [frame]
      exact ⟨rfl, rfl⟩
    rw [← kept] at pushed ⊢
    exact s.staysBelow.height_le body rfl ip pushed st

/-- The declared heights are upper bounds, for snippets that are called and for what is inlined. -/
theorem declaredHeights_bound :
    (∀ s : Snippet, s.BodyBounded) ∧
    ∀ (cx : Context) (x : Expansion) (t t' : InstructionTranslator),
      t.reachable = true → x.snippet? cx = none → x.visit cx t = .ok t' → x.InlineBounded t t' := by
  refine ⟨Snippet.bodyBounded, fun cx x t t' r inlined h => ?_⟩
  intro T m host base e e' placed enters st
  rw [Expansion.visit_emitted r inlined h] at placed st
  have le := x.staysBelow.height_le placed rfl rfl enters.operands st
  exact le.trans (Expansion.visit_raises r inlined h enters)

/-- A compiler that inlines the snippets. -/
def inlining : Context where
  costs := ⟨1, 1, 1, 1, 1, fun _ => 0⟩
  withConsumeFuel := false
  withCodeSnippets := false
  funcTypeRegistry := {}

/-- The translation in front of a shift of two 64-bit numbers. -/
def beforeShift : InstructionTranslator where
  controlFrames := [.block 0 ⟨.empty, 0, none, 0⟩]
  stackTypes := [.i64, .i64]
  stackHeight := ⟨4, 4⟩

/-- The translation behind it, with nine slots recorded above the operands. -/
def afterShift : InstructionTranslator :=
  { beforeShift with instructionSet := opI64Shl, stackTypes := [.i64], stackHeight := ⟨2, 13⟩ }

/-- An executor in front of the code of the shift. -/
def shifting : Executor Unit :=
  ⟨[0, 7, 0, 5], N_DEFAULT_STACK_SIZE, [], 0, Store.new () none none⟩

/-- The bound of a shift depends on a branch that no operand takes. -/
theorem declaredHeights_bound_shift :
    Snippet.i64Shl.BodyBounded ∧
    ∀ e', (vmWithin ⟨opI64Shl, [], [], [], 0⟩ Host.empty 0 (0 + opI64Shl.length)).Steps shifting e' →
      e'.valueStack.length ≤ 0 + 13 := by
  refine ⟨declaredHeights_bound.1 _, fun e' st => ?_⟩
  have bounded : (Expansion.numeric .i64Shl).InlineBounded beforeShift afterShift :=
    declaredHeights_bound.2 inlining _ _ _ rfl rfl rfl
  have enters : (Expansion.numeric .i64Shl).Enters beforeShift 0 shifting :=
    ⟨by decide, by decide, by decide⟩
  exact bounded _ _ 0 shifting e' .self enters st

end Rwasm
