import Rwasm.Compiler.FuncBuilder

/-!
# What visiting an operator does to the code

The skeleton of a translation state is what is left of it without the emulated stack: reachability,
the control frames, the labels and the code. The steps a visit is made of leave the skeleton alone,
charge it, or emit into it, so the visit of an operator that falls through comes down to one charge
and one sequence of instructions.
-/

namespace Rwasm

open Opcode

/-- A translation state without the emulated stack. -/
structure Skeleton where
  reachable : Bool
  controlFrames : List ControlFrame
  labels : LabelRegistry
  lenRegistered : Nat
  code : List Opcode
  snippetCalls : List SnippetCall

namespace Skeleton

/-- The location the code is charged to. -/
def fuelInstr (s : Skeleton) : Option Nat :=
  s.controlFrames.head?.bind ControlFrame.consumeFuelInstr

/-- The skeleton with more charged to its current location. -/
def charge (cx : Context) (delta : Nat) (s : Skeleton) : Skeleton :=
  match cx.withConsumeFuel, s.fuelInstr with
  | true, some instr =>
    match s.code[instr]? with
    | some (.consumeFuel fuel) => { s with code := s.code.set instr (.consumeFuel (fuel + delta)) }
    | _ => s
  | _, _ => s

/-- The skeleton with more code. -/
def emit (ops : List Opcode) (s : Skeleton) : Skeleton :=
  { s with code := s.code ++ ops }

/-- The skeleton with a call of a snippet, which is emitted next, if there is one. -/
def record (s : Skeleton) : Option Snippet → Skeleton
  | some snippet => { s with snippetCalls := s.snippetCalls ++ [⟨s.code.length, snippet⟩] }
  | none => s

variable {cx : Context} {delta : Nat} {ops ops' : List Opcode} {s : Skeleton}

/-- Emitting nothing. -/
@[simp] lemma emit_nil : s.emit [] = s := by
  simp [emit]

/-- Emitting twice. -/
@[simp] lemma emit_emit : (s.emit ops).emit ops' = s.emit (ops ++ ops') := by
  simp [emit]

/-- A charge of nothing. -/
@[simp] lemma charge_zero : s.charge cx 0 = s := by
  unfold charge
  split
  · split
    next hi =>
      obtain ⟨lt, eq⟩ := List.getElem?_eq_some_iff.mp hi
      simp only [Nat.add_zero, ← eq, List.set_getElem_self]
    · rfl
  · rfl

/-- A charge only changes the code. -/
lemma charge_frame : s.charge cx delta = { s with code := (s.charge cx delta).code } := by
  unfold charge
  repeat' split
  all_goals rfl

/-- A charge leaves what is reachable. -/
@[simp] lemma charge_reachable : (s.charge cx delta).reachable = s.reachable := by
  rw [charge_frame]

/-- A charge leaves the frames. -/
@[simp] lemma charge_controlFrames : (s.charge cx delta).controlFrames = s.controlFrames := by
  rw [charge_frame]

/-- A charge leaves the labels. -/
@[simp] lemma charge_labels : (s.charge cx delta).labels = s.labels := by
  rw [charge_frame]

/-- A charge leaves the number of locals. -/
@[simp] lemma charge_lenRegistered : (s.charge cx delta).lenRegistered = s.lenRegistered := by
  rw [charge_frame]

/-- A charge leaves the snippet calls. -/
@[simp] lemma charge_snippetCalls : (s.charge cx delta).snippetCalls = s.snippetCalls := by
  rw [charge_frame]

/-- A charge keeps the length of the code. -/
@[simp] lemma length_charge : (s.charge cx delta).code.length = s.code.length := by
  unfold charge
  repeat' split
  all_goals simp

end Skeleton

/-- The fuel the translator charges for an operator that falls through. -/
def PlainOperator.cost (costs : FuelCosts) : PlainOperator → Nat
  | .nop | .drop => 0
  | .call _ | .callIndirect _ _ => costs.call
  | .globalGet _ | .globalSet _ => costs.entity
  | .load _ _ => costs.load
  | .store _ _ => costs.store
  | .memorySize | .memoryGrow | .memoryInit _ | .dataDrop _ | .memoryCopy | .memoryFill
  | .tableInit _ _ | .elemDrop _ | .tableCopy _ _ | .tableFill _ | .tableGet _ | .tableSet _
  | .tableGrow _ | .tableSize _ => costs.entity
  | _ => costs.base

/-- The sequence a numeric operator is translated to. -/
def NumericOperator.emitted (cx : Context) (op : NumericOperator) : List Opcode :=
  match op.translation with
  | .unary emitted _ | .binary emitted _ | .unaryCompare emitted _ | .binaryCompare emitted _
  | .conversion _ _ emitted _ => emitted
  | .reinterpret _ _ => []
  | .snippet s => if cx.withCodeSnippets then [callInternal (2 ^ 32 - 1)] else s.definition.emitter

/-- The snippet a numeric operator calls. -/
def NumericOperator.snippet? (cx : Context) (op : NumericOperator) : Option Snippet :=
  match op.translation with
  | .snippet s => if cx.withCodeSnippets then some s else none
  | _ => none

/-- The snippet an operator calls. -/
def PlainOperator.snippet? (cx : Context) : PlainOperator → Option Snippet
  | .numeric op => op.snippet? cx
  | .refIsNull => NumericOperator.snippet? cx .i32Eqz
  | _ => none

/-- Whether a value of a type takes two slots. -/
def ValType.IsWide (t : ValType) : Prop :=
  t = .i64 ∨ t = .f64

/-- Whether a type takes two slots is decided by cases. -/
instance (t : ValType) : Decidable t.IsWide :=
  inferInstanceAs (Decidable (_ ∨ _))

/-- The sequence an operator that falls through is translated to, given the types on the stack. -/
def PlainOperator.emitted (cx : Context) (types : List ValType) :
    PlainOperator → Compile (List Opcode)
  | .nop => return []
  | .call func => cx.emitFunctionCall func false
  | .callIndirect type table => do
    let signature ← cx.funcTypeRegistry.resolveFuncTypeSignature type
    return [.callIndirect signature, .tableGet table]
  | .drop =>
    match types with
    | t :: _ => return if t.IsWide then [.drop, .drop] else [.drop]
    | [] => .panic
  | .select | .typedSelect _ =>
    match types with
    | _ :: t :: _ => return if t.IsWide then InstructionTranslator.selectWide else [Opcode.select]
    | _ => .panic
  | .localGet idx =>
    let depth := types.length - idx
    match (if 0 < depth then types[depth - 1]? else none) with
    | some t =>
      let expressed := getExpressedDepth types depth
      return if t.IsWide then [.localGet expressed, .localGet expressed] else [.localGet expressed]
    | none => .panic
  | .localSet idx =>
    match types with
    | t :: types =>
      let expressed := getExpressedDepth types (types.length - idx)
      return if t.IsWide then [.localSet expressed, .localSet expressed] else [.localSet expressed]
    | [] => .panic
  | .localTee idx =>
    match types with
    | t :: _ =>
      let expressed := getExpressedDepth types (types.length - idx)
      return if t.IsWide then [.localTee (expressed - 1), .localGet 2, .localSet expressed]
        else [.localTee expressed]
    | [] => .panic
  | .globalGet idx => do
    let globalType ← cx.resolveGlobalType idx
    return if globalType.contentType.IsWide then [.globalGet (idx * 2 + 1), .globalGet (idx * 2)]
      else [.globalGet (idx * 2)]
  | .globalSet idx => do
    let globalType ← cx.resolveGlobalType idx
    return if globalType.contentType.IsWide then [.globalSet (idx * 2), .globalSet (idx * 2 + 1)]
      else [.globalSet (idx * 2)]
  | .load op offset => return op.emitted offset
  | .store op offset => return op.emitted offset
  | .memorySize => return [.memorySize]
  | .memoryGrow => do
    let memoryType ← Compile.unwrap cx.memories[0]?
    return InstructionSet.opMemoryGrowChecked (some (BitVec.ofNat 32 (memoryType.maxPages cx)))
      cx.injectFuelCheck
  | .i32Const value | .f32Const value => return [.i32Const value]
  | .i64Const value | .f64Const value => return InstructionSet.opI64Const value
  | .refNull _ => return [.i32Const 0]
  | .refIsNull => return NumericOperator.emitted cx .i32Eqz
  | .refFunc func => return [.refFunc (func + 1)]
  | .i32WrapI64 => return [.drop]
  | .numeric op => return op.emitted cx
  | .memoryInit segment =>
    match cx.memorySections segment with
    | some (offset, length) =>
      return InstructionSet.opMemoryInitChecked (some offset) (some length) (segment + 1)
        cx.injectFuelCheck
    | none => .fail .memoryOutOfBounds
  | .dataDrop segment => return [.dataDrop (segment + 1)]
  | .memoryCopy => return InstructionSet.opMemoryCopyChecked cx.injectFuelCheck
  | .memoryFill => return InstructionSet.opMemoryFillChecked cx.injectFuelCheck
  | .tableInit segment table =>
    match cx.elementSections segment with
    | some (offset, length) =>
      return InstructionSet.opTableInitChecked (segment + 1) table length offset cx.injectFuelCheck
    | none => .fail .tableOutOfBounds
  | .elemDrop segment => return [.elemDrop (segment + 1)]
  | .tableCopy dst src => return InstructionSet.opTableCopyChecked dst src cx.injectFuelCheck
  | .tableFill table => return InstructionSet.opTableFillChecked table cx.injectFuelCheck
  | .tableGet table => return [.tableGet table]
  | .tableSet table => return [.tableSet table]
  | .tableGrow table => do
    let tableType ← cx.resolveTableType table
    return InstructionSet.opTableGrowChecked table
      (some (BitVec.ofNat 32 (tableType.maximum.getD N_MAX_TABLE_SIZE))) cx.injectFuelCheck
  | .tableSize table => return [.tableSize table]

namespace InstructionTranslator

variable {cx : Context} {t t' : InstructionTranslator}

/-- The skeleton of a translation state. -/
def skeleton (t : InstructionTranslator) : Skeleton where
  reachable := t.reachable
  controlFrames := t.controlFrames
  labels := t.labels
  lenRegistered := t.lenRegistered
  code := t.instructionSet
  snippetCalls := t.snippetCalls

/-! ## The steps of a visit -/

/-- Emitting is emitting to the skeleton. -/
@[simp] lemma emit_skeleton {ops} : (t.emit ops).skeleton = t.skeleton.emit ops := rfl

/-- Pushing slots leaves the skeleton. -/
@[simp] lemma pushN_skeleton {n} : (t.pushN n).skeleton = t.skeleton := rfl

/-- Pushing the slots of a type leaves the skeleton. -/
@[simp] lemma pushHeightOf_skeleton {type} : (t.pushHeightOf type).skeleton = t.skeleton := rfl

/-- Pushing a type leaves the skeleton. -/
@[simp] lemma pushType_skeleton {type} : (t.pushType type).skeleton = t.skeleton := rfl

/-- Pushing a value leaves the skeleton. -/
@[simp] lemma pushValueOf_skeleton {type} : (t.pushValueOf type).skeleton = t.skeleton := rfl

/-- Pushing values leaves the skeleton. -/
@[simp] lemma pushValuesOf_skeleton {types} : (pushValuesOf types t).skeleton = t.skeleton := by
  induction types generalizing t with
  | nil => rfl
  | cons type types ih => exact ih

/-- Popping slots leaves the skeleton. -/
lemma popN_skeleton {n} (h : t.popN n = .ok t') : t'.skeleton = t.skeleton := by
  obtain ⟨height, _, h⟩ := Compile.bind_ok.mp h
  cases h
  rfl

/-- Popping the slots of a type leaves the skeleton. -/
lemma popHeightOf_skeleton {type} (h : t.popHeightOf type = .ok t') : t'.skeleton = t.skeleton :=
  popN_skeleton h

/-- Popping a type leaves the skeleton. -/
lemma popType_skeleton {type} (h : t.popType = .ok (type, t')) : t'.skeleton = t.skeleton := by
  unfold popType at h
  split at h
  · cases h
    rfl
  · cases h

/-- Popping slots leaves the types alone. -/
lemma popN_stack {n} (h : t.popN n = .ok t') :
    t'.stackTypes = t.stackTypes ∧ n + t'.stackHeight.height = t.stackHeight.height ∧
      t'.stackHeight.maxHeight = t.stackHeight.maxHeight := by
  obtain ⟨height, hp, h⟩ := Compile.bind_ok.mp h
  cases h
  unfold ValueStackHeight.popN at hp
  split at hp
  · cases hp
    exact ⟨rfl, by dsimp only; omega, rfl⟩
  · cases hp

/-- Pushing slots leaves the types. -/
@[simp] lemma pushN_stackTypes {n} : (t.pushN n).stackTypes = t.stackTypes := rfl

/-- The depth of a local below the top of the emulated stack. -/
lemma relativeLocalDepth_eq {idx depth} (h : t.relativeLocalDepth idx = .ok depth) :
    depth = t.stackTypes.length - idx := by
  unfold relativeLocalDepth at h
  split at h
  · cases h
    rfl
  · cases h

/-- Popping a type shortens the list of types. -/
lemma popType_stackTypes {type} (h : t.popType = .ok (type, t')) :
    t.stackTypes = type :: t'.stackTypes := by
  unfold popType at h
  split at h
  next ht =>
    cases h
    exact ht
  · cases h

/-- Popping types leaves the skeleton. -/
lemma popTypes_skeleton {n} (h : popTypes n t = .ok t') : t'.skeleton = t.skeleton := by
  induction n generalizing t with
  | zero =>
    cases h
    rfl
  | succ n ih =>
    obtain ⟨⟨type, t₁⟩, ht, h⟩ := Compile.bind_ok.mp h
    rw [ih h, popType_skeleton ht]

/-- Popping expected types leaves the skeleton. -/
lemma expectTypes_skeleton {types} (h : expectTypes types t = .ok t') :
    t'.skeleton = t.skeleton := by
  induction types generalizing t with
  | nil =>
    cases h
    rfl
  | cons type types ih =>
    obtain ⟨⟨popped, t₁⟩, ht, h⟩ := Compile.bind_ok.mp h
    dsimp only at h
    split at h
    · rw [ih h, popType_skeleton ht]
    · cases h

/-- Replacing parameters by results leaves the skeleton. -/
lemma adjustValueStackForCall_skeleton {type} (h : t.adjustValueStackForCall cx type = .ok t') :
    t'.skeleton = t.skeleton := by
  simp only [adjustValueStackForCall, Compile.bind_ok] at h
  obtain ⟨funcType, _, t₁, h₁, original, _, t₂, h₂, h⟩ := h
  cases h
  have pop := popN_skeleton h₁
  have types := expectTypes_skeleton h₂
  rw [← pop]
  exact types

/-- `bump_fuel_consumption` is a charge. -/
lemma bumpFuelConsumption_skeleton {delta} (h : t.bumpFuelConsumption cx delta = .ok t') :
    t'.skeleton = t.skeleton.charge cx delta := by
  simp only [bumpFuelConsumption, lastFrame, Compile.bind_ok, Compile.unwrap_ok] at h
  obtain ⟨frame, hf, h⟩ := h
  have fuel : t.skeleton.fuelInstr = frame.consumeFuelInstr := by
    simp [Skeleton.fuelInstr, skeleton, hf]
  unfold Skeleton.charge
  rw [fuel]
  split at h
  next instr hi =>
    rw [hi]
    split at h
    next on =>
      rw [on]
      simp only [Compile.bind_ok, InstructionSet.bumpFuelConsumption] at h
      obtain ⟨code, hc, h⟩ := h
      cases h
      split at hc
      next fuel he =>
        split at hc
        · cases hc
          simp only [skeleton, he]
        · cases hc
      · cases hc
    next off =>
      cases h
      simp [Bool.eq_false_iff.mpr off]
  next hi =>
    rw [hi]
    cases h
    split <;> simp_all

/-- Charging leaves the emulated stack alone. -/
lemma bumpFuelConsumption_stack {delta} (h : t.bumpFuelConsumption cx delta = .ok t') :
    t'.stackTypes = t.stackTypes ∧ t'.stackHeight = t.stackHeight := by
  simp only [bumpFuelConsumption, lastFrame, Compile.bind_ok] at h
  obtain ⟨frame, _, h⟩ := h
  repeat' split at h
  · simp only [Compile.bind_ok] at h
    obtain ⟨code, _, h⟩ := h
    cases h
    exact ⟨rfl, rfl⟩
  all_goals
    cases h
    exact ⟨rfl, rfl⟩

/-! ## The operators that fall through -/

/-- A load is charged and emits its code. -/
lemma translateLoad_skeleton {op offset} (r : t.reachable = true)
    (h : t.translateLoad cx op offset = .ok t') :
    t'.skeleton = (t.skeleton.charge cx cx.costs.load).emit (op.emitted offset) := by
  simp only [translateLoad, translateIfReachable, r, if_true, Compile.bind_ok, Prod.exists] at h
  obtain ⟨t₁, h₁, _, t₂, h₂, t₃, h₃, t₄, h₄, h⟩ := h
  cases h
  simp [popN_skeleton h₄, popHeightOf_skeleton h₃, popType_skeleton h₂,
    bumpFuelConsumption_skeleton h₁]

/-- A store is charged and emits its code. -/
lemma translateStore_skeleton {op offset} (r : t.reachable = true)
    (h : t.translateStore cx op offset = .ok t') :
    t'.skeleton = (t.skeleton.charge cx cx.costs.store).emit (op.emitted offset) := by
  simp only [translateStore, translateIfReachable, r, if_true, Compile.bind_ok, Prod.exists] at h
  obtain ⟨t₁, h₁, _, t₂, h₂, t₃, h₃, _, t₄, h₄, t₅, h₅, t₆, h₆, h⟩ := h
  cases h
  simp [popN_skeleton h₆, popHeightOf_skeleton h₅, popType_skeleton h₄, popHeightOf_skeleton h₃,
    popType_skeleton h₂, bumpFuelConsumption_skeleton h₁]

/-- A conversion is charged and emits its code. -/
lemma translateConversion_skeleton {input output ops n} (r : t.reachable = true)
    (h : t.translateConversion cx input output ops n = .ok t') :
    t'.skeleton = (t.skeleton.charge cx cx.costs.base).emit ops := by
  simp only [translateConversion, translateIfReachable, r, if_true, Compile.bind_ok,
    Prod.exists] at h
  obtain ⟨t₁, h₁, _, t₂, h₂, t₃, h₃, t₄, h₄, h⟩ := h
  cases h
  simp [popN_skeleton h₄, popHeightOf_skeleton h₃, popType_skeleton h₂,
    bumpFuelConsumption_skeleton h₁]

/-- A reinterpretation is charged and emits nothing. -/
lemma visitReinterpret_skeleton {input output} (r : t.reachable = true)
    (h : t.visitReinterpret cx input output = .ok t') :
    t'.skeleton = t.skeleton.charge cx cx.costs.base := by
  simp only [visitReinterpret, translateIfReachable, r, if_true, Compile.bind_ok, Prod.exists] at h
  obtain ⟨_, t₁, h₁, t₂, h₂, t₃, h₃, h⟩ := h
  cases h
  simp [popHeightOf_skeleton h₃, bumpFuelConsumption_skeleton h₂, popType_skeleton h₁]

/-- A binary operator is charged and emits its code. -/
lemma translateBinary_skeleton {ops n} (r : t.reachable = true)
    (h : t.translateBinary cx ops n = .ok t') :
    t'.skeleton = (t.skeleton.charge cx cx.costs.base).emit ops := by
  simp only [translateBinary, translateIfReachable, r, if_true, Compile.bind_ok, Prod.exists] at h
  obtain ⟨t₁, h₁, _, t₂, h₂, _, t₃, h₃, t₄, h₄, t₅, h₅, t₆, h₆, h⟩ := h
  cases h
  simp [popN_skeleton h₆, popHeightOf_skeleton h₅, popHeightOf_skeleton h₄, popType_skeleton h₃,
    popType_skeleton h₂, bumpFuelConsumption_skeleton h₁]

/-- A comparison is charged and emits its code. -/
lemma translateBinaryCompare_skeleton {ops n} (r : t.reachable = true)
    (h : t.translateBinaryCompare cx ops n = .ok t') :
    t'.skeleton = (t.skeleton.charge cx cx.costs.base).emit ops := by
  simp only [translateBinaryCompare, translateIfReachable, r, if_true, Compile.bind_ok,
    Prod.exists] at h
  obtain ⟨t₁, h₁, _, t₂, h₂, _, t₃, h₃, t₄, h₄, t₅, h₅, t₆, h₆, h⟩ := h
  cases h
  simp [popN_skeleton h₆, popHeightOf_skeleton h₅, popHeightOf_skeleton h₄, popType_skeleton h₃,
    popType_skeleton h₂, bumpFuelConsumption_skeleton h₁]

/-- A unary operator is charged and emits its code. -/
lemma translateUnary_skeleton {ops n} (r : t.reachable = true)
    (h : t.translateUnary cx ops n = .ok t') :
    t'.skeleton = (t.skeleton.charge cx cx.costs.base).emit ops := by
  simp only [translateUnary, translateIfReachable, r, if_true, Compile.bind_ok, Prod.exists] at h
  obtain ⟨t₁, h₁, _, t₂, h₂, t₃, h₃, t₄, h₄, h⟩ := h
  cases h
  simp [popN_skeleton h₄, popHeightOf_skeleton h₃, popType_skeleton h₂,
    bumpFuelConsumption_skeleton h₁]

/-- A test is charged and emits its code. -/
lemma translateUnaryCompare_skeleton {ops n} (r : t.reachable = true)
    (h : t.translateUnaryCompare cx ops n = .ok t') :
    t'.skeleton = (t.skeleton.charge cx cx.costs.base).emit ops := by
  simp only [translateUnaryCompare, translateIfReachable, r, if_true, Compile.bind_ok,
    Prod.exists] at h
  obtain ⟨t₁, h₁, _, t₂, h₂, t₃, h₃, t₄, h₄, h⟩ := h
  cases h
  simp [popN_skeleton h₄, popHeightOf_skeleton h₃, popType_skeleton h₂,
    bumpFuelConsumption_skeleton h₁]

/-- A snippet is charged, and called or inlined. -/
lemma translateToSnippetCall_skeleton {s : Snippet} (r : t.reachable = true)
    (h : t.translateToSnippetCall cx s = .ok t') :
    t'.skeleton = ((t.skeleton.charge cx cx.costs.base).record
        (if cx.withCodeSnippets then some s else none)).emit
      (if cx.withCodeSnippets then [callInternal (2 ^ 32 - 1)] else s.definition.emitter) := by
  unfold translateToSnippetCall at h
  split at h
  next on =>
    simp only [translateIfReachable, r, if_true, Compile.bind_ok] at h
    obtain ⟨t₁, h₁, t₂, h₂, t₃, h₃, h⟩ := h
    cases h
    have types := expectTypes_skeleton h₃
    rw [if_pos on, if_pos on, emit_skeleton]
    simp only [pushN_skeleton, popN_skeleton h₂, bumpFuelConsumption_skeleton h₁] at types
    rw [← types]
    rfl
  next off =>
    rw [if_neg off, if_neg off]
    exact translateBinary_skeleton r h

/-- Every numeric operator is charged and emits its code. -/
lemma visitNumeric_skeleton {op : NumericOperator} (r : t.reachable = true)
    (h : t.visitNumeric cx op = .ok t') :
    t'.skeleton =
      ((t.skeleton.charge cx cx.costs.base).record (op.snippet? cx)).emit (op.emitted cx) := by
  unfold visitNumeric at h
  unfold NumericOperator.emitted NumericOperator.snippet?
  cases ht : op.translation with rw [ht] at h
  | unary => exact translateUnary_skeleton r h
  | binary => exact translateBinary_skeleton r h
  | unaryCompare => exact translateUnaryCompare_skeleton r h
  | binaryCompare => exact translateBinaryCompare_skeleton r h
  | conversion => exact translateConversion_skeleton r h
  | reinterpret =>
    rw [Skeleton.emit_nil]
    exact visitReinterpret_skeleton r h
  | snippet => exact translateToSnippetCall_skeleton r h

/-- The code a visit charges and emits for an operator that falls through. -/
def Visited (cx : Context) (op : PlainOperator) (t t' : InstructionTranslator) : Prop :=
  ∃ ops, op.emitted cx t.stackTypes = .ok ops ∧
    t'.skeleton =
      ((t.skeleton.charge cx (op.cost cx.costs)).record (op.snippet? cx)).emit ops

/-- The visit of `i32.wrap_i64`. -/
lemma visitI32WrapI64_visited (r : t.reachable = true) (h : t.visitI32WrapI64 cx = .ok t') :
    Visited cx .i32WrapI64 t t' := by
  simp only [visitI32WrapI64, translateIfReachable, r, if_true, Compile.bind_ok, Prod.exists] at h
  obtain ⟨t₁, h₁, _, t₂, h₂, h⟩ := h
  refine ⟨_, rfl, ?_⟩
  change _ = (t.skeleton.charge cx cx.costs.base).emit _
  simp [popN_skeleton h, popType_skeleton h₂, bumpFuelConsumption_skeleton h₁]

/-- A constant is charged and emits its instructions. -/
lemma visitConst_skeleton {type ops} (r : t.reachable = true)
    (h : t.visitConst cx type ops = .ok t') :
    t'.skeleton = (t.skeleton.charge cx cx.costs.base).emit ops := by
  simp only [visitConst, translateIfReachable, r, if_true, Compile.bind_ok] at h
  obtain ⟨t₁, h₁, h⟩ := h
  cases h
  simp [bumpFuelConsumption_skeleton h₁]

/-- The visit of `ref.null`. -/
lemma visitRefNull_visited {type} (r : t.reachable = true) (h : t.visitRefNull cx type = .ok t') :
    Visited cx (.refNull type) t t' := by
  simp only [visitRefNull, translateIfReachable, r, if_true, Compile.bind_ok] at h
  obtain ⟨t₁, h₁, h⟩ := h
  refine ⟨_, rfl, ?_⟩
  change _ = (t.skeleton.charge cx cx.costs.base).emit _
  split at h
  all_goals cases h
  all_goals simp [bumpFuelConsumption_skeleton h₁]

/-- The visit of `ref.func`. -/
lemma visitRefFunc_visited {func} (r : t.reachable = true) (h : t.visitRefFunc cx func = .ok t') :
    Visited cx (.refFunc func) t t' := by
  simp only [visitRefFunc, translateIfReachable, r, if_true, Compile.bind_ok] at h
  obtain ⟨t₁, h₁, h⟩ := h
  cases h
  refine ⟨_, rfl, ?_⟩
  change _ = (t.skeleton.charge cx cx.costs.base).emit _
  simp [bumpFuelConsumption_skeleton h₁]

/-- The visit of `drop`, which is not charged. -/
lemma visitDrop_visited (r : t.reachable = true) (h : t.visitDrop = .ok t') :
    Visited cx .drop t t' := by
  simp only [visitDrop, translateIfReachable, r, if_true, Compile.bind_ok, Prod.exists] at h
  obtain ⟨t₁, h₁, type, t₂, h₂, h⟩ := h
  have types : t.stackTypes = type :: t₂.stackTypes := by
    rw [← popType_stackTypes h₂, (popN_stack h₁).1]
  refine ⟨_, by rw [types]; rfl, ?_⟩
  change _ = (t.skeleton.charge cx 0).emit _
  unfold ValType.IsWide
  split at h
  next wide =>
    simp only [Compile.bind_ok] at h
    obtain ⟨t₃, h₃, h⟩ := h
    cases h
    simp [wide, popN_skeleton h₃, popType_skeleton h₂, popN_skeleton h₁]
  next narrow =>
    cases h
    simp [narrow, popType_skeleton h₂, popN_skeleton h₁]

/-- The visit of `select`. -/
lemma visitSelect_visited (r : t.reachable = true) (h : t.visitSelect cx = .ok t') :
    Visited cx .select t t' := by
  simp only [visitSelect, translateIfReachable, r, if_true, Compile.bind_ok, Prod.exists] at h
  obtain ⟨t₁, h₁, t₂, h₂, cond, t₃, h₃, item, t₄, h₄, h⟩ := h
  have types : t.stackTypes = cond :: item :: t₄.stackTypes := by
    rw [← popType_stackTypes h₄, ← popType_stackTypes h₃, pushN_stackTypes, (popN_stack h₂).1,
      (bumpFuelConsumption_stack h₁).1]
  refine ⟨_, by rw [types]; rfl, ?_⟩
  change _ = (t.skeleton.charge cx cx.costs.base).emit _
  unfold ValType.IsWide
  split at h
  next wide =>
    simp only [Compile.bind_ok] at h
    obtain ⟨t₅, h₅, h⟩ := h
    cases h
    simp [wide, popN_skeleton h₅, popType_skeleton h₄, popType_skeleton h₃, popN_skeleton h₂,
      bumpFuelConsumption_skeleton h₁]
  next narrow =>
    cases h
    simp [narrow, popType_skeleton h₄, popType_skeleton h₃, popN_skeleton h₂,
      bumpFuelConsumption_skeleton h₁]

/-- The visit of `local.get`. -/
lemma visitLocalGet_visited {idx} (r : t.reachable = true) (h : t.visitLocalGet cx idx = .ok t') :
    Visited cx (.localGet idx) t t' := by
  simp only [visitLocalGet, translateIfReachable, r, if_true, Compile.bind_ok] at h
  obtain ⟨t₁, h₁, depth, hd, type, ht, h⟩ := h
  rw [Compile.unwrap_ok] at ht
  have depth_eq := relativeLocalDepth_eq hd
  cases h
  rw [(bumpFuelConsumption_stack h₁).1] at ht depth_eq ⊢
  subst depth_eq
  refine ⟨_, by simp only [PlainOperator.emitted, ht]; rfl, ?_⟩
  change _ = (t.skeleton.charge cx cx.costs.base).emit _
  unfold ValType.IsWide
  split <;> simp_all [bumpFuelConsumption_skeleton h₁]

/-- The visit of `local.set`. -/
lemma visitLocalSet_visited {idx} (r : t.reachable = true) (h : t.visitLocalSet cx idx = .ok t') :
    Visited cx (.localSet idx) t t' := by
  simp only [visitLocalSet, translateIfReachable, r, if_true, Compile.bind_ok, Prod.exists] at h
  obtain ⟨t₁, h₁, t₂, h₂, type, t₃, h₃, depth, hd, h⟩ := h
  have depth_eq := relativeLocalDepth_eq hd
  have types : t.stackTypes = type :: t₃.stackTypes := by
    rw [← popType_stackTypes h₃, (popN_stack h₂).1, (bumpFuelConsumption_stack h₁).1]
  subst depth_eq
  refine ⟨_, by rw [types]; rfl, ?_⟩
  change _ = (t.skeleton.charge cx cx.costs.base).emit _
  unfold ValType.IsWide
  split at h
  next wide =>
    simp [wide, popN_skeleton h, popType_skeleton h₃, popN_skeleton h₂,
      bumpFuelConsumption_skeleton h₁]
  next narrow =>
    cases h
    simp [narrow, popType_skeleton h₃, popN_skeleton h₂,
      bumpFuelConsumption_skeleton h₁]

/-- The visit of `local.tee`. -/
lemma visitLocalTee_visited {idx} (r : t.reachable = true) (h : t.visitLocalTee cx idx = .ok t') :
    Visited cx (.localTee idx) t t' := by
  simp only [visitLocalTee, translateIfReachable, r, if_true, Compile.bind_ok] at h
  obtain ⟨t₁, h₁, depth, hd, type, ht, h⟩ := h
  have depth_eq := relativeLocalDepth_eq hd
  rw [Compile.unwrap_ok, (bumpFuelConsumption_stack h₁).1] at ht
  rw [(bumpFuelConsumption_stack h₁).1] at depth_eq h
  obtain ⟨types, eq⟩ : ∃ types, t.stackTypes = type :: types := by
    cases hs : t.stackTypes with
    | nil => simp [hs] at ht
    | cons a as =>
      rw [hs, List.head?_cons, Option.some.injEq] at ht
      exact ⟨as, by rw [ht]⟩
  subst depth_eq
  refine ⟨_, by rw [eq]; rfl, ?_⟩
  change _ = (t.skeleton.charge cx cx.costs.base).emit _
  rw [eq] at h
  unfold ValType.IsWide
  split at h
  next wide =>
    simp only [Compile.bind_ok] at h
    obtain ⟨t₂, h₂, h⟩ := h
    cases h
    simp [wide, popN_skeleton h₂, bumpFuelConsumption_skeleton h₁]
  next narrow =>
    cases h
    simp [narrow, bumpFuelConsumption_skeleton h₁]

/-- The visit of `global.get`. -/
lemma visitGlobalGet_visited {idx} (r : t.reachable = true)
    (h : t.visitGlobalGet cx idx = .ok t') : Visited cx (.globalGet idx) t t' := by
  simp only [visitGlobalGet, translateIfReachable, r, if_true, Compile.bind_ok] at h
  obtain ⟨t₁, h₁, type, ht, h⟩ := h
  refine ⟨_, Compile.bind_ok.mpr ⟨type, ht, rfl⟩, ?_⟩
  change _ = (t.skeleton.charge cx cx.costs.entity).emit _
  unfold ValType.IsWide
  split at h
  all_goals cases h
  all_goals simp_all [bumpFuelConsumption_skeleton h₁]

/-- The visit of `global.set`. -/
lemma visitGlobalSet_visited {idx} (r : t.reachable = true)
    (h : t.visitGlobalSet cx idx = .ok t') : Visited cx (.globalSet idx) t t' := by
  simp only [visitGlobalSet, translateIfReachable, r, if_true, Compile.bind_ok, Prod.exists] at h
  obtain ⟨t₁, h₁, type, ht, _, t₂, h₂, t₃, h₃, h⟩ := h
  refine ⟨_, Compile.bind_ok.mpr ⟨type, ht, rfl⟩, ?_⟩
  change _ = (t.skeleton.charge cx cx.costs.entity).emit _
  unfold ValType.IsWide
  split at h
  next wide =>
    simp [wide, popN_skeleton h, popN_skeleton h₃, popType_skeleton h₂,
      bumpFuelConsumption_skeleton h₁]
  next narrow =>
    cases h
    simp [narrow, popN_skeleton h₃, popType_skeleton h₂, bumpFuelConsumption_skeleton h₁]

/-- The visit of `memory.size`. -/
lemma visitMemorySize_visited (r : t.reachable = true) (h : t.visitMemorySize cx = .ok t') :
    Visited cx .memorySize t t' := by
  simp only [visitMemorySize, translateIfReachable, r, if_true, Compile.bind_ok] at h
  obtain ⟨t₁, h₁, h⟩ := h
  cases h
  refine ⟨_, rfl, ?_⟩
  change _ = (t.skeleton.charge cx cx.costs.entity).emit _
  simp [bumpFuelConsumption_skeleton h₁]

/-- The visit of `memory.grow`. -/
lemma visitMemoryGrow_visited (r : t.reachable = true) (h : t.visitMemoryGrow cx = .ok t') :
    Visited cx .memoryGrow t t' := by
  simp only [visitMemoryGrow, translateIfReachable, r, if_true, Compile.bind_ok, Prod.exists] at h
  obtain ⟨t₁, h₁, type, ht, _, t₂, h₂, t₃, h₃, t₄, h₄, h⟩ := h
  cases h
  refine ⟨_, Compile.bind_ok.mpr ⟨type, ht, rfl⟩, ?_⟩
  have e₂ := popType_skeleton h₂
  rw [emit_skeleton, bumpFuelConsumption_skeleton h₁] at e₂
  rw [pushN_skeleton, popN_skeleton h₄, popN_skeleton h₃, pushN_skeleton, pushType_skeleton, e₂]
  rfl

/-- A bulk operator is charged and emits its code. -/
lemma visitBulk_skeleton {ops} (r : t.reachable = true) (h : t.visitBulk cx ops = .ok t') :
    ∃ emitted, ops = .ok emitted ∧
      t'.skeleton = (t.skeleton.charge cx cx.costs.entity).emit emitted := by
  simp only [visitBulk, translateIfReachable, r, if_true, Compile.bind_ok] at h
  obtain ⟨t₁, h₁, t₂, h₂, emitted, ho, t₃, h₃, t₄, h₄, h⟩ := h
  cases h
  refine ⟨emitted, ho, ?_⟩
  simp [popN_skeleton h₄, popN_skeleton h₃, popTypes_skeleton h₂, bumpFuelConsumption_skeleton h₁]

/-- The drop of a segment is charged and emits its code. -/
lemma visitSegmentDrop_skeleton {ops} (r : t.reachable = true)
    (h : t.visitSegmentDrop cx ops = .ok t') :
    t'.skeleton = (t.skeleton.charge cx cx.costs.entity).emit ops := by
  simp only [visitSegmentDrop, translateIfReachable, r, if_true, Compile.bind_ok] at h
  obtain ⟨t₁, h₁, h⟩ := h
  cases h
  simp [bumpFuelConsumption_skeleton h₁]

/-- The visit of `table.get`. -/
lemma visitTableGet_visited {table} (r : t.reachable = true)
    (h : t.visitTableGet cx table = .ok t') : Visited cx (.tableGet table) t t' := by
  simp only [visitTableGet, translateIfReachable, r, if_true, Compile.bind_ok, Prod.exists] at h
  obtain ⟨t₁, h₁, _, t₂, h₂, type, _, h⟩ := h
  cases h
  refine ⟨_, rfl, ?_⟩
  rw [pushType_skeleton, emit_skeleton, popType_skeleton h₂, bumpFuelConsumption_skeleton h₁]
  rfl

/-- The visit of `table.set`. -/
lemma visitTableSet_visited {table} (r : t.reachable = true)
    (h : t.visitTableSet cx table = .ok t') : Visited cx (.tableSet table) t t' := by
  simp only [visitTableSet, translateIfReachable, r, if_true, Compile.bind_ok] at h
  obtain ⟨t₁, h₁, t₂, h₂, t₃, h₃, h⟩ := h
  cases h
  refine ⟨_, rfl, ?_⟩
  rw [emit_skeleton, popTypes_skeleton h₃, popN_skeleton h₂, bumpFuelConsumption_skeleton h₁]
  rfl

/-- The visit of `table.grow`. -/
lemma visitTableGrow_visited {table} (r : t.reachable = true)
    (h : t.visitTableGrow cx table = .ok t') : Visited cx (.tableGrow table) t t' := by
  simp only [visitTableGrow, translateIfReachable, r, if_true, Compile.bind_ok] at h
  obtain ⟨t₁, h₁, t₂, h₂, type, ht, t₃, h₃, t₄, h₄, h⟩ := h
  cases h
  refine ⟨_, Compile.bind_ok.mpr ⟨type, ht, rfl⟩, ?_⟩
  change _ = (t.skeleton.charge cx cx.costs.entity).emit _
  simp [popN_skeleton h₄, popN_skeleton h₃, popTypes_skeleton h₂, bumpFuelConsumption_skeleton h₁]

/-- The visit of `table.size`. -/
lemma visitTableSize_visited {table} (r : t.reachable = true)
    (h : t.visitTableSize cx table = .ok t') : Visited cx (.tableSize table) t t' := by
  simp only [visitTableSize, translateIfReachable, r, if_true, Compile.bind_ok] at h
  obtain ⟨t₁, h₁, h⟩ := h
  cases h
  refine ⟨_, rfl, ?_⟩
  change _ = (t.skeleton.charge cx cx.costs.entity).emit _
  simp [bumpFuelConsumption_skeleton h₁]

/-- The visit of `call`. -/
lemma visitCall_visited {func} (r : t.reachable = true) (h : t.visitCall cx func = .ok t') :
    Visited cx (.call func) t t' := by
  simp only [visitCall, translateIfReachable, r, if_true, Compile.bind_ok] at h
  obtain ⟨t₁, h₁, type, _, t₂, h₂, ops, ho, h⟩ := h
  cases h
  refine ⟨ops, ho, ?_⟩
  change _ = (t.skeleton.charge cx cx.costs.call).emit _
  simp [adjustValueStackForCall_skeleton h₂, bumpFuelConsumption_skeleton h₁]

/-- The visit of `call_indirect`. -/
lemma visitCallIndirect_visited {type table} (r : t.reachable = true)
    (h : t.visitCallIndirect cx type table = .ok t') :
    Visited cx (.callIndirect type table) t t' := by
  simp only [visitCallIndirect, translateIfReachable, r, if_true, Compile.bind_ok,
    Prod.exists] at h
  obtain ⟨t₁, h₁, t₂, h₂, _, t₃, h₃, t₄, h₄, signature, hs, h⟩ := h
  cases h
  refine ⟨_, Compile.bind_ok.mpr ⟨signature, hs, rfl⟩, ?_⟩
  change _ = (t.skeleton.charge cx cx.costs.call).emit _
  simp [adjustValueStackForCall_skeleton h₄, popType_skeleton h₃, popN_skeleton h₂,
    bumpFuelConsumption_skeleton h₁]

/-- An operator that falls through is charged its cost, and emits its sequence. -/
theorem visitPlain_visited {op} (r : t.reachable = true) (h : t.visitPlain cx op = .ok t') :
    Visited cx op t t' := by
  cases op with
  | nop =>
    cases h
    refine ⟨[], rfl, ?_⟩
    rw [PlainOperator.cost, Skeleton.charge_zero, Skeleton.emit_nil]
    rfl
  | call => exact visitCall_visited r h
  | callIndirect => exact visitCallIndirect_visited r h
  | drop => exact visitDrop_visited r h
  | select | typedSelect => exact visitSelect_visited r h
  | localGet => exact visitLocalGet_visited r h
  | localSet => exact visitLocalSet_visited r h
  | localTee => exact visitLocalTee_visited r h
  | globalGet => exact visitGlobalGet_visited r h
  | globalSet => exact visitGlobalSet_visited r h
  | load => exact ⟨_, rfl, translateLoad_skeleton r h⟩
  | store => exact ⟨_, rfl, translateStore_skeleton r h⟩
  | memorySize => exact visitMemorySize_visited r h
  | memoryGrow => exact visitMemoryGrow_visited r h
  | i32Const | i64Const | f32Const | f64Const => exact ⟨_, rfl, visitConst_skeleton r h⟩
  | refNull => exact visitRefNull_visited r h
  | refIsNull => exact ⟨_, rfl, visitNumeric_skeleton r h⟩
  | refFunc => exact visitRefFunc_visited r h
  | i32WrapI64 => exact visitI32WrapI64_visited r h
  | numeric => exact ⟨_, rfl, visitNumeric_skeleton r h⟩
  | memoryInit | memoryCopy | memoryFill | tableInit | tableCopy | tableFill =>
    exact visitBulk_skeleton r h
  | dataDrop | elemDrop => exact ⟨_, rfl, visitSegmentDrop_skeleton r h⟩
  | tableGet => exact visitTableGet_visited r h
  | tableSet => exact visitTableSet_visited r h
  | tableGrow => exact visitTableGrow_visited r h
  | tableSize => exact visitTableSize_visited r h

/-- Unreachable operators that fall through are skipped. -/
theorem visitPlain_unreachable {op} (r : t.reachable = false)
    (h : t.visitPlain cx op = .ok t') : t' = t := by
  cases op
  case numeric op | refIsNull =>
    simp only [visitPlain, visitNumeric] at h
    split at h
    all_goals
      simp only [translateUnary, translateBinary, translateUnaryCompare, translateBinaryCompare,
        translateConversion, visitReinterpret, translateToSnippetCall, translateIfReachable, r,
        Bool.false_eq_true, if_false, ite_self] at h
      cases h
      rfl
  all_goals
    simp only [visitPlain, visitCall, visitCallIndirect, visitDrop, visitSelect, visitLocalGet,
      visitLocalSet, visitLocalTee, visitGlobalGet, visitGlobalSet, translateLoad, translateStore,
      visitMemorySize, visitMemoryGrow, visitConst, visitRefNull, visitRefFunc, visitI32WrapI64,
      visitMemoryInit, visitMemoryCopy, visitMemoryFill, visitTableInit, visitTableCopy,
      visitTableFill, visitBulk, visitSegmentDrop, visitTableGet, visitTableSet, visitTableGrow,
      visitTableSize, translateIfReachable, r, Bool.false_eq_true, if_false] at h
    cases h
    rfl

end InstructionTranslator

end Rwasm
