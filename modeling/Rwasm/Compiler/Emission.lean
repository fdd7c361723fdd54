import Rwasm.Compiler.References

/-!
# What function bodies emit

The visit of an operator adds instructions behind the code before it, and those of them that name functions
stand for what the operator refers to: one lemma for each visit, the visits of all the operators of a body,
and the whole translation of a function (`FuncBuilder::translate`).
-/

namespace Rwasm

open Opcode

/-- What follows a choice follows both branches. -/
lemma Compile.ite_bind {α β : Type} {c : Prop} [Decidable c] {x y : Compile α} {f : α → Compile β} :
    (if c then x else y) >>= f = if c then x >>= f else y >>= f := by
  split <;> rfl

namespace InstructionTranslator

variable {cx : Context} {t t' : InstructionTranslator}

/-- The visit of an operator adds instructions, and those that name functions refer to what the operator
does. -/
def Emits (cx : Context) (op : Operator) (t t' : InstructionTranslator) : Prop :=
  ∃ es, t.skeleton.Emits es t'.skeleton ∧ op.Explains cx es

/-- The visit of an operator that falls through. -/
lemma visitPlain_emits {op : PlainOperator} (h : t.visitPlain cx op = .ok t') :
    Emits cx (.plain op) t t' := by
  cases r : t.reachable with
  | false =>
    rw [visitPlain_unreachable r h]
    exact ⟨[], .of_eq rfl rfl, List.forall_mem_nil _⟩
  | true =>
    obtain ⟨ops, emitted, eq⟩ := visitPlain_visited r h
    rw [Emits, eq]
    cases called : op.snippet? cx with
    | none => exact ⟨_, Skeleton.Emits.charge.trans .emit, emitted_refers called emitted⟩
    | some s =>
      obtain rfl := emitted_snippet called emitted
      refine ⟨_, Skeleton.Emits.charge.trans .record, ?_⟩
      intro e mem r target
      cases List.mem_singleton.mp mem
      cases target
      exact .snippet called

/-! ## Control operators -/

/-- The visit of an operator that names no function. -/
lemma Emits.of_silent {op : Operator} (h : t.skeleton.Silent t'.skeleton) : Emits cx op t t' := by
  obtain ⟨ops, unnamed, h⟩ := h
  exact ⟨_, h, unnamed.refers⟩

/-- The label of the second arm, which an `if` without one is left with at its end. -/
def pinElse (frame : ControlFrame) (t : InstructionTranslator) : Compile InstructionTranslator :=
  match frame with
  | .if _ elseLabel _ _ => do
    let labels ← t.labels.tryPinLabel elseLabel t.currentPc
    return { t with labels := labels }
  | _ => return t

/-- The label of the end of a block. -/
def pinEnd (frame : ControlFrame) (t : InstructionTranslator) : Compile InstructionTranslator :=
  if frame.isReachable ∧ frame.kind ≠ .loop then do
    let endLabel ← frame.endLabel
    t.pinLabel endLabel
  else return t

/-- The end of the outermost block returns; what follows another is as reachable as the block was. -/
def leave (cx : Context) (frame : ControlFrame) (t : InstructionTranslator) :
    Compile InstructionTranslator :=
  if t.controlFrames.length = 1 then t.visitReturn cx
  else return { t with reachable := frame.isReachable }

/-- The emulated stack is what it was in front of the block. -/
def restore (frame : ControlFrame) (t : InstructionTranslator) : Compile InstructionTranslator :=
  match frame.stackHeight with
  | some height => t.shrinkTo height
  | none => return t

/-- The code behind a block is charged to a new location. -/
def close (cx : Context) (t : InstructionTranslator) : Compile InstructionTranslator :=
  if t.controlFrames = [] then return t else t.replaceConsumeFuel cx

/-- The visit of an `end`, step by step. -/
lemma visitEnd_eq : t.visitEnd cx = (do
    let frame ← t.lastFrame
    let t ← t.pinElse frame
    let t ← t.pinEnd frame
    let t ← t.leave cx frame
    let t ← t.restore frame
    let results ← blockResults cx frame.blockType
    close cx (pushValuesOf results { t with controlFrames := t.controlFrames.tail })) := by
  unfold visitEnd pinElse pinEnd leave restore close
  refine congrArg (Bind.bind _) (funext fun frame => ?_)
  cases frame
  all_goals
    simp only [bind_assoc, pure_bind, Compile.ite_bind, ControlFrame.stackHeight, ControlFrame.reachable?, Option.map]
    try rfl

/-- Reachable code ends the first arm of an `if` with a jump over the second. -/
def jumpOver (endLabel : Nat) (t : InstructionTranslator) : Compile InstructionTranslator :=
  if t.reachable then do
    let (offset, t) ← t.branchOffset endLabel
    return t.emit [br offset]
  else return t

/-- An `else` stands between the arms of an `if`; where the `if` is unreachable, nothing is done. -/
lemma visitElse_inv (h : t.visitElse cx = .ok t') :
    (∃ endLabel elseLabel frame frames,
      t.controlFrames = .if endLabel elseLabel none frame :: frames) ∨ t' = t := by
  unfold visitElse at h
  split at h
  next endLabel elseLabel frame frames found =>
    exact .inl ⟨endLabel, elseLabel, frame, frames, found⟩
  · cases h
    exact .inr rfl
  · cases h

/-- The code of a conditional branch. -/
def branchIf (cx : Context) (target : AcquiredTarget) (t : InstructionTranslator) :
    Compile InstructionTranslator :=
  match target with
  | .branch label dropKeep => do
    let t ← t.bumpFuelConsumption cx cx.costs.base
    if dropKeep.isNoop then do
      let (offset, t) ← t.branchOffset label
      return t.emit [brIfNez offset]
    else do
      let t := (t.emit [brIfEqz (dropKeep.code.length + 2)]).translateDropKeep dropKeep
      let (offset, t) ← t.branchOffset label
      return t.emit [br offset]
  | .ret dropKeep => do
    let t ← t.bumpFuelConsumption cx cx.costs.base
    return ((t.emit [brIfEqz (dropKeep.code.length + 2)]).translateDropKeep dropKeep).emit [ret]

/-- The visit of a reachable `br_if`, step by step. -/
lemma visitBrIf_eq {depth : Nat} (r : t.reachable = true) : t.visitBrIf cx depth = (do
    let t ← t.popN 1
    let (_, t) ← t.popType
    let t ← t.addBranch depth
    let target ← t.acquireTarget cx depth
    let t ← t.branchIf cx target
    t.replaceConsumeFuel cx) := by
  unfold visitBrIf translateIfReachable
  rw [if_pos r]
  refine bind_congr fun t₁ => bind_congr fun popped => bind_congr fun t₂ => bind_congr fun target => ?_
  cases target <;> simp only [branchIf, bind_assoc, pure_bind, Compile.ite_bind]

/-- The location the second arm of an `if` is charged to. -/
def elseFuel (frame : ReachableFrame) (fuel : Option Nat) : Compile (Option Nat) :=
  match fuel with
  | some instr => if frame.consumeFuel.isSome then return some instr else .panic
  | none => return frame.consumeFuel

/-- The visit of the `else` of a reachable `if`, step by step. -/
lemma visitElse_eq {endLabel elseLabel : Nat} {frame : ReachableFrame} {frames : List ControlFrame}
    (found : t.controlFrames = .if endLabel elseLabel none frame :: frames) :
    t.visitElse cx = (do
      let t₁ ← t.jumpOver endLabel
      let t₂ ← t₁.pinLabel elseLabel
      let fuel ← elseFuel frame (cx.fuelAt t₂.currentPc)
      let t₃ ← (t₂.emit cx.fuelCode).shrinkTo frame.stackHeight
      let params ← blockParams cx frame.blockType
      return { pushValuesOf params t₃ with
        controlFrames := .if endLabel elseLabel (some t₁.reachable)
          { frame with consumeFuel := fuel } :: frames
        reachable := true }) := by
  unfold visitElse jumpOver elseFuel
  rw [found]
  simp only [pushConsumeFuel_eq, bind_assoc, pure_bind, Compile.ite_bind]
  split
  · refine bind_congr fun _ => bind_congr fun t₂ => ?_
    cases cx.fuelAt t₂.currentPc with
    | none => rfl
    | some instr => rw [Compile.ite_bind, pure_bind]
  · refine bind_congr fun t₂ => ?_
    cases cx.fuelAt t₂.currentPc with
    | none => rfl
    | some instr => rw [Compile.ite_bind, pure_bind]

/-- Code is added that names no function. -/
def Silent (t t' : InstructionTranslator) : Prop :=
  t.skeleton.Silent t'.skeleton

/-- Only what does not concern the code changes. -/
lemma Silent.of_eq (code : t'.instructionSet = t.instructionSet)
    (calls : t'.snippetCalls = t.snippetCalls) : t.Silent t' :=
  Skeleton.Silent.of_eq code calls

/-- Silent steps one after the other. -/
lemma Silent.trans {t'' : InstructionTranslator} (h : t.Silent t') (h' : t'.Silent t'') :
    t.Silent t'' :=
  Skeleton.Silent.trans h h'

/-- Instructions that name no function are silent. -/
lemma Silent.emit {ops : List Opcode} (h : Unnamed ops) : t.Silent (t.emit ops) :=
  Skeleton.Silent.emit h

/-- A step that emits nothing is silent. -/
lemma Silent.skeleton (h : t'.skeleton = t.skeleton) : t.Silent t' :=
  .of_eq (congrArg Skeleton.code h) (congrArg Skeleton.snippetCalls h)

/-- Popping slots is silent. -/
lemma popN_silent {n : Nat} (h : t.popN n = .ok t') : t.Silent t' :=
  .skeleton (popN_skeleton h)

/-- Popping a type is silent. -/
lemma popType_silent {type : ValType} (h : t.popType = .ok (type, t')) : t.Silent t' :=
  .skeleton (popType_skeleton h)

/-- Shrinking the stack is silent. -/
lemma shrinkTo_silent {height : Nat} (h : t.shrinkTo height = .ok t') : t.Silent t' :=
  .skeleton (shrinkTo_skeleton h)

/-- Raising a charge names no function. -/
lemma bumpFuelConsumption_silent {delta : Nat} (h : t.bumpFuelConsumption cx delta = .ok t') :
    t.Silent t' := by
  rw [Silent, bumpFuelConsumption_skeleton h]
  exact .charge

/-- Counting a branch is silent. -/
lemma addBranch_silent {depth : Nat} (h : t.addBranch depth = .ok t') : t.Silent t' := by
  obtain ⟨frame, -, eq⟩ := addBranch_skeleton h
  rw [Silent, eq]
  exact .of_eq rfl rfl

/-- Pinning a label is silent. -/
lemma pinLabel_silent {label : Nat} (h : t.pinLabel label = .ok t') : t.Silent t' := by
  rw [Silent, (pinLabel_skeleton h).2.1]
  exact .of_eq rfl rfl

/-- Resolving a label is silent. -/
lemma tryResolveLabelFor_silent {label instr : Nat} {offset : Int}
    (h : t.tryResolveLabelFor label instr = .ok (offset, t')) : t.Silent t' := by
  rw [Silent, (tryResolveLabelFor_skeleton h).2.1]
  exact .of_eq rfl rfl

/-- Opening a new charge names no function. -/
lemma replaceConsumeFuel_silent (h : t.replaceConsumeFuel cx = .ok t') : t.Silent t' := by
  obtain ⟨frames, eq, -⟩ := replaceConsumeFuel_skeleton h
  rw [Silent, eq]
  exact (Skeleton.Silent.emit (s := t.skeleton) .fuelCode).trans (.of_eq rfl rfl)

/-- Dropping and keeping names no function. -/
lemma translateDropKeep_silent {dk : DropKeep} : t.Silent (t.translateDropKeep dk) :=
  .emit .dropKeep

/-- The visit of `unreachable` names no function. -/
lemma visitUnreachable_silent (h : t.visitUnreachable = .ok t') : t.Silent t' := by
  unfold visitUnreachable translateIfReachable at h
  split at h
  · cases h
    exact (Silent.emit (.of_all rfl)).trans (.of_eq rfl rfl)
  · cases h
    exact .of_eq rfl rfl

/-- The visit of `return` names no function. -/
lemma visitReturn_silent (h : t.visitReturn cx = .ok t') : t.Silent t' := by
  unfold visitReturn translateIfReachable at h
  split at h
  · obtain ⟨dk, -, h⟩ := Compile.bind_ok.mp h
    cases h
    have kept : t.Silent (t.translateDropKeep dk) := translateDropKeep_silent
    exact (kept.trans (.emit (.of_all rfl))).trans (.of_eq rfl rfl)
  · cases h
    exact .of_eq rfl rfl

/-- The visit of `block` names no function. -/
lemma visitBlock_silent {type : BlockType} (h : t.visitBlock cx type = .ok t') : t.Silent t' := by
  cases r : t.reachable with
  | false =>
    rw [visitBlock_dead r h]
    exact .of_eq rfl rfl
  | true =>
    obtain ⟨height, -, -, -, eq⟩ := visitBlock_live r h
    rw [Silent, eq]
    exact .of_eq rfl rfl

/-- The visit of `loop` names no function. -/
lemma visitLoop_silent {type : BlockType} (h : t.visitLoop cx type = .ok t') : t.Silent t' := by
  cases r : t.reachable with
  | false =>
    rw [visitLoop_dead r h]
    exact .of_eq rfl rfl
  | true =>
    obtain ⟨height, labels, -, -, -, -, eq⟩ := visitLoop_live r h
    rw [Silent, eq]
    exact (Skeleton.Silent.emit (s := t.skeleton) .fuelCode).trans (.of_eq rfl rfl)

/-- The visit of `if` names no function. -/
lemma visitIf_silent {type : BlockType} (h : t.visitIf cx type = .ok t') : t.Silent t' := by
  unfold visitIf at h
  split at h
  · simp only [Compile.bind_ok, Prod.exists, pushConsumeFuel_eq] at h
    obtain ⟨t₁, h₁, height, -, t₂, h₂, offset, t₃, h₃, h⟩ := h
    cases h
    have popped := popN_silent h₁
    have labelled : t₁.Silent
        ({ t₁ with stackTypes := t₁.stackTypes.tail } : InstructionTranslator).newLabel.2.newLabel.2 :=
      .of_eq rfl rfl
    have charged := labelled.trans (bumpFuelConsumption_silent h₂)
    have branched := tryResolveLabelFor_silent h₃
    refine (((popped.trans charged).trans branched).trans (@Silent.emit _ [brIfEqz offset] ?_)).trans ?_
    · exact .of_all rfl
    · exact (Silent.emit .fuelCode).trans (.of_eq rfl rfl)
  · cases h
    exact .of_eq rfl rfl

/-- The jump over the second arm names no function. -/
lemma jumpOver_silent {label : Nat} (h : t.jumpOver label = .ok t') : t.Silent t' := by
  unfold jumpOver at h
  split at h
  · obtain ⟨⟨offset, t₁⟩, h₁, h⟩ := Compile.bind_ok.mp h
    cases h
    exact (tryResolveLabelFor_silent h₁).trans (.emit (.of_all rfl))
  · cases h
    exact .of_eq rfl rfl

/-- The visit of `else` names no function. -/
lemma visitElse_silent (h : t.visitElse cx = .ok t') : t.Silent t' := by
  rcases visitElse_inv h with ⟨endLabel, elseLabel, frame, frames, found⟩ | rfl
  · rw [visitElse_eq found] at h
    simp only [Compile.bind_ok] at h
    obtain ⟨t₁, h₁, t₂, h₂, fuel, -, t₃, h₃, params, -, h⟩ := h
    cases h
    have left := (jumpOver_silent h₁).trans (pinLabel_silent h₂)
    have entered : t₂.Silent t₃ := (Silent.emit .fuelCode).trans (shrinkTo_silent h₃)
    have pushed : t₃.Silent (pushValuesOf params t₃) := .skeleton pushValuesOf_skeleton
    exact ((left.trans entered).trans pushed).trans (.of_eq rfl rfl)
  · exact .of_eq rfl rfl

/-- Pinning the second arm is silent. -/
lemma pinElse_silent {frame : ControlFrame} (h : t.pinElse frame = .ok t') : t.Silent t' := by
  unfold pinElse at h
  split at h
  · obtain ⟨labels, -, h⟩ := Compile.bind_ok.mp h
    cases h
    exact .of_eq rfl rfl
  · cases h
    exact .of_eq rfl rfl

/-- Pinning the end of a frame is silent. -/
lemma pinEnd_silent {frame : ControlFrame} (h : t.pinEnd frame = .ok t') : t.Silent t' := by
  unfold pinEnd at h
  split at h
  · obtain ⟨label, -, h⟩ := Compile.bind_ok.mp h
    exact pinLabel_silent h
  · cases h
    exact .of_eq rfl rfl

/-- Leaving a frame names no function. -/
lemma leave_silent {frame : ControlFrame} (h : t.leave cx frame = .ok t') : t.Silent t' := by
  unfold leave at h
  split at h
  · exact visitReturn_silent h
  · cases h
    exact .of_eq rfl rfl

/-- Restoring the height of a frame is silent. -/
lemma restore_silent {frame : ControlFrame} (h : t.restore frame = .ok t') : t.Silent t' := by
  unfold restore at h
  split at h
  · exact shrinkTo_silent h
  · cases h
    exact .of_eq rfl rfl

/-- Closing a frame names no function. -/
lemma close_silent (h : t.close cx = .ok t') : t.Silent t' := by
  unfold close at h
  split at h
  · cases h
    exact .of_eq rfl rfl
  · exact replaceConsumeFuel_silent h

/-- The visit of `end` names no function. -/
lemma visitEnd_silent (h : t.visitEnd cx = .ok t') : t.Silent t' := by
  rw [visitEnd_eq] at h
  simp only [Compile.bind_ok] at h
  obtain ⟨frame, -, t₁, h₁, t₂, h₂, t₃, h₃, t₄, h₄, results, -, h⟩ := h
  have pinned := (pinElse_silent h₁).trans (pinEnd_silent h₂)
  have left := (leave_silent h₃).trans (restore_silent h₄)
  have popped : t₄.Silent { t₄ with controlFrames := t₄.controlFrames.tail } := .of_eq rfl rfl
  have pushed := popped.trans (.skeleton (@pushValuesOf_skeleton _ results))
  exact ((pinned.trans left).trans pushed).trans (close_silent h)

/-- The visit of `br` names no function. -/
lemma visitBr_silent {depth : Nat} (h : t.visitBr cx depth = .ok t') : t.Silent t' := by
  unfold visitBr translateIfReachable at h
  split at h
  · simp only [Compile.bind_ok] at h
    obtain ⟨t₁, h₁, target, -, h⟩ := h
    have counted := addBranch_silent h₁
    cases target with
    | branch label dk =>
      simp only [Compile.bind_ok, Prod.exists] at h
      obtain ⟨t₂, h₂, offset, t₃, h₃, h⟩ := h
      cases h
      have charged := counted.trans (bumpFuelConsumption_silent h₂)
      have dropped := charged.trans (translateDropKeep_silent.trans (tryResolveLabelFor_silent h₃))
      exact (dropped.trans (@Silent.emit _ [br offset] (.of_all rfl))).trans (.of_eq rfl rfl)
    | ret dk =>
      simp only [Compile.bind_ok] at h
      obtain ⟨t₂, h₂, t₃, h₃, h⟩ := h
      cases h
      have charged := counted.trans (bumpFuelConsumption_silent h₂)
      exact (charged.trans (visitReturn_silent h₃)).trans (.of_eq rfl rfl)
  · cases h
    exact .of_eq rfl rfl

/-- The code of a conditional branch names no function. -/
lemma branchIf_silent {target : AcquiredTarget} (h : t.branchIf cx target = .ok t') : t.Silent t' := by
  cases target with
  | branch label dk =>
    simp only [branchIf, Compile.bind_ok] at h
    obtain ⟨t₁, h₁, h⟩ := h
    have charged := bumpFuelConsumption_silent h₁
    split at h
    · obtain ⟨⟨offset, t₂⟩, h₂, h⟩ := Compile.bind_ok.mp h
      cases h
      exact (charged.trans (tryResolveLabelFor_silent h₂)).trans (.emit (.of_all rfl))
    · obtain ⟨⟨offset, t₂⟩, h₂, h⟩ := Compile.bind_ok.mp h
      cases h
      have jumped := charged.trans (@Silent.emit _ [brIfEqz (dk.code.length + 2)] (.of_all rfl))
      have dropped := (jumped.trans translateDropKeep_silent).trans (tryResolveLabelFor_silent h₂)
      exact dropped.trans (.emit (.of_all rfl))
  | ret dk =>
    simp only [branchIf, Compile.bind_ok] at h
    obtain ⟨t₁, h₁, h⟩ := h
    cases h
    have charged := bumpFuelConsumption_silent h₁
    have jumped := charged.trans (@Silent.emit _ [brIfEqz (dk.code.length + 2)] (.of_all rfl))
    exact (jumped.trans translateDropKeep_silent).trans (.emit (.of_all rfl))

/-- The visit of `br_if` names no function. -/
lemma visitBrIf_silent {depth : Nat} (h : t.visitBrIf cx depth = .ok t') : t.Silent t' := by
  cases r : t.reachable with
  | false =>
    simp only [visitBrIf, translateIfReachable, r, Bool.false_eq_true, if_false] at h
    cases h
    exact .of_eq rfl rfl
  | true =>
    rw [visitBrIf_eq r] at h
    simp only [Compile.bind_ok, Prod.exists] at h
    obtain ⟨t₁, h₁, type, t₂, h₂, t₃, h₃, target, -, t₄, h₄, h⟩ := h
    have popped := (popN_silent h₁).trans (popType_silent h₂)
    have branched := (addBranch_silent h₃).trans (branchIf_silent h₄)
    exact (popped.trans branched).trans (replaceConsumeFuel_silent h)

/-- The code of a branch table so far. -/
def BrTableCode.Unnamed (code : BrTableCode) : Prop :=
  Rwasm.Unnamed code.branches ∧ Rwasm.Unnamed code.trampolines

/-- An entry of a branch table names no function. -/
lemma encodeBrTableTarget_silent {target : AcquiredTarget} {len : Nat} {code code' : BrTableCode}
    (unnamed : code.Unnamed) (h : encodeBrTableTarget target len code t = .ok (code', t')) :
    code'.Unnamed ∧ t.Silent t' := by
  obtain ⟨branches, trampolines⟩ := unnamed
  cases target with
  | ret dk =>
    simp only [encodeBrTableTarget] at h
    split at h
    · cases h
      exact ⟨⟨branches.append (.of_all rfl), trampolines⟩, .of_eq rfl rfl⟩
    · cases h
      exact ⟨⟨branches.append (.of_all rfl), (trampolines.append .dropKeep).append (.of_all rfl)⟩,
        .of_eq rfl rfl⟩
  | branch label dk =>
    simp only [encodeBrTableTarget] at h
    split at h
    · obtain ⟨⟨offset, t₁⟩, h₁, h⟩ := Compile.bind_ok.mp h
      cases h
      exact ⟨⟨branches.append (.of_all rfl), trampolines⟩, tryResolveLabelFor_silent h₁⟩
    · obtain ⟨⟨offset, t₁⟩, h₁, h⟩ := Compile.bind_ok.mp h
      cases h
      have touched : t.Silent { t with stackHeight := dk.touch t.stackHeight } := .of_eq rfl rfl
      exact ⟨⟨branches.append (.of_all rfl), (trampolines.append .dropKeep).append (.of_all rfl)⟩,
        touched.trans (tryResolveLabelFor_silent h₁)⟩

/-- The entries of a branch table name no function. -/
lemma encodeBrTable_silent {depths : List Nat} {len : Nat} {code code' : BrTableCode}
    (unnamed : code.Unnamed) (h : encodeBrTable cx len depths code t = .ok (code', t')) :
    code'.Unnamed ∧ t.Silent t' := by
  induction depths generalizing code t with
  | nil =>
    cases h
    exact ⟨unnamed, .of_eq rfl rfl⟩
  | cons depth depths ih =>
    simp only [encodeBrTable, Compile.bind_ok] at h
    obtain ⟨t₁, h₁, target, -, ⟨code₂, t₂⟩, h₂, h⟩ := h
    obtain ⟨unnamed₂, encoded⟩ := encodeBrTableTarget_silent unnamed h₂
    obtain ⟨unnamed', rest⟩ := ih unnamed₂ h
    exact ⟨unnamed', ((addBranch_silent h₁).trans encoded).trans rest⟩

/-- The visit of `br_table` names no function. -/
lemma visitBrTable_silent {targets : List Nat} {default : Nat}
    (h : t.visitBrTable cx targets default = .ok t') : t.Silent t' := by
  unfold visitBrTable translateIfReachable at h
  split at h
  · simp only [Compile.bind_ok, Prod.exists] at h
    obtain ⟨t₁, h₁, t₂, h₂, type, t₃, h₃, code, t₄, h₄, h⟩ := h
    have popped := ((bumpFuelConsumption_silent h₁).trans (popN_silent h₂)).trans (popType_silent h₃)
    have empty : BrTableCode.Unnamed {} := ⟨.of_all rfl, .of_all rfl⟩
    obtain ⟨⟨branches, trampolines⟩, encoded⟩ := encodeBrTable_silent empty h₄
    split at h
    · cases h
      have table : Unnamed ([brTable (targets.length + 1)] ++ code.branches ++ code.trampolines) :=
        (Unnamed.append (.of_all rfl) branches).append trampolines
      exact ((popped.trans encoded).trans (.emit table)).trans (.of_eq rfl rfl)
    · cases h
  · cases h
    exact .of_eq rfl rfl

/-- The visit of an indirect tail call names no function. -/
lemma visitReturnCallIndirect_silent {type table : Nat}
    (h : t.visitReturnCallIndirect cx type table = .ok t') : t.Silent t' := by
  unfold visitReturnCallIndirect translateIfReachable at h
  split at h
  · simp only [Compile.bind_ok, Prod.exists] at h
    obtain ⟨funcType, -, t₁, h₁, popped, t₂, h₂, dk₁, -, dk, -, t₃, h₃, signature, -, h⟩ := h
    cases h
    have charged := ((popN_silent h₁).trans (popType_silent h₂)).trans (bumpFuelConsumption_silent h₃)
    have dropped := charged.trans (@translateDropKeep_silent t₃ dk)
    exact (dropped.trans (.emit (.of_all rfl))).trans (.of_eq rfl rfl)
  · cases h
    exact .of_eq rfl rfl

/-- A tail call is emitted behind the code that drops the locals. -/
lemma visitReturnCall_emits {func : Nat} (h : t.visitReturnCall cx func = .ok t') :
    Emits cx (.leave (.returnCall func)) t t' := by
  unfold visitReturnCall translateIfReachable at h
  split at h
  · simp only [Compile.bind_ok] at h
    obtain ⟨type, -, funcType, -, dk, -, t₁, h₁, ops, emitted, h⟩ := h
    cases h
    obtain ⟨dropping, unnamed, dropped⟩ :=
      (bumpFuelConsumption_silent h₁).trans (@translateDropKeep_silent t₁ dk)
    have called := dropped.trans (@Skeleton.Emits.emit _ ops)
    refine ⟨_, called.trans (.of_eq rfl rfl), ?_⟩
    rw [List.append_nil]
    exact Operator.Explains.append unnamed.refers
      (@emitFunctionCall_refers _ _ func true _ rfl emitted)
  · cases h
    exact .of_silent (.of_eq rfl rfl)

/-- The visit of an operator adds what it refers to. -/
theorem visit_emits {op : Operator} (h : t.visit cx op = .ok t') : Emits cx op t t' := by
  cases op with
  | plain op => exact visitPlain_emits h
  | leave op =>
    cases op with
    | unreachable => exact .of_silent (visitUnreachable_silent h)
    | br depth => exact .of_silent (visitBr_silent h)
    | brTable targets default => exact .of_silent (visitBrTable_silent h)
    | ret => exact .of_silent (visitReturn_silent h)
    | returnCall func => exact visitReturnCall_emits h
    | returnCallIndirect type table => exact .of_silent (visitReturnCallIndirect_silent h)
  | brIf depth => exact .of_silent (visitBrIf_silent h)
  | block type => exact .of_silent (visitBlock_silent h)
  | loop type => exact .of_silent (visitLoop_silent h)
  | «if» type => exact .of_silent (visitIf_silent h)
  | «else» => exact .of_silent (visitElse_silent h)
  | «end» => exact .of_silent (visitEnd_silent h)

/-- Operators, visited in order from a state on. The instruction at a location is emitted for one of
them, and stands for what that operator refers to. -/
def VisitedAt (cx : Context) (ops : List Operator) (t : InstructionTranslator) (loc : Nat) (o : Opcode)
    (r : Reference) : Prop :=
  ∃ pre op post t₁ t₂, ops = pre ++ op :: post ∧ visitAll cx pre t = .ok t₁ ∧
    t₁.visit cx op = .ok t₂ ∧ t₁.currentPc ≤ loc ∧ loc < t₂.currentPc ∧
    t₂.instructionSet[loc]? = some o ∧ op.Refers cx o r

/-- What a later operator emitted, seen from one operator earlier. -/
lemma VisitedAt.cons {op : Operator} {ops : List Operator} {loc : Nat} {o : Opcode} {r : Reference}
    (visited : t.visit cx op = .ok t') (h : VisitedAt cx ops t' loc o r) :
    VisitedAt cx (op :: ops) t loc o r := by
  obtain ⟨pre, op', post, t₁, t₂, rfl, before, rest⟩ := h
  refine ⟨op :: pre, op', post, t₁, t₂, rfl, ?_, rest⟩
  rw [visitAll, visited]
  exact before

/-- An emitted instruction that names a function stands behind the code before it. -/
lemma Emits.getElem? {es : List Emission} {k n : Nat} {e : Emission}
    (h : t.skeleton.Emits es t'.skeleton) (found : es[k]? = some e) (named : e.op.funcNumber = some n) :
    t'.instructionSet[t.currentPc + k]? = some e.op := by
  have same := congrArg (fun code => code[t.currentPc + k]?) h.code
  have emitted : (t.skeleton.code ++ es.map Emission.op)[t.currentPc + k]? = some e.op := by
    show (t.skeleton.code ++ es.map Emission.op)[t.skeleton.code.length + k]? = some e.op
    rw [List.getElem?_append_right (Nat.le_add_right _ _), Nat.add_sub_cancel_left, List.getElem?_map,
      found]
    rfl
  simp only [List.getElem?_map, emitted, Option.map_some] at same
  obtain ⟨o, found, stencil⟩ := Option.map_eq_some_iff.mp same
  rw [Opcode.eq_of_stencil stencil.symm named] at found
  exact found

/-- Visiting operators adds what they refer to. -/
theorem visitAll_emits {ops : List Operator} (h : visitAll cx ops t = .ok t') :
    ∃ es, t.skeleton.Emits es t'.skeleton ∧ ∀ (k : Nat) (e : Emission) (r : Reference),
      es[k]? = some e → e.target = some r → VisitedAt cx ops t (t.currentPc + k) e.op r := by
  induction ops generalizing t with
  | nil =>
    cases h
    refine ⟨[], .of_eq rfl rfl, ?_⟩
    intro k e r found
    cases found
  | cons op ops ih =>
    obtain ⟨t₁, visited, h⟩ := Compile.bind_ok.mp h
    obtain ⟨es, emits, explained⟩ := visit_emits visited
    obtain ⟨es', emits', rest⟩ := ih h
    refine ⟨es ++ es', emits.trans emits', ?_⟩
    intro k e r found target
    have length : t₁.currentPc = t.currentPc + es.length := emits.length
    by_cases lt : k < es.length
    · rw [List.getElem?_append_left lt] at found
      have refers := explained e (List.mem_of_getElem? found) r target
      obtain ⟨n, named⟩ : ∃ n, e.op.funcNumber = some n := by
        rw [← Option.isSome_iff_exists, ← e.isSome_target, target]
        rfl
      exact ⟨[], op, ops, t, t₁, rfl, rfl, visited, Nat.le_add_right _ _, by omega,
        Emits.getElem? emits found named, refers⟩
    · rw [List.getElem?_append_right (by omega)] at found
      have at' := rest (k - es.length) e r found target
      rw [show t₁.currentPc + (k - es.length) = t.currentPc + k by omega] at at'
      exact at'.cons visited

/-! ## Function bodies -/

/-- A function begins with its signature check. -/
lemma prepare_emits {func : Nat} (h : t.prepare cx func = .ok t') :
    ∃ type signature, cx.resolveFuncTypeIndex func = .ok type ∧
      cx.funcTypeRegistry.resolveFuncTypeSignature type = .ok signature ∧
      t.skeleton.Emits ((signatureCheck signature :: cx.fuelCode).map Opcode.emission) t'.skeleton := by
  simp only [prepare, Compile.bind_ok, pushConsumeFuel_eq] at h
  obtain ⟨type, ht, signature, hs, original, -, funcType, -, h⟩ := h
  refine ⟨type, signature, ht, hs, ?_⟩
  have opened : t.skeleton.Emits ((signatureCheck signature :: cx.fuelCode).map Opcode.emission)
      ((t.skeleton.emit [signatureCheck signature]).emit cx.fuelCode) := by
    rw [← List.singleton_append, List.map_append]
    exact Skeleton.Emits.emit.trans .emit
  split at h
  · rw [bumpFuelConsumption_skeleton h]
    refine Skeleton.Emits.charged ?_
    exact opened.congr rfl rfl
  · cases h
    exact opened.congr rfl rfl

/-- The code for a group of locals names no function. -/
lemma translateLocalGroup_silent {group : Nat × ValType} (h : t.translateLocalGroup group = .ok t') :
    t.Silent t' := by
  unfold translateLocalGroup at h
  split at h
  · cases h
  · cases h
    exact (Silent.emit (.of_all rfl)).trans (.of_eq rfl rfl)

/-- The code for all groups of locals names no function. -/
lemma translateLocalGroups_silent {locals : List (Nat × ValType)}
    (h : locals.foldlM translateLocalGroup t = .ok t') : t.Silent t' := by
  induction locals generalizing t with
  | nil =>
    cases h
    exact .of_eq rfl rfl
  | cons group locals ih =>
    rw [List.foldlM_cons, Compile.bind_ok] at h
    obtain ⟨t₁, h₁, h⟩ := h
    exact (translateLocalGroup_silent h₁).trans (ih h)

/-- The code for the locals names no function. -/
lemma translateLocals_silent {locals : List (Nat × ValType)}
    (h : t.translateLocals cx locals = .ok t') : t.Silent t' := by
  unfold translateLocals at h
  dsimp only at h
  split at h
  · obtain ⟨t₁, h₁, h⟩ := Compile.bind_ok.mp h
    exact (bumpFuelConsumption_silent h₁).trans (translateLocalGroups_silent h)
  · rw [pure_bind] at h
    exact translateLocalGroups_silent h

/-- Filling in offsets keeps the stencil of the code. -/
lemma resolveUser_stencil {labels : LabelRegistry} {code code' : List Opcode} {u : LabelUser}
    (h : resolveUser labels code u = .ok code') :
    code'.map Opcode.stencil = code.map Opcode.stencil := by
  simp only [resolveUser, Compile.bind_ok, Compile.unwrap_ok] at h
  obtain ⟨offset, -, op, found, op', patched, h⟩ := h
  cases h
  refine map_set_same found ?_
  cases op <;> cases patched <;> rfl

/-- Resolving the users of labels changes offsets only. -/
lemma resolveUsers_stencil {labels : LabelRegistry} {users : List LabelUser} {code code' : List Opcode}
    (h : users.foldlM (resolveUser labels) code = .ok code') :
    code'.map Opcode.stencil = code.map Opcode.stencil := by
  induction users generalizing code with
  | nil =>
    cases h
    rfl
  | cons u users ih =>
    rw [List.foldlM_cons, Compile.bind_ok] at h
    obtain ⟨code₁, h₁, h⟩ := h
    rw [ih h, resolveUser_stencil h₁]

/-- Patching the stack check changes its height only. -/
lemma patchStackCheck_stencil {height n : Nat} {code code' : List Opcode}
    (h : patchStackCheck height n code = .ok code') :
    code'.map Opcode.stencil = code.map Opcode.stencil := by
  induction n generalizing code code' with
  | zero =>
    unfold patchStackCheck at h
    cases h
    rfl
  | succ n ih =>
    cases code with
    | nil =>
      cases h
      rfl
    | cons op code =>
      simp only [patchStackCheck] at h
      split at h
      · obtain ⟨code₁, h₁, h⟩ := Compile.bind_ok.mp h
        cases h
        rw [List.map_cons, List.map_cons, ih h₁]
      · obtain ⟨code₁, h₁, h⟩ := Compile.bind_ok.mp h
        cases h
        rw [List.map_cons, List.map_cons, ih h₁]
      · cases h
        rfl
      · cases h

/-- What is filled in at the end of a function keeps the stencil of the code. -/
lemma finish_stencil {offset : Nat} {code : List Opcode} (h : t.finish cx offset = .ok code) :
    code.map Opcode.stencil = t.instructionSet.map Opcode.stencil := by
  simp only [finish, Compile.bind_ok] at h
  obtain ⟨resolved, hr, body, hb, h⟩ := h
  cases h
  rw [List.map_append, patchStackCheck_stencil hb, ← List.map_append, List.take_append_drop,
    resolveUsers_stencil hr]

end InstructionTranslator

open InstructionTranslator

namespace FuncBuilder

variable {cx : Context} {func : Nat} {locals : List (Nat × ValType)} {operators : List Operator}
  {code code' : List Opcode} {calls calls' : List SnippetCall}

/-- The state in front of the operators of a function. -/
def enter (cx : Context) (func : Nat) (locals : List (Nat × ValType)) (code : List Opcode)
    (snippetCalls : List SnippetCall) : Compile InstructionTranslator := do
  let t : InstructionTranslator := { instructionSet := code, snippetCalls := snippetCalls }
  let t ← t.prepare cx func
  let t ← t.bumpFuelConsumption cx cx.costs.base
  (t.emit [stackCheck (2 ^ 32 - 1)]).translateLocals cx locals

/-- The translation of a function: its entry, its operators and its end. -/
lemma translate_eq : translate cx func locals operators code calls = (do
    let t ← enter cx func locals code calls
    let t ← visitAll cx operators t
    let final ← t.finish cx code.length
    return (final, t.snippetCalls)) := by
  simp only [translate, enter, bind_assoc]

/-- The code of a function behind other code: its signature check, and what its operators refer to. -/
structure Translates (cx : Context) (func : Nat) (locals : List (Nat × ValType))
    (operators : List Operator) (code : List Opcode) (calls : List SnippetCall) (es : List Emission) :
    Prop where
  begins : ∃ type signature, cx.resolveFuncTypeIndex func = .ok type ∧
    cx.funcTypeRegistry.resolveFuncTypeSignature type = .ok signature ∧
    (es.map Emission.op).head? = some (signatureCheck signature)
  refers : ∀ (k : Nat) (e : Emission) (r : Reference), es[k]? = some e → e.target = some r →
    ∃ t, enter cx func locals code calls = .ok t ∧
      VisitedAt cx operators t (code.length + k) e.op r

/-- What the translation of a function adds. -/
theorem translate_translates (h : translate cx func locals operators code calls = .ok (code', calls')) :
    ∃ es, Translates cx func locals operators code calls es ∧
      code'.map Opcode.stencil = (code ++ es.map Emission.op).map Opcode.stencil ∧
      calls' = calls ++ snippetCallsFrom code.length es := by
  rw [translate_eq] at h
  simp only [Compile.bind_ok] at h
  obtain ⟨t, entered, t', visited, final, finished, h⟩ := h
  cases h
  obtain ⟨es, emits, refers⟩ := visitAll_emits visited
  have entered' := entered
  simp only [enter, Compile.bind_ok] at entered'
  obtain ⟨t₁, prepared, t₂, charged, located⟩ := entered'
  obtain ⟨type, signature, ht, hs, opened⟩ := prepare_emits prepared
  obtain ⟨ops, unnamed, silent⟩ := ((bumpFuelConsumption_silent charged).trans
    (.emit (.of_all rfl))).trans (translateLocals_silent located)
  have begun := opened.trans silent
  rw [← List.map_append] at begun
  have names : Unnamed ([signatureCheck signature] ++ cx.fuelCode ++ ops) :=
    (Unnamed.append (.of_all rfl) .fuelCode).append unnamed
  refine ⟨(signatureCheck signature :: cx.fuelCode ++ ops).map Opcode.emission ++ es,
    ⟨⟨type, signature, ht, hs, rfl⟩, ?_⟩, ?_, ?_⟩
  rotate_left
  · rw [finish_stencil finished]
    exact (begun.trans emits).code
  · exact (begun.trans emits).snippetCalls
  intro k e r found target
  refine ⟨t, entered, ?_⟩
  have length : t.currentPc = code.length + _ := begun.length
  by_cases lt : k < ((signatureCheck signature :: cx.fuelCode ++ ops).map Opcode.emission).length
  · -- what stands in front of the operators names no function
    rw [List.getElem?_append_left lt] at found
    rw [names.target (List.mem_of_getElem? found)] at target
    cases target
  · rw [List.getElem?_append_right (Nat.not_lt.mp lt)] at found
    have visited := refers _ e r found target
    rwa [length, Nat.add_assoc, Nat.add_sub_cancel' (Nat.not_lt.mp lt)] at visited

end FuncBuilder

end Rwasm
