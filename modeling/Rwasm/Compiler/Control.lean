import Rwasm.Compiler.Resolve

/-!
# What visiting a control operator does to the code

The visits of the operators that open, close and leave blocks, as changes of the skeleton of the
translation state.
-/

namespace Rwasm

open Opcode

/-- The code of a new charge. -/
def Context.fuelCode (cx : Context) : List Opcode :=
  if cx.withConsumeFuel then [consumeFuel 0] else []

/-- The location of a new charge. -/
def Context.fuelAt (cx : Context) (pc : Nat) : Option Nat :=
  if cx.withConsumeFuel then some pc else none

namespace ControlFrame

variable {f : ReachableFrame → ReachableFrame} {frame : ControlFrame}

/-- The part of a frame that is there when it is reachable is updated. -/
@[simp] lemma reachable?_update : (frame.update f).reachable? = frame.reachable?.map f := by
  cases frame <;> rfl

/-- An update does not change whether a frame is reachable. -/
@[simp] lemma isReachable_update : (frame.update f).isReachable = frame.isReachable := by
  simp [isReachable]

/-- A frame without its charge and without the number of its branches. -/
def shape (frame : ControlFrame) : ControlFrame :=
  frame.update fun r => { r with consumeFuel := none, lenBranches := 0 }

/-- A counted branch is one more in the frame. -/
lemma bumpBranches_ok {frame' : ControlFrame} (h : frame.bumpBranches = .ok frame') :
    frame' = frame.update fun r => { r with lenBranches := r.lenBranches + 1 } := by
  unfold bumpBranches at h
  split at h
  · cases h
    rfl
  · cases h

end ControlFrame

namespace InstructionTranslator

variable {cx : Context} {t t' : InstructionTranslator} {depth : Nat}

/-! ## Steps of the control visits -/

/-- The charge that opens a block, as code that is emitted or not. -/
lemma pushConsumeFuel_eq : t.pushConsumeFuel cx = (cx.fuelAt t.currentPc, t.emit cx.fuelCode) := by
  unfold pushConsumeFuel Context.fuelAt Context.fuelCode
  split
  · rfl
  · simp [emit]

/-- Counting a branch at one of the frames. -/
lemma addBranch_skeleton (h : t.addBranch depth = .ok t') :
    ∃ frame, t.controlFrames[depth]? = some frame ∧ t'.skeleton = { t.skeleton with
      controlFrames := t.controlFrames.set depth
        (frame.update fun r => { r with lenBranches := r.lenBranches + 1 }) } := by
  unfold addBranch at h
  split at h
  next frame hf =>
    obtain ⟨frame', hb, h⟩ := Compile.bind_ok.mp h
    cases h
    refine ⟨frame, hf, ?_⟩
    rw [ControlFrame.bumpBranches_ok hb]
    rfl
  · cases h

/-- Resolving a label changes the labels and nothing else. -/
lemma tryResolveLabelFor_skeleton {label instr offset}
    (h : t.tryResolveLabelFor label instr = .ok (offset, t')) :
    t.labels.tryResolveLabel label instr = .ok (offset, t'.labels) ∧
      t'.skeleton = { t.skeleton with labels := t'.labels } ∧
      t'.stackTypes = t.stackTypes ∧ t'.stackHeight = t.stackHeight := by
  obtain ⟨⟨offset', labels⟩, hl, h⟩ := Compile.bind_ok.mp h
  cases h
  exact ⟨hl, rfl, rfl, rfl⟩

/-- Pinning a label changes the labels and nothing else. -/
lemma pinLabel_skeleton {label} (h : t.pinLabel label = .ok t') :
    t.labels.pinLabel label t.currentPc = .ok t'.labels ∧
      t'.skeleton = { t.skeleton with labels := t'.labels } ∧
      t'.stackTypes = t.stackTypes ∧ t'.stackHeight = t.stackHeight := by
  obtain ⟨labels, hl, h⟩ := Compile.bind_ok.mp h
  cases h
  exact ⟨hl, rfl, rfl, rfl⟩

/-- Dropping and keeping emits its code. -/
@[simp] lemma translateDropKeep_skeleton {dropKeep} :
    (t.translateDropKeep dropKeep).skeleton = t.skeleton.emit dropKeep.code := rfl

/-- Shrinking the stack emits nothing. -/
lemma shrinkTo_skeleton {height} (h : t.shrinkTo height = .ok t') : t'.skeleton = t.skeleton := by
  simp only [shrinkTo, Compile.bind_ok] at h
  obtain ⟨height', _, types, _, h⟩ := h
  cases h
  rfl

/-- Charging the code that follows to a new location. -/
lemma replaceConsumeFuel_skeleton (h : t.replaceConsumeFuel cx = .ok t') :
    ∃ frames, t'.skeleton =
        { t.skeleton with
          controlFrames := frames
          code := t.instructionSet ++ cx.fuelCode } ∧
      (cx.withConsumeFuel = false → frames = t.controlFrames) ∧
      (cx.withConsumeFuel = true → ∃ frame rest, t.controlFrames = frame :: rest ∧
        frames = frame.update
          (fun r => { r with consumeFuel := some t.instructionSet.length }) :: rest) := by
  unfold replaceConsumeFuel at h
  split at h
  next on =>
    split at h
    next frame rest hf =>
      obtain ⟨frame', hu, h⟩ := Compile.bind_ok.mp h
      cases h
      have eq : frame' =
          frame.update fun r => { r with consumeFuel := some t.instructionSet.length } := by
        unfold ControlFrame.updateConsumeFuelInstr at hu
        split at hu
        next r hr =>
          split at hu
          · cases hu
            rfl
          · cases hu
        next hr =>
          cases hu
          cases frame <;> simp_all [ControlFrame.reachable?, ControlFrame.update]
      subst eq
      refine ⟨_, ?_, by simp [on], fun _ => ⟨frame, rest, hf, rfl⟩⟩
      simp [skeleton, emit, Context.fuelCode, on]
    · cases h
  next off =>
    cases h
    exact ⟨t.controlFrames, by simp [skeleton, Context.fuelCode, off], fun _ => rfl,
      fun on => absurd on off⟩

/-- The location the code is charged to is that of the innermost frame. -/
lemma lastFrame_fuelInstr {frame} (h : t.lastFrame = .ok frame) :
    t.controlFrames.head? = some frame ∧ t.skeleton.fuelInstr = frame.consumeFuelInstr := by
  rw [lastFrame, Compile.unwrap_ok] at h
  exact ⟨h, by simp [Skeleton.fuelInstr, skeleton, h]⟩

/-! ## Opening blocks -/

/-- A reachable `block` opens a frame with a label of its own. -/
lemma visitBlock_live {type} (r : t.reachable = true) (h : t.visitBlock cx type = .ok t') :
    ∃ height, t.frameStackHeight cx type = .ok height ∧
      t'.stackTypes = t.stackTypes ∧ t'.stackHeight = t.stackHeight ∧
      t'.skeleton = { t.skeleton with
        labels := t.labels.newLabel.2
        controlFrames := .block t.labels.labels.length
          ⟨type, height, t.skeleton.fuelInstr, 0⟩ :: t.controlFrames } := by
  simp only [visitBlock, r, if_true, Compile.bind_ok] at h
  obtain ⟨frame, hf, height, hh, h⟩ := h
  cases h
  refine ⟨height, hh, rfl, rfl, ?_⟩
  rw [(lastFrame_fuelInstr hf).2]
  rfl

/-- An unreachable `block` only opens an unreachable frame. -/
lemma visitBlock_dead {type} (r : t.reachable = false) (h : t.visitBlock cx type = .ok t') :
    t' = t.pushFrame (.unreachable .block type) := by
  simp only [visitBlock, r, Bool.false_eq_true, if_false] at h
  cases h
  rfl

/-- A reachable `loop` pins its label at its start and opens a frame. -/
lemma visitLoop_live {type} (r : t.reachable = true) (h : t.visitLoop cx type = .ok t') :
    ∃ height labels, t.frameStackHeight cx type = .ok height ∧
      t'.stackTypes = t.stackTypes ∧ t'.stackHeight = t.stackHeight ∧
      t.labels.newLabel.2.pinLabel t.labels.labels.length t.instructionSet.length = .ok labels ∧
      t'.skeleton = { t.skeleton with
        labels := labels
        controlFrames := .loop t.labels.labels.length
          ⟨type, height, cx.fuelAt t.instructionSet.length, 0⟩ :: t.controlFrames
        code := t.instructionSet ++ cx.fuelCode } := by
  simp only [visitLoop, r, if_true, Compile.bind_ok, pushConsumeFuel_eq] at h
  obtain ⟨height, hh, t₁, h₁, h⟩ := h
  obtain ⟨hl, hs, ht, hg⟩ := pinLabel_skeleton h₁
  cases h
  refine ⟨height, t₁.labels, hh, ht, hg, hl, ?_⟩
  have hc : t₁.instructionSet = t.instructionSet := congrArg Skeleton.code hs
  have hf : t₁.controlFrames = t.controlFrames := congrArg Skeleton.controlFrames hs
  have hr : t₁.reachable = t.reachable := congrArg Skeleton.reachable hs
  have hn : t₁.lenRegistered = t.lenRegistered := congrArg Skeleton.lenRegistered hs
  have hp : t₁.snippetCalls = t.snippetCalls := congrArg Skeleton.snippetCalls hs
  simp [skeleton, pushFrame, emit, currentPc, newLabel, LabelRegistry.newLabel, hc, hf, hr, hn, hp]

/-- An unreachable `loop` only opens an unreachable frame. -/
lemma visitLoop_dead {type} (r : t.reachable = false) (h : t.visitLoop cx type = .ok t') :
    t' = t.pushFrame (.unreachable .loop type) := by
  simp only [visitLoop, r, Bool.false_eq_true, if_false] at h
  cases h
  rfl

end InstructionTranslator

end Rwasm
