import Rwasm.Compiler.Emission

/-!
# What visiting a control operator leaves

The visits of the operators that open, close and leave blocks, as equations for the state they leave: the
code they emit, the labels they use and pin, the frames, and the emulated stack.
-/

namespace Rwasm

open Opcode

/-- What follows a computation that has succeeded. -/
lemma Compile.ok_bind {α β : Type} {a : α} {f : α → Compile β} :
    ((.ok a : Compile α) >>= f) = f a := rfl

namespace ControlFrame

variable {f : ReachableFrame → ReachableFrame} {frame : ControlFrame}

/-- A frame without the location of its charge and the number of its branches. -/
def bare (frame : ControlFrame) : ControlFrame :=
  frame.update fun r => { r with consumeFuel := r.consumeFuel.map fun _ => 0, lenBranches := 0 }

/-- Counting a branch and moving the charge keep what else there is of a frame. -/
lemma bare_update (keep : ∀ r, (f r).blockType = r.blockType ∧ (f r).stackHeight = r.stackHeight ∧
    (f r).consumeFuel.isSome = r.consumeFuel.isSome) : (frame.update f).bare = frame.bare := by
  have fuel : ∀ r, ((f r).consumeFuel.map fun _ => 0) = r.consumeFuel.map fun _ => 0 := by
    intro r
    have same := (keep r).2.2
    generalize (f r).consumeFuel = after at same ⊢
    cases after <;> cases hr : r.consumeFuel
    all_goals first | rfl | simp [hr] at same
  cases frame <;> simp only [bare, update, fuel, (keep _).1, (keep _).2.1]

/-- The kind of a frame is not among the numbers left out. -/
@[simp] lemma kind_bare : frame.bare.kind = frame.kind := by
  cases frame <;> rfl

/-- Nor is the label it is left by. -/
@[simp] lemma branchDestination_bare : frame.bare.branchDestination = frame.branchDestination := by
  cases frame <;> rfl

/-- Nor is its type. -/
@[simp] lemma blockType_bare : frame.bare.blockType = frame.blockType := by
  cases frame <;> rfl

/-- Nor is the height it was entered at. -/
@[simp] lemma stackHeight_bare : frame.bare.stackHeight = frame.stackHeight := by
  cases frame <;> rfl

/-- Nor is whether it is reachable. -/
@[simp] lemma isReachable_bare : frame.bare.isReachable = frame.isReachable :=
  isReachable_update

/-- Nor is whether it charges. -/
@[simp] lemma isSome_consumeFuelInstr_bare :
    frame.bare.consumeFuelInstr.isSome = frame.consumeFuelInstr.isSome := by
  cases frame
  all_goals first | exact Option.isSome_map | rfl

end ControlFrame

/-- Code with more charged to the location `fuelInstr`. -/
def Context.charged (cx : Context) (delta : Nat) (fuelInstr : Option Nat) (code : List Opcode) :
    List Opcode :=
  match cx.withConsumeFuel, fuelInstr with
  | true, some instr =>
    match code[instr]? with
    | some (.consumeFuel fuel) => code.set instr (.consumeFuel (fuel + delta))
    | _ => code
  | _, _ => code

/-- A charge changes the code only. -/
lemma Skeleton.charge_eq {cx : Context} {delta : Nat} {s : Skeleton} :
    s.charge cx delta = { s with code := cx.charged delta s.fuelInstr s.code } := by
  unfold charge Context.charged
  cases cx.withConsumeFuel with
  | false => rfl
  | true =>
    cases s.fuelInstr with
    | none => rfl
    | some instr =>
      dsimp only
      cases s.code[instr]? with
      | none => rfl
      | some op => cases op <;> rfl

/-- A charge keeps the length of the code. -/
@[simp] lemma Context.length_charged {cx : Context} {delta : Nat} {fuelInstr : Option Nat}
    {code : List Opcode} : (cx.charged delta fuelInstr code).length = code.length := by
  unfold charged
  repeat' split
  all_goals simp

/-- The frames when the code that follows is charged to a new location. -/
def Context.recharged (cx : Context) (pc : Nat) : List ControlFrame → List ControlFrame
  | frame :: rest =>
    (if cx.withConsumeFuel then frame.update fun r => { r with consumeFuel := some pc } else frame) ::
      rest
  | [] => []

/-- The heights after pushing values in order. -/
def ValueStackHeight.pushed (h : ValueStackHeight) (types : List ValType) : ValueStackHeight :=
  types.foldl (fun h type => h.pushN type.slots) h

namespace InstructionTranslator

variable {cx : Context} {t t' : InstructionTranslator} {depth n delta : Nat} {type : BlockType}

/-- The location the code is charged to. -/
def fuelInstr (t : InstructionTranslator) : Option Nat :=
  t.controlFrames.head?.bind ControlFrame.consumeFuelInstr

/-! ## Steps of the visits -/

/-- Popping slots needs them and lowers the height. -/
lemma popN_ok (h : t.popN n = .ok t') : n ≤ t.stackHeight.height ∧
    t' = { t with stackHeight := { t.stackHeight with height := t.stackHeight.height - n } } := by
  obtain ⟨height, hp, h⟩ := Compile.bind_ok.mp h
  cases h
  unfold ValueStackHeight.popN at hp
  split at hp
  next le =>
    cases hp
    exact ⟨le, rfl⟩
  · cases hp

/-- Popping a type takes the one on top. -/
lemma popType_ok {popped : ValType} (h : t.popType = .ok (popped, t')) :
    ∃ types, t.stackTypes = popped :: types ∧ t' = { t with stackTypes := types } := by
  unfold popType at h
  split at h
  next types ht =>
    cases h
    exact ⟨types, ht, rfl⟩
  · cases h

/-- A raised charge changes the code only. -/
lemma bumpFuelConsumption_ok (h : t.bumpFuelConsumption cx delta = .ok t') :
    t' = { t with instructionSet := cx.charged delta t.fuelInstr t.instructionSet } := by
  have charged := bumpFuelConsumption_skeleton h
  obtain ⟨types, height⟩ := bumpFuelConsumption_stack h
  rw [Skeleton.charge_eq] at charged
  obtain ⟨reachable, controlFrames, labels, code, stackTypes, stackHeight, lenRegistered, calls⟩ := t'
  cases charged
  cases types
  cases height
  rfl

/-- Pinning a label changes the labels only. -/
lemma pinLabel_ok {label : Nat} (h : t.pinLabel label = .ok t') :
    ∃ labels, t.labels.pinLabel label t.currentPc = .ok labels ∧ t' = { t with labels := labels } := by
  obtain ⟨labels, hl, h⟩ := Compile.bind_ok.mp h
  cases h
  exact ⟨labels, hl, rfl⟩

/-- Resolving a label changes the labels only. -/
lemma tryResolveLabelFor_ok {label instr : Nat} {offset : Int}
    (h : t.tryResolveLabelFor label instr = .ok (offset, t')) :
    ∃ labels, t.labels.tryResolveLabel label instr = .ok (offset, labels) ∧
      t' = { t with labels := labels } := by
  obtain ⟨⟨_, labels⟩, hl, h⟩ := Compile.bind_ok.mp h
  cases h
  exact ⟨labels, hl, rfl⟩

/-- The state with one more branch counted at a frame. -/
def counted (depth : Nat) (t : InstructionTranslator) : InstructionTranslator :=
  { t with
    controlFrames := t.controlFrames.modify depth
      (ControlFrame.update fun r => { r with lenBranches := r.lenBranches + 1 }) }

/-- A branch is counted at a reachable frame. -/
lemma addBranch_ok (h : t.addBranch depth = .ok t') :
    ∃ frame, t.controlFrames[depth]? = some frame ∧ frame.isReachable = true ∧ t' = t.counted depth := by
  unfold addBranch at h
  split at h
  next frame hf =>
    obtain ⟨frame', hb, h⟩ := Compile.bind_ok.mp h
    cases h
    unfold ControlFrame.bumpBranches at hb
    split at hb
    next reachable =>
      cases hb
      refine ⟨frame, hf, reachable, ?_⟩
      rw [counted, List.modify_eq_set_getElem?, hf]
      rfl
    · cases hb
  · cases h

/-- Two states whose branches go to the same places. -/
structure Alike (t t' : InstructionTranslator) : Prop where
  frames : t'.controlFrames.map ControlFrame.bare = t.controlFrames.map ControlFrame.bare
  height : t'.stackHeight.height = t.stackHeight.height
  locals : t'.lenRegistered = t.lenRegistered

/-- States alike a third. -/
lemma Alike.trans {t'' : InstructionTranslator} (h : t.Alike t') (h' : t'.Alike t'') : t.Alike t'' :=
  ⟨h'.frames.trans h.frames, h'.height.trans h.height, h'.locals.trans h.locals⟩

/-- States alike are equally deep. -/
lemma Alike.maxDepth (h : t.Alike t') : t'.maxDepth = t.maxDepth := by
  have length := congrArg List.length h.frames
  rw [List.length_map, List.length_map] at length
  rw [InstructionTranslator.maxDepth, InstructionTranslator.maxDepth, length]

/-- Their frames are reachable alike. -/
lemma Alike.isReachable (h : t.Alike t') : t'.controlFrames[depth]?.map ControlFrame.isReachable =
    t.controlFrames[depth]?.map ControlFrame.isReachable := by
  have same : ∀ frames : List ControlFrame,
      (frames.map ControlFrame.bare)[depth]?.map ControlFrame.isReachable =
        frames[depth]?.map ControlFrame.isReachable := by
    intro frames
    rw [List.getElem?_map, Option.map_map]
    congr 1
    exact funext fun frame => ControlFrame.isReachable_bare
  rw [← same, h.frames, same]

/-- A branch drops and keeps the same in them. -/
lemma Alike.computeDropKeep (h : t.Alike t') : t'.computeDropKeep cx depth = t.computeDropKeep cx depth := by
  have at' := congrArg (·[depth]?) h.frames
  simp only [List.getElem?_map] at at'
  unfold InstructionTranslator.computeDropKeep heightDiff
  rw [h.height]
  cases found : t.controlFrames[depth]? with
  | none =>
    rw [found, Option.map_none, Option.map_eq_none_iff] at at'
    rw [at']
  | some frame =>
    rw [found, Option.map_some, Option.map_eq_some_iff] at at'
    obtain ⟨frame', found', same⟩ := at'
    have kind : frame'.kind = frame.kind := by
      rw [← ControlFrame.kind_bare, same, ControlFrame.kind_bare]
    have type : frame'.blockType = frame.blockType := by
      rw [← ControlFrame.blockType_bare, same, ControlFrame.blockType_bare]
    have height : frame'.stackHeight = frame.stackHeight := by
      rw [← ControlFrame.stackHeight_bare, same, ControlFrame.stackHeight_bare]
    rw [found']
    simp only [Compile.unwrap, Compile.ok_bind, kind, type, height]

/-- So does a return. -/
lemma Alike.dropKeepReturn (h : t.Alike t') : t'.dropKeepReturn cx = t.dropKeepReturn cx := by
  unfold InstructionTranslator.dropKeepReturn
  rw [h.maxDepth, h.computeDropKeep, h.locals]

/-- A branch acquires the same target in them. -/
lemma Alike.acquireTarget (h : t.Alike t') : t'.acquireTarget cx depth = t.acquireTarget cx depth := by
  have at' := congrArg (·[depth]?) h.frames
  simp only [List.getElem?_map] at at'
  unfold InstructionTranslator.acquireTarget
  rw [h.maxDepth, h.dropKeepReturn, h.computeDropKeep]
  split
  · rfl
  · cases found : t.controlFrames[depth]? with
    | none =>
      rw [found, Option.map_none, Option.map_eq_none_iff] at at'
      rw [at']
    | some frame =>
      rw [found, Option.map_some, Option.map_eq_some_iff] at at'
      obtain ⟨frame', found', same⟩ := at'
      rw [found']
      show frame'.branchDestination >>= _ = frame.branchDestination >>= _
      rw [← ControlFrame.branchDestination_bare, same, ControlFrame.branchDestination_bare]

/-- Counting a branch changes none of this. -/
lemma alike_counted : t.Alike (t.counted depth) where
  frames := by
    unfold counted
    rw [List.modify_eq_set_getElem?]
    cases found : t.controlFrames[depth]? with
    | none => rfl
    | some frame =>
      refine map_set_same found (ControlFrame.bare_update fun r => ⟨rfl, rfl, rfl⟩)
  height := rfl
  locals := rfl

/-- Counting a branch leaves the charge that is running. -/
@[simp] lemma fuelInstr_counted : (t.counted depth).fuelInstr = t.fuelInstr := by
  unfold fuelInstr counted
  cases t.controlFrames with
  | nil => rw [List.modify_nil]
  | cons frame frames =>
    cases depth with
    | zero => cases frame <;> rfl
    | succ depth => rfl

/-- Shrinking the stack drops the types above the height. -/
lemma shrinkTo_ok {height : Nat} (h : t.shrinkTo height = .ok t') :
    ∃ types, height ≤ t.stackHeight.height ∧
      shrinkTypes height t.stackHeight.height t.stackTypes = .ok types ∧
      t' = { t with
        stackHeight := { t.stackHeight with height := height }
        stackTypes := types } := by
  simp only [shrinkTo, Compile.bind_ok] at h
  obtain ⟨height', hs, types, ht, h⟩ := h
  cases h
  unfold ValueStackHeight.shrinkTo at hs
  split at hs
  next le =>
    cases hs
    exact ⟨types, le, ht, rfl⟩
  · cases hs

/-- A new charge is emitted and the innermost frame charges to it. -/
lemma replaceConsumeFuel_ok (h : t.replaceConsumeFuel cx = .ok t') :
    t' = { t with
      controlFrames := cx.recharged t.currentPc t.controlFrames
      instructionSet := t.instructionSet ++ cx.fuelCode } ∧
    t'.controlFrames.map ControlFrame.bare = t.controlFrames.map ControlFrame.bare := by
  unfold replaceConsumeFuel at h
  cases metered : cx.withConsumeFuel with
  | true =>
    rw [metered, if_pos rfl] at h
    split at h
    next frame rest hf =>
      obtain ⟨frame', hu, h⟩ := Compile.bind_ok.mp h
      cases h
      rw [hf, Context.recharged, Context.fuelCode, metered, if_pos rfl, if_pos rfl]
      unfold ControlFrame.updateConsumeFuelInstr at hu
      split at hu
      next r reachable =>
        split at hu
        next fueled =>
          cases hu
          refine ⟨rfl, ?_⟩
          rw [List.map_cons, List.map_cons]
          congr 1
          cases frame <;> cases reachable
          all_goals
            obtain ⟨i, eq⟩ := Option.isSome_iff_exists.mp fueled
            simp only [ControlFrame.bare, ControlFrame.update, eq, Option.map_some]
        · cases hu
      next none =>
        -- a frame of unreachable code is charged nothing
        cases hu
        cases frame <;> cases none
        exact ⟨rfl, rfl⟩
    · cases h
  | false =>
    rw [metered] at h
    cases h
    rw [Context.fuelCode, metered, if_neg Bool.false_ne_true, List.append_nil]
    refine ⟨?_, rfl⟩
    cases frames : t.controlFrames with
    | nil => rw [Context.recharged, ← frames]
    | cons frame rest => rw [Context.recharged, metered, if_neg Bool.false_ne_true, ← frames]

/-- Pushing values of some types. -/
lemma pushValuesOf_eq {types : List ValType} :
    pushValuesOf types t = { t with
      stackTypes := types.reverse ++ t.stackTypes
      stackHeight := ValueStackHeight.pushed t.stackHeight types } := by
  induction types generalizing t with
  | nil => rfl
  | cons type types ih =>
    rw [pushValuesOf, List.foldl_cons, ← pushValuesOf, ih, List.reverse_cons, List.append_assoc]
    rfl

/-! ## Opening blocks -/

/-- A block of reachable code is charged to what its surroundings are charged to. -/
lemma visitBlock_ok (r : t.reachable = true) (h : t.visitBlock cx type = .ok t') :
    ∃ height, t.frameStackHeight cx type = .ok height ∧
      t' = { t with
        labels := t.labels.newLabel.2
        controlFrames :=
          .block t.labels.labels.length ⟨type, height, t.fuelInstr, 0⟩ :: t.controlFrames } := by
  simp only [visitBlock, r, if_true, Compile.bind_ok] at h
  obtain ⟨frame, hf, height, hh, h⟩ := h
  cases h
  refine ⟨height, hh, ?_⟩
  have fuel : t.fuelInstr = frame.consumeFuelInstr := (lastFrame_fuelInstr hf).2
  rw [fuel]
  rfl

/-- The header of a loop is pinned where the loop is entered. -/
lemma visitLoop_ok (r : t.reachable = true) (h : t.visitLoop cx type = .ok t') :
    ∃ height labels, t.frameStackHeight cx type = .ok height ∧
      t.labels.newLabel.2.pinLabel t.labels.labels.length t.currentPc = .ok labels ∧
      t' = { t with
        labels := labels
        controlFrames :=
          .loop t.labels.labels.length ⟨type, height, cx.fuelAt t.currentPc, 0⟩ :: t.controlFrames
        instructionSet := t.instructionSet ++ cx.fuelCode } := by
  simp only [visitLoop, r, if_true, Compile.bind_ok, pushConsumeFuel_eq] at h
  obtain ⟨height, hh, t₁, h₁, h⟩ := h
  obtain ⟨labels, pinned, rfl⟩ := pinLabel_ok h₁
  cases h
  exact ⟨height, labels, hh, pinned, rfl⟩

/-- An `if` jumps to its second arm, whose label is not pinned yet. -/
lemma visitIf_ok (r : t.reachable = true) (h : t.visitIf cx type = .ok t') :
    ∃ height offset labels, 1 ≤ t.stackHeight.height ∧
      t'.frameStackHeight cx type = .ok height ∧
      t.labels.newLabel.2.newLabel.2.tryResolveLabel t.labels.labels.length t.currentPc =
        .ok (offset, labels) ∧
      t' = { t with
        labels := labels
        controlFrames := .if (t.labels.labels.length + 1) t.labels.labels.length none
          ⟨type, height, cx.fuelAt (t.currentPc + 1), 0⟩ :: t.controlFrames
        instructionSet := cx.charged cx.costs.base t.fuelInstr t.instructionSet ++ [brIfEqz offset] ++
          cx.fuelCode
        stackTypes := t.stackTypes.tail
        stackHeight := { t.stackHeight with height := t.stackHeight.height - 1 } } := by
  simp only [visitIf, r, if_true, Compile.bind_ok, pushConsumeFuel_eq, Prod.exists] at h
  obtain ⟨t₁, h₁, height, hh, t₂, h₂, offset, t₃, h₃, h⟩ := h
  obtain ⟨le, rfl⟩ := popN_ok h₁
  obtain rfl := bumpFuelConsumption_ok h₂
  obtain ⟨labels, resolved, rfl⟩ := tryResolveLabelFor_ok h₃
  cases h
  have len : (cx.charged cx.costs.base t.fuelInstr t.instructionSet).length = t.currentPc :=
    Context.length_charged
  have fresh : (t.labels.newLabel.2.newLabel).1 = t.labels.labels.length + 1 := List.length_append
  refine ⟨height, offset, labels, le, hh, ?_, ?_⟩
  · rw [← len]
    exact resolved
  · rw [← fresh, ← len]
    simp only [currentPc, emit, pushFrame, List.length_append, List.length_singleton]
    rfl

/-! ## Leaving blocks -/

/-- A return drops everything but the results. -/
lemma visitReturn_ok (r : t.reachable = true) (h : t.visitReturn cx = .ok t') :
    ∃ dk, t.dropKeepReturn cx = .ok dk ∧
      t' = { t with
        reachable := false
        instructionSet := t.instructionSet ++ (dk.code ++ [ret])
        stackHeight := dk.touch t.stackHeight } := by
  simp only [visitReturn, translateIfReachable, r, if_true, Compile.bind_ok] at h
  obtain ⟨dk, hd, h⟩ := h
  cases h
  refine ⟨dk, hd, ?_⟩
  rw [← List.append_assoc]
  rfl

/-- An unreachable `return` does nothing. -/
lemma visitReturn_unreachable (r : t.reachable = false) (h : t.visitReturn cx = .ok t') : t' = t := by
  simp only [visitReturn, translateIfReachable, r, Bool.false_eq_true, if_false] at h
  cases h
  rfl

/-- A branch drops what is between the values it carries and its target, or returns. -/
lemma visitBr_ok (r : t.reachable = true) (h : t.visitBr cx depth = .ok t') :
    (t.controlFrames[depth]?.map ControlFrame.isReachable = some true) ∧
      ((∃ label dk offset labels, (t.counted depth).acquireTarget cx depth = .ok (.branch label dk) ∧
          t.labels.tryResolveLabel label (t.currentPc + dk.code.length) = .ok (offset, labels) ∧
          t' = { t.counted depth with
            reachable := false
            labels := labels
            instructionSet :=
              cx.charged cx.costs.base t.fuelInstr t.instructionSet ++ (dk.code ++ [br offset])
            stackHeight := dk.touch t.stackHeight }) ∨
        ∃ dk dk', (t.counted depth).acquireTarget cx depth = .ok (.ret dk) ∧
          (t.counted depth).dropKeepReturn cx = .ok dk' ∧
          t' = { t.counted depth with
            reachable := false
            instructionSet :=
              cx.charged cx.costs.base t.fuelInstr t.instructionSet ++ (dk'.code ++ [ret])
            stackHeight := dk'.touch t.stackHeight }) := by
  simp only [visitBr, translateIfReachable, r, if_true, Compile.bind_ok] at h
  obtain ⟨t₁, h₁, target, ht, h⟩ := h
  obtain ⟨frame, found, live, rfl⟩ := addBranch_ok h₁
  refine ⟨by rw [found, Option.map_some, live], ?_⟩
  cases target with
  | branch label dk =>
    simp only [Compile.bind_ok, Prod.exists] at h
    obtain ⟨t₂, h₂, offset, t₃, h₃, h⟩ := h
    obtain rfl := bumpFuelConsumption_ok h₂
    obtain ⟨labels, resolved, rfl⟩ := tryResolveLabelFor_ok h₃
    cases h
    refine .inl ⟨label, dk, offset, labels, ht, ?_, ?_⟩
    · have pc : (cx.charged cx.costs.base (t.counted depth).fuelInstr t.instructionSet ++ dk.code).length =
          t.currentPc + dk.code.length := by
        rw [List.length_append, Context.length_charged]
        rfl
      rw [← pc]
      exact resolved
    · rw [← List.append_assoc, ← @fuelInstr_counted t depth]
      rfl
  | ret dk =>
    simp only [Compile.bind_ok] at h
    obtain ⟨t₂, h₂, t₃, h₃, h⟩ := h
    obtain rfl := bumpFuelConsumption_ok h₂
    obtain ⟨dk', hd, rfl⟩ := visitReturn_ok (by exact r) h₃
    cases h
    refine .inr ⟨dk, dk', ht, hd, ?_⟩
    rw [← @fuelInstr_counted t depth]
    rfl

/-- The code of a branch that is taken on a condition. -/
inductive BranchesIf (cx : Context) (depth : Nat) (t : InstructionTranslator) :
    List Opcode → LabelRegistry → ValueStackHeight → Prop
  /-- Nothing has to be dropped. -/
  | direct {label dk offset labels} :
    t.acquireTarget cx depth = .ok (.branch label dk) →
    dk.drop = 0 →
    t.labels.tryResolveLabel label t.currentPc = .ok (offset, labels) →
    BranchesIf cx depth t [brIfNez offset] labels t.stackHeight
  | branch {label dk offset labels} :
    t.acquireTarget cx depth = .ok (.branch label dk) →
    dk.drop ≠ 0 →
    t.labels.tryResolveLabel label (t.currentPc + 1 + dk.code.length) = .ok (offset, labels) →
    BranchesIf cx depth t (brIfEqz (dk.code.length + 2) :: (dk.code ++ [br offset])) labels
      (dk.touch t.stackHeight)
  | ret {dk} :
    t.acquireTarget cx depth = .ok (.ret dk) →
    BranchesIf cx depth t (brIfEqz (dk.code.length + 2) :: (dk.code ++ [.ret])) t.labels
      (dk.touch t.stackHeight)

/-- The state when the condition has been popped. -/
def conditioned (t : InstructionTranslator) : InstructionTranslator :=
  { t with
    stackTypes := t.stackTypes.tail
    stackHeight := { t.stackHeight with height := t.stackHeight.height - 1 } }

/-- A reachable `br_if` pops its condition, branches and opens a new charge. -/
lemma visitBrIf_ok (r : t.reachable = true) (h : t.visitBrIf cx depth = .ok t') :
    1 ≤ t.stackHeight.height ∧ t.stackTypes ≠ [] ∧
    t.controlFrames[depth]?.map ControlFrame.isReachable = some true ∧
    ∃ ops labels stackHeight, BranchesIf cx depth (t.conditioned.counted depth) ops labels stackHeight ∧
      t' = { t.conditioned.counted depth with
        labels := labels
        controlFrames := cx.recharged (t.currentPc + ops.length) (t.counted depth).controlFrames
        instructionSet :=
          cx.charged cx.costs.base t.fuelInstr t.instructionSet ++ ops ++ cx.fuelCode
        stackHeight := stackHeight } ∧
      t'.controlFrames.map ControlFrame.bare = t.controlFrames.map ControlFrame.bare := by
  rw [visitBrIf_eq r] at h
  simp only [Compile.bind_ok, Prod.exists] at h
  obtain ⟨t₁, h₁, popped, t₂, h₂, t₃, h₃, target, ht, t₄, h₄, h⟩ := h
  obtain ⟨le, rfl⟩ := popN_ok h₁
  obtain ⟨types, hs, rfl⟩ := popType_ok h₂
  have some : t.stackTypes = popped :: types := hs
  have eq : ({ t with
      stackTypes := types
      stackHeight := { t.stackHeight with height := t.stackHeight.height - 1 } } : InstructionTranslator) =
      t.conditioned := by
    rw [conditioned, some]
    rfl
  rw [eq] at h₃
  obtain ⟨frame, found, live, rfl⟩ := addBranch_ok h₃
  refine ⟨le, by rw [some]; exact List.cons_ne_nil _ _, ?_, ?_⟩
  · rw [show t.controlFrames[depth]? = _ from found, Option.map_some, live]
  have fuel : (t.conditioned.counted depth).fuelInstr = t.fuelInstr := fuelInstr_counted
  have counts := (@alike_counted t.conditioned depth).frames
  obtain ⟨rfl, same⟩ := replaceConsumeFuel_ok h
  -- charging rewrites an instruction, so offsets are those of the code before
  have length : (cx.charged cx.costs.base t.fuelInstr
      (t.conditioned.counted depth).instructionSet).length = t.instructionSet.length :=
    Context.length_charged
  unfold branchIf at h₄
  cases target with
  | branch label dk =>
    obtain ⟨t₅, h₅, h₄⟩ := Compile.bind_ok.mp h₄
    obtain rfl := bumpFuelConsumption_ok h₅
    rw [fuel] at h₄
    dsimp only at h₄
    split at h₄
    next noop =>
      simp only [Compile.bind_ok, Prod.exists] at h₄
      obtain ⟨offset, t₆, h₆, h₄⟩ := h₄
      obtain ⟨labels, resolved, rfl⟩ := tryResolveLabelFor_ok h₆
      cases h₄
      refine ⟨[brIfNez offset], labels, _, .direct ht (beq_iff_eq.mp noop) ?_, ?_,
        same.trans counts⟩
      · have pc : (t.conditioned.counted depth).currentPc = t.instructionSet.length := rfl
        rw [pc, ← length]
        exact resolved
      · simp only [emit, currentPc, List.length_append, length]
        rfl
    next shuffles =>
      simp only [Compile.bind_ok, Prod.exists] at h₄
      obtain ⟨offset, t₆, h₆, h₄⟩ := h₄
      obtain ⟨labels, resolved, rfl⟩ := tryResolveLabelFor_ok h₆
      cases h₄
      refine ⟨brIfEqz (dk.code.length + 2) :: (dk.code ++ [br offset]), labels, _,
        .branch ht (fun zero => shuffles (beq_iff_eq.mpr zero)) ?_, ?_,
        same.trans counts⟩
      · have pc : (t.conditioned.counted depth).currentPc + 1 + dk.code.length =
            (cx.charged cx.costs.base t.fuelInstr (t.conditioned.counted depth).instructionSet ++
              [brIfEqz (dk.code.length + 2)] ++ dk.code).length := by
          rw [List.length_append, List.length_append, length]
          rfl
        rw [pc]
        exact resolved
      · simp only [emit, translateDropKeep, currentPc, List.length_append, length, List.append_assoc,
          List.cons_append, List.nil_append, List.length_cons, List.length_nil, Nat.add_assoc]
        rfl
  | ret dk =>
    obtain ⟨t₅, h₅, h₄⟩ := Compile.bind_ok.mp h₄
    obtain rfl := bumpFuelConsumption_ok h₅
    rw [fuel] at h₄
    cases h₄
    refine ⟨brIfEqz (dk.code.length + 2) :: (dk.code ++ [.ret]), _, _, .ret ht, ?_,
      same.trans counts⟩
    simp only [emit, translateDropKeep, currentPc, List.length_append, length, List.append_assoc,
      List.cons_append, List.nil_append, List.length_cons, List.length_nil, Nat.add_assoc]
    rfl

/-- A reachable `unreachable` ends what is reachable. -/
lemma visitUnreachable_ok (r : t.reachable = true) (h : t.visitUnreachable = .ok t') :
    t' = { t with
      reachable := false
      instructionSet := t.instructionSet ++ [unreachable] } := by
  simp only [visitUnreachable, translateIfReachable, r, if_true] at h
  cases h
  rfl

/-- The jump over the second arm of an `if`, which reachable code ends its first arm with. -/
inductive JumpsTo (t : InstructionTranslator) (label : Nat) : List Opcode → LabelRegistry → Prop
  | live {offset labels} :
    t.reachable = true →
    t.labels.tryResolveLabel label t.currentPc = .ok (offset, labels) →
    JumpsTo t label [br offset] labels
  | dead :
    t.reachable = false →
    JumpsTo t label [] t.labels

/-- The jump over the second arm. -/
lemma jumpOver_ok {label : Nat} (h : t.jumpOver label = .ok t') :
    ∃ jump labels, t.JumpsTo label jump labels ∧
      t' = { t with labels := labels, instructionSet := t.instructionSet ++ jump } := by
  unfold jumpOver at h
  split at h
  next live =>
    obtain ⟨⟨offset, t₁⟩, h₁, h⟩ := Compile.bind_ok.mp h
    obtain ⟨labels, resolved, rfl⟩ := tryResolveLabelFor_ok h₁
    cases h
    exact ⟨_, labels, .live live resolved, rfl⟩
  next dead =>
    cases h
    exact ⟨[], t.labels, .dead (Bool.eq_false_iff.mpr dead), by rw [List.append_nil]⟩

/-- The second arm is entered with the parameters of the `if`. -/
lemma visitElse_ok {endLabel elseLabel : Nat} {frame : ReachableFrame} {frames : List ControlFrame}
    (found : t.controlFrames = .if endLabel elseLabel none frame :: frames) (h : t.visitElse cx = .ok t') :
    ∃ jump labels labels' fuel types params,
      t.JumpsTo endLabel jump labels ∧
      labels.pinLabel elseLabel (t.currentPc + jump.length) = .ok labels' ∧
      elseFuel frame (cx.fuelAt (t.currentPc + jump.length)) = .ok fuel ∧
      frame.stackHeight ≤ t.stackHeight.height ∧
      shrinkTypes frame.stackHeight t.stackHeight.height t.stackTypes = .ok types ∧
      blockParams cx frame.blockType = .ok params ∧
      t' = { t with
        reachable := true
        labels := labels'
        controlFrames := .if endLabel elseLabel (some t.reachable)
          { frame with consumeFuel := fuel } :: frames
        instructionSet := t.instructionSet ++ jump ++ cx.fuelCode
        stackTypes := params.reverse ++ types
        stackHeight :=
          ValueStackHeight.pushed { t.stackHeight with height := frame.stackHeight } params } := by
  rw [visitElse_eq found] at h
  simp only [Compile.bind_ok] at h
  obtain ⟨t₁, h₁, t₂, h₂, fuel, hf, t₃, h₃, params, hp, h⟩ := h
  obtain ⟨jump, labels, jumps, rfl⟩ := jumpOver_ok h₁
  obtain ⟨labels', pinned, rfl⟩ := pinLabel_ok h₂
  obtain ⟨types, le, shrunk, rfl⟩ := shrinkTo_ok h₃
  cases h
  have pc : (t.instructionSet ++ jump).length = t.currentPc + jump.length := List.length_append
  refine ⟨jump, labels, labels', fuel, types, params, jumps, ?_, ?_, le, shrunk, hp, ?_⟩
  · rw [← pc]
    exact pinned
  · rw [← pc]
    exact hf
  · rw [pushValuesOf_eq]
    rfl

/-- The labels that are pinned at the end of a block of reachable code. -/
inductive PinsEnd (pc : Nat) : ControlFrame → LabelRegistry → LabelRegistry → Prop
  | block {endLabel frame labels labels'} :
    labels.pinLabel endLabel pc = .ok labels' →
    PinsEnd pc (.block endLabel frame) labels labels'
  | loop {headLabel frame labels} :
    PinsEnd pc (.loop headLabel frame) labels labels
  | if {endLabel elseLabel reach frame labels labels₁ labels'} :
    labels.tryPinLabel elseLabel pc = .ok labels₁ →
    labels₁.pinLabel endLabel pc = .ok labels' →
    PinsEnd pc (.if endLabel elseLabel reach frame) labels labels'

/-- The labels a frame pins at its end. -/
lemma pins_ok {frame : ControlFrame} {t₁ : InstructionTranslator} (live : frame.isReachable = true)
    (h₁ : t.pinElse frame = .ok t₁) (h₂ : t₁.pinEnd frame = .ok t') :
    ∃ labels, PinsEnd t.currentPc frame t.labels labels ∧ t' = { t with labels := labels } := by
  cases frame with
  | block endLabel frame =>
    cases h₁
    obtain ⟨labels, pinned, rfl⟩ := pinLabel_ok h₂
    exact ⟨labels, .block pinned, rfl⟩
  | loop headLabel frame =>
    cases h₁
    cases h₂
    exact ⟨t.labels, .loop, rfl⟩
  | «if» endLabel elseLabel reach frame =>
    obtain ⟨labels₁, pinned, h₁⟩ := Compile.bind_ok.mp h₁
    cases h₁
    obtain ⟨labels, pinned', rfl⟩ := pinLabel_ok h₂
    exact ⟨labels, .if pinned pinned', rfl⟩
  | unreachable => cases live

/-- Only the end of the function returns. -/
lemma leave_inner {frame : ControlFrame} {frames : List ControlFrame}
    (found : t.controlFrames = frame :: frames) (inner : frames ≠ []) (h : t.leave cx frame = .ok t') :
    t' = { t with reachable := frame.isReachable } := by
  have several : ¬ t.controlFrames.length = 1 := by
    rw [found, List.length_cons]
    exact fun one => inner (List.length_eq_zero_iff.mp (Nat.succ.inj one))
  unfold leave at h
  rw [if_neg several] at h
  cases h
  rfl

/-- Leaving an inner frame opens a new charge. -/
lemma close_inner (inner : t.controlFrames ≠ []) (h : close cx t = .ok t') :
    t.replaceConsumeFuel cx = .ok t' := by
  unfold close at h
  rwa [if_neg inner] at h

/-- Behind a block of reachable code are its results, on what was beneath its parameters. -/
lemma visitEnd_ok {frame : ControlFrame} {frames : List ControlFrame}
    (found : t.controlFrames = frame :: frames) (inner : frames ≠ []) (live : frame.isReachable = true)
    (h : t.visitEnd cx = .ok t') :
    ∃ labels height types results,
      PinsEnd t.currentPc frame t.labels labels ∧
      frame.stackHeight = some height ∧ height ≤ t.stackHeight.height ∧
      shrinkTypes height t.stackHeight.height t.stackTypes = .ok types ∧
      blockResults cx frame.blockType = .ok results ∧
      t' = { t with
        reachable := true
        labels := labels
        controlFrames := cx.recharged t.currentPc frames
        instructionSet := t.instructionSet ++ cx.fuelCode
        stackTypes := results.reverse ++ types
        stackHeight := ValueStackHeight.pushed { t.stackHeight with height := height } results } ∧
      t'.controlFrames.map ControlFrame.bare = frames.map ControlFrame.bare := by
  rw [visitEnd_eq] at h
  simp only [Compile.bind_ok, lastFrame, Compile.unwrap_ok, found, List.head?_cons, Option.some.injEq] at h
  obtain ⟨_, rfl, t₁, h₁, t₂, h₂, t₃, h₃, t₄, h₄, results, hr, h⟩ := h
  obtain ⟨labels, pins, rfl⟩ := pins_ok live h₁ h₂
  obtain rfl := leave_inner (by exact found) inner h₃
  obtain ⟨height, hh⟩ : ∃ height, frame.stackHeight = some height := by
    cases frame <;> first | exact ⟨_, rfl⟩ | cases live
  unfold restore at h₄
  rw [hh] at h₄
  obtain ⟨types, le, shrunk, rfl⟩ := shrinkTo_ok h₄
  rw [pushValuesOf_eq] at h
  dsimp only at h
  rw [found, List.tail_cons] at h
  obtain ⟨rfl, same⟩ := replaceConsumeFuel_ok (close_inner inner h)
  refine ⟨labels, height, types, results, pins, hh, le, shrunk, hr, ?_, same⟩
  rw [live]
  rfl

/-- The end of a block of unreachable code. -/
lemma visitEnd_unreachable {kind : ControlFrameKind} {frames : List ControlFrame}
    (found : t.controlFrames = .unreachable kind type :: frames) (inner : frames ≠ [])
    (h : t.visitEnd cx = .ok t') :
    ∃ results, t' = { t with
      reachable := false
      controlFrames := cx.recharged t.currentPc frames
      instructionSet := t.instructionSet ++ cx.fuelCode
      stackTypes := results.reverse ++ t.stackTypes
      stackHeight := ValueStackHeight.pushed t.stackHeight results } ∧
      t'.controlFrames.map ControlFrame.bare = frames.map ControlFrame.bare := by
  rw [visitEnd_eq] at h
  simp only [Compile.bind_ok, lastFrame, Compile.unwrap_ok, found, List.head?_cons, Option.some.injEq] at h
  obtain ⟨_, rfl, t₁, h₁, t₂, h₂, t₃, h₃, t₄, h₄, results, hr, h⟩ := h
  cases h₁
  cases h₂
  obtain rfl := leave_inner (by exact found) inner h₃
  cases h₄
  rw [pushValuesOf_eq] at h
  dsimp only at h
  rw [found, List.tail_cons] at h
  obtain ⟨rfl, same⟩ := replaceConsumeFuel_ok (close_inner inner h)
  exact ⟨results, rfl, same⟩

end InstructionTranslator

end Rwasm
