import Rwasm.Compiler.BlockFuel
import Rwasm.Compiler.Control
import Rwasm.Compiler.DropKeep
import Rwasm.Segments.Instantiation

/-!
# Tail calls of intrinsics

A tail call of an import that an intrinsic replaces (`visit_return_call` with `emit_function_call`). The
locals are dropped and the code of the intrinsic is put in place of the call. No `Return` is emitted
behind it, so whatever stands there is executed next.
-/

namespace Rwasm

open Opcode

variable {T : Type} {m : RwasmModule} {host : Host T} {lo hi p : Nat} {cap : Nat} {calls : List Nat}
  {store : Store T} {args dropped below : List UntypedValue}

/-! ## The code of the call -/

/-- The code an intrinsic puts in place of a call that takes so many slots. -/
def Intrinsic.code (params : Nat) : Intrinsic → List Opcode
  | .replace opcodes => opcodes
  | .remove => List.replicate params Opcode.drop

section Emitted

variable {cx : Context} {callee type : Nat} {intrinsic : Intrinsic} {funcType : FuncType}
  {dk : DropKeep}

/-- A call of an intrinsic emits its code, as a tail call too. -/
lemma emitFunctionCall_intrinsic {isReturnCall : Bool} {ops : List Opcode}
    (replaced : cx.intrinsic callee = some intrinsic)
    (resolved : cx.resolveFuncTypeIndex callee = .ok type)
    (typed : cx.funcTypeRegistry.resolveFuncType type = .ok funcType)
    (h : cx.emitFunctionCall callee isReturnCall = .ok ops) :
    ops = intrinsic.code funcType.params.length := by
  simp only [Context.emitFunctionCall, Compile.bind_ok, replaced] at h
  obtain ⟨_, h₁, _, h₂, h⟩ := h
  cases resolved.symm.trans h₁
  cases typed.symm.trans h₂
  cases intrinsic with
  | replace opcodes =>
    cases h
    rfl
  | remove =>
    dsimp only at h
    split at h
    · cases h
      rfl
    · cases h

variable {t t' : InstructionTranslator}

/-- The parameters of the callee are kept. -/
lemma dropKeepReturnCall_keep (h : t.dropKeepReturnCall funcType = .ok dk) :
    dk.keep = funcType.params.length := by
  simp only [InstructionTranslator.dropKeepReturnCall, Compile.bind_ok] at h
  obtain ⟨diff, _, h⟩ := h
  split at h
  · unfold DropKeep.new at h
    split at h
    · cases h
      rfl
    · cases h
  · cases h

/-- A tail call of an intrinsic drops the locals, and goes on with the intrinsic's code. -/
lemma visitReturnCall_intrinsic (live : t.reachable = true)
    (replaced : cx.intrinsic callee = some intrinsic)
    (resolved : cx.resolveFuncTypeIndex callee = .ok type)
    (typed : cx.funcTypeRegistry.resolveFuncType type = .ok funcType)
    (dropKeep : t.dropKeepReturnCall funcType = .ok dk)
    (visited : t.visitReturnCall cx callee = .ok t') :
    t'.skeleton = { (t.skeleton.charge cx cx.costs.call).emit
      (dk.code ++ intrinsic.code dk.keep) with reachable := false } := by
  simp only [InstructionTranslator.visitReturnCall, InstructionTranslator.translateIfReachable, live,
    if_true, Compile.bind_ok] at visited
  obtain ⟨_, h₁, _, h₂, _, h₃, t₁, charged, ops, emitted, h⟩ := visited
  cases resolved.symm.trans h₁
  cases typed.symm.trans h₂
  cases dropKeep.symm.trans h₃
  cases h
  rw [dropKeepReturnCall_keep dropKeep, ← emitFunctionCall_intrinsic replaced resolved typed emitted,
    ← Skeleton.emit_emit, ← InstructionTranslator.bumpFuelConsumption_skeleton charged]
  rfl

end Emitted

/-! ## Behind the call -/

/-- Nothing that is left of the function is reachable: all blocks but the outermost one were opened in
unreachable code. -/
structure Skeleton.Dead (s : Skeleton) : Prop where
  unreachable : s.reachable = false
  frames : ∃ inner outer, s.controlFrames = inner ++ outer ∧
    (∀ frame ∈ inner, ∃ kind type, frame = .unreachable kind type) ∧
    (outer = [] ∨ ∃ label frame, outer = [.block label frame])

/-- A block that is opened in dead code is dead. -/
lemma Skeleton.Dead.cons {s : Skeleton} (dead : s.Dead) (kind : ControlFrameKind) (type : BlockType) :
    ({ s with controlFrames := .unreachable kind type :: s.controlFrames } : Skeleton).Dead := by
  obtain ⟨inner, outer, eq, all, last⟩ := dead.frames
  refine ⟨dead.unreachable, .unreachable kind type :: inner, outer, ?_, ?_, last⟩
  · dsimp only
    rw [eq, List.cons_append]
  · intro frame mem
    rcases List.mem_cons.mp mem with rfl | mem
    · exact ⟨kind, type, rfl⟩
    · exact all frame mem

namespace InstructionTranslator

variable {cx : Context} {t t' : InstructionTranslator}

/-- Operators that leave, and conditional branches, are skipped. -/
lemma visitLeave_dead (op : LeavingOperator) (r : t.reachable = false)
    (h : t.visitLeave cx op = .ok t') : t' = t := by
  cases op
  all_goals
    simp only [visitLeave, visitUnreachable, visitBr, visitBrTable, visitReturn, visitReturnCall,
      visitReturnCallIndirect, translateIfReachable, r, Bool.false_eq_true, if_false] at h
    cases h
    rfl

/-- An unreachable `br_if` does nothing. -/
lemma visitBrIf_dead {depth : Nat} (r : t.reachable = false)
    (h : t.visitBrIf cx depth = .ok t') : t' = t := by
  simp only [visitBrIf, translateIfReachable, r, Bool.false_eq_true, if_false] at h
  cases h
  rfl

/-- An unreachable `if` only opens an unreachable frame. -/
lemma visitIf_dead {type : BlockType} (r : t.reachable = false)
    (h : t.visitIf cx type = .ok t') : t' = t.pushFrame (.unreachable .if type) := by
  simp only [visitIf, r, Bool.false_eq_true, if_false] at h
  cases h
  rfl

/-- The `else` of an unreachable `if` does nothing. -/
lemma visitElse_dead (dead : t.skeleton.Dead) (h : t.visitElse cx = .ok t') : t' = t := by
  obtain ⟨inner, outer, eq, all, last⟩ := dead.frames
  have eq : t.controlFrames = inner ++ outer := eq
  unfold visitElse at h
  split at h
  next found =>
    -- An `if` would be reachable.
    rw [eq] at found
    cases inner with
    | nil =>
      rcases last with rfl | ⟨label, frame, rfl⟩
      · cases found
      · cases found
    | cons frame inner =>
      cases found
      obtain ⟨kind, type, ⟨⟩⟩ := all _ List.mem_cons_self
  · cases h
    rfl
  · cases h

/-- A block that is closed in dead code is charged nothing. -/
lemma close_dead (dead : t.skeleton.Dead)
    (h : (if t.controlFrames = [] then pure t else t.replaceConsumeFuel cx) = .ok t') :
    t'.skeleton.Dead ∧
      ∃ k, t'.instructionSet = t.instructionSet ++ List.replicate k (consumeFuel 0) := by
  split at h
  · cases h
    exact ⟨dead, 0, (List.append_nil _).symm⟩
  · obtain ⟨frames, skeleton_eq, off, on⟩ := replaceConsumeFuel_skeleton h
    obtain ⟨inner, outer, eq, all, last⟩ := dead.frames
    have eq : t.controlFrames = inner ++ outer := eq
    have code : t'.instructionSet = t.instructionSet ++ cx.fuelCode := congrArg Skeleton.code skeleton_eq
    rw [skeleton_eq]
    cases metered : cx.withConsumeFuel with
    | false =>
      refine ⟨⟨dead.unreachable, inner, outer, (off metered).trans eq, all, last⟩, 0, ?_⟩
      rw [code, Context.fuelCode, metered]
      rfl
    | true =>
      obtain ⟨frame, rest, found, frames_eq⟩ := on metered
      refine ⟨⟨dead.unreachable, ?_⟩, 1, ?_⟩
      · rw [eq] at found
        cases inner with
        | nil =>
          rcases last with rfl | ⟨label, block, rfl⟩
          · cases found
          · cases found
            exact ⟨[], _, frames_eq, fun _ mem => absurd mem List.not_mem_nil, .inr ⟨label, _, rfl⟩⟩
        | cons inmost inner =>
          cases found
          obtain ⟨kind, type, rfl⟩ := all _ List.mem_cons_self
          exact ⟨_ :: inner, outer, frames_eq, all, last⟩
      · rw [code, Context.fuelCode, metered]
        rfl

/-- So is one with results. -/
lemma closeResults_dead {results : List ValType} {frames : List ControlFrame}
    (dead : ({ t.skeleton with controlFrames := frames } : Skeleton).Dead)
    (h : (if (pushValuesOf results { t with controlFrames := frames }).controlFrames = [] then
        pure (pushValuesOf results { t with controlFrames := frames })
      else (pushValuesOf results { t with controlFrames := frames }).replaceConsumeFuel cx) = .ok t') :
    t'.skeleton.Dead ∧
      ∃ k, t'.instructionSet = t.instructionSet ++ List.replicate k (consumeFuel 0) := by
  have same : (pushValuesOf results { t with controlFrames := frames }).skeleton =
      { t.skeleton with controlFrames := frames } := pushValuesOf_skeleton
  rw [← same] at dead
  obtain ⟨dead, k, code⟩ := close_dead dead h
  refine ⟨dead, k, code.trans ?_⟩
  rw [show (pushValuesOf results { t with controlFrames := frames }).instructionSet =
    t.instructionSet from congrArg Skeleton.code same]

/-- The end of the outermost block emits no `Return`. -/
lemma visitEnd_body_dead {label : Nat} {block : ReachableFrame} (r : t.reachable = false)
    (eq : t.controlFrames = [.block label block]) (h : t.visitEnd cx = .ok t') :
    t'.skeleton.Dead ∧
      ∃ k, t'.instructionSet = t.instructionSet ++ List.replicate k (consumeFuel 0) := by
  obtain ⟨frame, hf, h⟩ := Compile.bind_ok.mp h
  have head := (lastFrame_fuelInstr hf).1
  rw [eq] at head
  cases head
  have ends : (ControlFrame.block label block).isReachable = true ∧
      (ControlFrame.block label block).kind ≠ .loop := ⟨rfl, nofun⟩
  have single : t.controlFrames.length = 1 := by rw [eq]; rfl
  have height : (ControlFrame.block label block).stackHeight = some block.stackHeight := rfl
  simp only [pure_bind, if_pos ends, Compile.bind_ok] at h
  obtain ⟨_, -, t₁, pinned, h⟩ := h
  have pinned := (pinLabel_skeleton pinned).2.1
  have frames : t₁.controlFrames = t.controlFrames := congrArg Skeleton.controlFrames pinned
  rw [frames, if_pos single] at h
  simp only [height, Compile.bind_ok] at h
  obtain ⟨t₂, h₂, t₃, h₃, results, -, h⟩ := h
  have r₁ : t₁.reachable = false := (congrArg Skeleton.reachable pinned).trans r
  have skipped := visitLeave_dead .ret r₁ h₂
  subst skipped
  have shrunk := (shrinkTo_skeleton h₃).trans pinned
  have code : t₃.instructionSet = t.instructionSet := congrArg Skeleton.code shrunk
  have rest : t₃.controlFrames.tail = [] := by
    rw [show t₃.controlFrames = t.controlFrames from congrArg Skeleton.controlFrames shrunk, eq]
    rfl
  rw [rest] at h
  rw [← code]
  refine closeResults_dead ⟨?_, [], [], rfl, nofun, .inl rfl⟩ h
  exact (congrArg Skeleton.reachable shrunk).trans r

/-- So does the end of a block that was opened in dead code. -/
lemma visitEnd_nested_dead {kind : ControlFrameKind} {type : BlockType} {rest : List ControlFrame}
    (eq : t.controlFrames = .unreachable kind type :: rest)
    (left : ({ t.skeleton with controlFrames := rest } : Skeleton).Dead) (h : t.visitEnd cx = .ok t') :
    t'.skeleton.Dead ∧
      ∃ k, t'.instructionSet = t.instructionSet ++ List.replicate k (consumeFuel 0) := by
  obtain ⟨frame, hf, h⟩ := Compile.bind_ok.mp h
  have head := (lastFrame_fuelInstr hf).1
  rw [eq] at head
  cases head
  have ends : ¬ ((ControlFrame.unreachable kind type).isReachable = true ∧
      (ControlFrame.unreachable kind type).kind ≠ .loop) := fun both => nomatch both.1
  have height : (ControlFrame.unreachable kind type).stackHeight = none := rfl
  have tail : t.controlFrames.tail = rest := by
    rw [eq]
    rfl
  simp only [pure_bind, if_neg ends, height] at h
  split at h
  · obtain ⟨t₁, h₁, closed⟩ := Compile.bind_ok.mp h
    obtain ⟨results, -, closed⟩ := Compile.bind_ok.mp closed
    rw [visitLeave_dead .ret left.unreachable h₁, tail] at closed
    exact closeResults_dead left closed
  · obtain ⟨results, -, closed⟩ := Compile.bind_ok.mp h
    rw [tail] at closed
    exact closeResults_dead (t := { t with reachable := false }) ⟨rfl, left.frames⟩ closed

/-- The `end` of unreachable code emits charges of nothing at most. -/
lemma visitEnd_dead (dead : t.skeleton.Dead) (h : t.visitEnd cx = .ok t') :
    t'.skeleton.Dead ∧
      ∃ k, t'.instructionSet = t.instructionSet ++ List.replicate k (consumeFuel 0) := by
  obtain ⟨inner, outer, eq, all, last⟩ := dead.frames
  have eq : t.controlFrames = inner ++ outer := eq
  cases inner with
  | nil =>
    rcases last with rfl | ⟨label, block, rfl⟩
    · obtain ⟨frame, hf, -⟩ := Compile.bind_ok.mp h
      have head := (lastFrame_fuelInstr hf).1
      rw [eq] at head
      cases head
    · exact visitEnd_body_dead dead.unreachable eq h
  | cons inmost inner =>
    obtain ⟨kind, type, rfl⟩ := all _ List.mem_cons_self
    have inside : ∀ frame ∈ inner, ∃ kind type, frame = ControlFrame.unreachable kind type :=
      fun frame mem => all frame (List.mem_cons_of_mem _ mem)
    exact visitEnd_nested_dead eq ⟨dead.unreachable, inner, outer, rfl, inside, last⟩ h

/-- What is left of the function emits empty charges only. -/
lemma visit_dead {op : Operator} (dead : t.skeleton.Dead) (h : t.visit cx op = .ok t') :
    t'.skeleton.Dead ∧
      ∃ k, t'.instructionSet = t.instructionSet ++ List.replicate k (consumeFuel 0) := by
  have r : t.reachable = false := dead.unreachable
  have skip {u : InstructionTranslator} (eq : u = t) : u.skeleton.Dead ∧
      ∃ k, u.instructionSet = t.instructionSet ++ List.replicate k (consumeFuel 0) := by
    subst eq
    exact ⟨dead, 0, (List.append_nil _).symm⟩
  match op, h with
  | .plain op, h => exact skip (visitPlain_unreachable r h)
  | .leave op, h => exact skip (visitLeave_dead op r h)
  | .brIf depth, h => exact skip (visitBrIf_dead r h)
  | .block type, h =>
    rw [visitBlock_dead r h]
    exact ⟨dead.cons .block type, 0, (List.append_nil _).symm⟩
  | .loop type, h =>
    rw [visitLoop_dead r h]
    exact ⟨dead.cons .loop type, 0, (List.append_nil _).symm⟩
  | .if type, h =>
    rw [visitIf_dead r h]
    exact ⟨dead.cons .if type, 0, (List.append_nil _).symm⟩
  | .else, h => exact skip (visitElse_dead dead h)
  | .end, h => exact visitEnd_dead dead h

/-- Unreachable operators emit charges of nothing at most. -/
lemma visitAll_dead {ops : List Operator} (dead : t.skeleton.Dead) (h : visitAll cx ops t = .ok t') :
    ∃ k, t'.instructionSet = t.instructionSet ++ List.replicate k (consumeFuel 0) := by
  induction ops generalizing t with
  | nil =>
    cases h
    exact ⟨0, (List.append_nil _).symm⟩
  | cons op ops ih =>
    obtain ⟨t₁, h₁, h⟩ := Compile.bind_ok.mp h
    obtain ⟨dead₁, k, code⟩ := visit_dead dead h₁
    obtain ⟨n, code'⟩ := ih dead₁ h
    refine ⟨k + n, ?_⟩
    rw [code', code, List.append_assoc, List.replicate_append_replicate]

end InstructionTranslator

/-! ## The run -/

/-- The run of a function, followed until it leaves its frame, which is the `depth`-th: the calls that it
makes return to it. -/
def frameVm (m : RwasmModule) (host : Host T) (depth : Nat) :
    Machine (Executor T) (Turn (Executor T) (Exit T)) :=
  (vm m host).within fun e => depth ≤ e.callStack.length

/-- Such a run inside the code of the function, which ends at `hi`. -/
def ownVm (m : RwasmModule) (host : Host T) (depth hi : Nat) :
    Machine (Executor T) (Turn (Executor T) (Exit T)) :=
  (vm m host).within fun e => depth < e.callStack.length ∨ e.callStack.length = depth ∧ e.ip < hi

namespace Executor

variable {e e' : Executor T} {depth q : Nat}

/-- A frame has come to a position. -/
def ComesTo (depth q : Nat) (e : Executor T) : Prop :=
  e.callStack.length = depth ∧ e.ip = q

/-- Whether a frame has come there is decided by its depth and its position. -/
instance : DecidablePred (ComesTo (T := T) depth q) := fun _ => inferInstanceAs (Decidable (_ ∧ _))

/-- What a `Return` at a position does, after the charges in front of it. -/
def chargedReturn (pc : Nat) : List Nat → Executor T → Turn (Executor T) (Exit T)
  | [], e => ({ e with ip := pc } : Executor T).visitReturn
  | fuel :: fuels, e =>
    match e.visitConsumeFuel fuel with
    | .next e => e.chargedReturn pc fuels
    | .halt exit => .halt exit

/-- It leaves the frame. -/
lemma chargedReturn_depth {pc : Nat} {fuels : List Nat} (h : e.chargedReturn pc fuels = .next e') :
    e'.callStack.length < e.callStack.length := by
  induction fuels generalizing e with
  | nil =>
    simp only [chargedReturn, visitReturn] at h
    split at h
    next top =>
      cases h
      rw [top]
      exact Nat.lt_succ_self _
    · cases h
  | cons fuel fuels ih =>
    rw [chargedReturn] at h
    split at h
    next e₁ charged =>
      have less := ih h
      rw [visitConsumeFuel_frame charged] at less
      exact less
    · cases h

end Executor

/-- The machine of a call and a return: where the frame comes to `q`, it returns. -/
def returningVm (m : RwasmModule) (host : Host T) (depth q pc : Nat) (fuels : List Nat) :
    Machine (Executor T) (Exit T) where
  step e := if e.ComesTo depth q then e.chargedReturn pc fuels else (vm m host).step e

/-- This machine, followed until the function leaves its frame. -/
def returningFrameVm (m : RwasmModule) (host : Host T) (depth q pc : Nat) (fuels : List Nat) :
    Machine (Executor T) (Turn (Executor T) (Exit T)) :=
  (returningVm m host depth q pc fuels).within fun e => depth ≤ e.callStack.length

/-- The code from `e` on comes to its end at `q`, in the frame of `e`. -/
def Completes (m : RwasmModule) (host : Host T) (q : Nat) (e e' : Executor T) : Prop :=
  (frameVm m host e.callStack.length).Until (Executor.ComesTo e.callStack.length q) e e'

/-- The function returns inside of its own code. -/
def Executor.Returns (m : RwasmModule) (host : Host T) (hi pc : Nat) (fuels : List Nat)
    (e : Executor T) : Prop :=
  (ownVm m host e.callStack.length hi).Halts e (e.chargedReturn pc fuels)

/-- The run is that of a call and a return. From `e` the locals are dropped, which leads to `called`.
From there the function leaves its frame as it does with a `Return` at the end of the code of the
intrinsic at `q`, for some charges in front of it, and nothing behind its own code is executed. -/
structure TailCalls (m : RwasmModule) (host : Host T) (hi : Nat) (e called : Executor T) (q : Nat) :
    Prop where
  drops : (vm m host).Steps e called
  behaves : ∃ pc fuels, ∀ r, (frameVm m host called.callStack.length).Halts called r ↔
    (returningFrameVm m host called.callStack.length q pc fuels).Halts called r
  inside : ∀ e' e'', Completes m host q called e' →
    (frameVm m host called.callStack.length).Steps e' e'' →
    e''.callStack.length = called.callStack.length → e''.ip < hi

section Frame

variable {e e' called : Executor T} {q pc : Nat} {fuels : List Nat}

/-- The machine of a call and a return returns. -/
lemma returningFrameVm_halts (comes : e.ComesTo e.callStack.length q) :
    (returningFrameVm m host e.callStack.length q pc fuels).Halts e (e.chargedReturn pc fuels) := by
  have step : (returningVm m host e.callStack.length q pc fuels).step e = e.chargedReturn pc fuels :=
    if_pos comes
  cases returned : e.chargedReturn pc fuels with
  | next e' =>
    have left : ¬ e.callStack.length ≤ e'.callStack.length :=
      Nat.not_le.mpr (Executor.chargedReturn_depth returned)
    refine (Machine.Steps.single ?_).halts (Machine.within_exit left)
    exact Machine.within_next (Nat.le_refl _) (step.trans returned)
  | halt exit => exact Machine.within_halt (Nat.le_refl _) (step.trans returned)

/-- The function leaves its frame as the machine of a call and a return does exactly when it does so from
where the code of the intrinsic has come to its end. -/
lemma frameVm_behaves_iff :
    (∀ r, (frameVm m host called.callStack.length).Halts called r ↔
      (returningFrameVm m host called.callStack.length q pc fuels).Halts called r) ↔
    ∀ e', Completes m host q called e' →
      (frameVm m host called.callStack.length).Halts e' (e'.chargedReturn pc fuels) := by
  have agree : ∀ e : Executor T, ¬ e.ComesTo called.callStack.length q →
      (frameVm m host called.callStack.length).step e =
        (returningFrameVm m host called.callStack.length q pc fuels).step e := by
    intro e elsewhere
    have step : (returningVm m host called.callStack.length q pc fuels).step e = (vm m host).step e :=
      if_neg elsewhere
    simp only [frameVm, returningFrameVm, Machine.within, step]
  rw [Machine.halts_iff_of_until agree]
  refine forall_congr' fun e' => forall_congr' fun completes => ?_
  have comes := completes.mem
  have returns : (returningFrameVm m host called.callStack.length q pc fuels).Halts e'
      (e'.chargedReturn pc fuels) := by
    have at_end : e'.ComesTo e'.callStack.length q := ⟨rfl, comes.2⟩
    rw [← comes.1]
    exact returningFrameVm_halts at_end
  constructor
  · exact fun same => (same _).mpr returns
  · intro halts r
    exact ⟨fun h => halts.unique h ▸ returns, fun h => returns.unique h ▸ halts⟩

/-- The run is that of a call and a return exactly when the function returns inside of its own code from
where the code of the intrinsic comes to its end. -/
lemma tailCalls_iff {hi : Nat} (drops : (vm m host).Steps e called) :
    TailCalls m host hi e called q ↔ ∃ pc fuels, ∀ e', Completes m host q called e' →
      e'.Returns m host hi pc fuels := by
  have inner : ∀ e' : Executor T, called.callStack.length < e'.callStack.length ∨
      e'.callStack.length = called.callStack.length ∧ e'.ip < hi →
      called.callStack.length ≤ e'.callStack.length := by
    omega
  have left {e' : Executor T} {pc fuels} (completes : Completes m host q called e') :
      ∀ e'', e'.chargedReturn pc fuels = .next e'' →
        ¬ called.callStack.length ≤ e''.callStack.length := by
    intro e'' returned
    rw [← completes.mem.1]
    exact Nat.not_le.mpr (Executor.chargedReturn_depth returned)
  constructor
  · rintro ⟨-, ⟨pc, fuels, behaves⟩, inside⟩
    refine ⟨pc, fuels, fun e' completes => ?_⟩
    have halts := frameVm_behaves_iff.mp behaves e' completes
    unfold Executor.Returns ownVm
    rw [completes.mem.1]
    refine halts.narrow inner fun e'' st deep => ?_
    rcases Nat.lt_or_eq_of_le deep with deeper | same
    · exact .inl deeper
    · exact .inr ⟨same.symm, inside e' e'' completes st same.symm⟩
  · rintro ⟨pc, fuels, returns⟩
    refine ⟨drops, ⟨pc, fuels, frameVm_behaves_iff.mpr fun e' completes => ?_⟩, ?_⟩
    · have returns := returns e' completes
      unfold Executor.Returns ownVm at returns
      rw [completes.mem.1] at returns
      exact returns.widen inner (left completes)
    · intro e' e'' completes st same
      have returns := returns e' completes
      unfold Executor.Returns ownVm at returns
      rw [completes.mem.1] at returns
      have own := returns.inside (left completes) st (Nat.le_of_eq same.symm)
      rcases own with deeper | ⟨-, below⟩
      · omega
      · exact below

/-- Own code that goes on with charges and a `Return` returns. -/
lemma ownVm_halts {depth hi : Nat} (own : e.ip + fuels.length < hi) (top : e.callStack.length = depth)
    (code : CodeAt m.codeSection e.ip (fuels.map consumeFuel ++ [ret])) :
    (ownVm m host depth hi).Halts e (e.chargedReturn (e.ip + fuels.length) fuels) := by
  induction fuels generalizing e with
  | nil =>
    have step : (vm m host).step e = e.chargedReturn (e.ip + 0) [] := vm_step code.1
    have here : depth < e.callStack.length ∨ e.callStack.length = depth ∧ e.ip < hi := .inr ⟨top, own⟩
    cases returned : e.chargedReturn (e.ip + 0) [] with
    | next e' =>
      have left := Executor.chargedReturn_depth returned
      refine (Machine.Steps.single ?_).halts (Machine.within_exit (by omega))
      exact Machine.within_next here (step.trans returned)
    | halt exit => exact Machine.within_halt here (step.trans returned)
  | cons fuel fuels ih =>
    rw [List.map_cons, List.cons_append, CodeAt.cons_iff] at code
    have step : (vm m host).step e = e.visitConsumeFuel fuel := vm_step code.1
    rw [List.length_cons] at own ⊢
    have here : depth < e.callStack.length ∨ e.callStack.length = depth ∧ e.ip < hi :=
      .inr ⟨top, by omega⟩
    rw [Executor.chargedReturn]
    cases charged : e.visitConsumeFuel fuel with
    | next e' =>
      have frame := Executor.visitConsumeFuel_frame charged
      have ip : e'.ip = e.ip + 1 := by rw [frame]
      have stack : e'.callStack = e.callStack := by rw [frame]
      have next : (ownVm m host depth hi).step e = .next e' :=
        Machine.within_next here (step.trans charged)
      refine (Machine.Steps.single next).halts ?_
      have pc : e.ip + (fuels.length + 1) = e'.ip + fuels.length := by omega
      rw [pc]
      refine ih (by omega) (by rw [stack, top]) ?_
      rw [ip]
      exact code.2
    | halt exit => exact Machine.within_halt here (step.trans charged)

/-- Empty charges are passed as long as nothing is left to pay for. -/
lemma frameVm_charges {depth k : Nat} (deep : depth ≤ e.callStack.length)
    (paid : e.store.tryConsumeFuel 0 = some e.store)
    (code : CodeAt m.codeSection e.ip (List.replicate k (consumeFuel 0))) :
    (frameVm m host depth).Steps e (e.advance k) := by
  induction k generalizing e with
  | zero => exact .refl
  | succ k ih =>
    rw [List.replicate_succ, CodeAt.cons_iff] at code
    have step : (vm m host).step e = .next (e.advance 1) := by
      rw [vm_step code.1]
      simp only [Executor.step, Executor.visitConsumeFuel, paid, Executor.advance]
    have rest := ih (e := e.advance 1) deep paid code.2
    rw [show e.advance (k + 1) = (e.advance 1).advance k by
      rw [Executor.advance, Nat.add_comm k, ← Nat.add_assoc]
      rfl]
    exact .head (Machine.within_next deep step) rest

end Frame

/-- Relocation leaves the code that drops locals as it is. -/
lemma DropKeep.code_relocated {dk : DropKeep} {addr : Nat → Nat} :
    dk.code.map (Opcode.relocated addr) = dk.code := by
  unfold DropKeep.code
  split
  · rfl
  · split
    · rw [List.map_append, List.map_replicate]
      rfl
    · rw [List.map_append, List.map_flatMap]
      rfl

section Visited

variable {cx : Context} {t t' : InstructionTranslator} {callee type : Nat} {intrinsic : Intrinsic}
  {funcType : FuncType} {dk : DropKeep} {addr : Nat → Nat}

end Visited

/-- An import that charges its argument, by an intrinsic. -/
def consumeFuelEntity : ImportLinkerEntity where
  sysFuncIdx := 71
  syscallFuelParam := .none
  params := [.i32]
  result := []
  intrinsic := some (.replace [consumeFuelStack])

/-- A linker that replaces the import for charging by its instruction. -/
def consumeFuelLinker : ImportLinker where
  entities := [(⟨"env", "consume_fuel"⟩, consumeFuelEntity)]
  names_nodup := by decide
  indices_nodup := by decide

/-- A function that tail-calls the import, and another one that traps. -/
def tailWasm : WasmModule where
  types := [⟨[.i32], []⟩, ⟨[], []⟩]
  imports := [⟨⟨"env", "consume_fuel"⟩, .func 0⟩]
  functions := [⟨1, [], .plain (.i32Const 35) (.leave (.returnCall 0) .nil)⟩,
    ⟨1, [], .leave .unreachable .nil⟩]
  exports := [("main", 1)]

/-- A configuration with that linker. -/
def tailConfig : CompilationConfig where
  entrypointName := some "main"
  importLinker := some consumeFuelLinker

/-- Its compilation: the entrypoint, the trampoline of the import, and the two functions. -/
def tailModule : RwasmModule where
  codeSection := [
    stackCheck 5, ret, returnCallInternal 8,
    signatureCheck 0, consumeFuel 1, stackCheck 0, call 71, ret,
    signatureCheck 1, consumeFuel 3, stackCheck 1, i32Const 35, consumeFuelStack,
    signatureCheck 1, consumeFuel 1, stackCheck 0, unreachable]
  sourcePc := 2

/-- What the translation of the function reads. -/
def tailContext : Context where
  costs := testedPolicy.toFuelCosts
  withConsumeFuel := true
  consumeFuelForBulkOps := true
  consumeFuelForParamsAndLocals := true
  funcTypeRegistry := ⟨[⟨[.i32], []⟩, ⟨[], []⟩], [⟨[.i32], []⟩, ⟨[], []⟩], [0, 1]⟩
  compiledFuncs := [0, 1, 1]
  intrinsics := [(0, .replace [consumeFuelStack])]

/-- The translation in front of the tail call. -/
def tailState : InstructionTranslator where
  controlFrames := [.block 0 ⟨.funcType 1, 0, some 6, 0⟩]
  labels := ⟨[none], []⟩
  instructionSet := [
    signatureCheck 0, consumeFuel 1, stackCheck 0, call 71, ret,
    signatureCheck 1, consumeFuel 2, stackCheck (2 ^ 32 - 1), i32Const 35]
  stackTypes := [.i32]
  stackHeight := ⟨1, 1⟩

/-- The translation behind it. -/
def tailBehind : InstructionTranslator :=
  { tailState with
    reachable := false
    instructionSet := [
      signatureCheck 0, consumeFuel 1, stackCheck 0, call 71, ret,
      signatureCheck 1, consumeFuel 3, stackCheck (2 ^ 32 - 1), i32Const 35, consumeFuelStack] }

/-- The `end` of the function closes it, and emits nothing. -/
lemma tailBehind_end : ∃ t, InstructionTranslator.visitAll tailContext [.end] tailBehind = .ok t ∧
    t.instructionSet = tailBehind.instructionSet ∧ t.controlFrames = [] := by
  have emitted : (InstructionTranslator.visitAll tailContext [.end] tailBehind).map
      (fun t => (t.instructionSet, t.controlFrames)) = .ok (tailBehind.instructionSet, []) := by
    decide +kernel
  cases ended : InstructionTranslator.visitAll tailContext [.end] tailBehind with
  | error e =>
    rw [ended] at emitted
    cases emitted
  | ok t =>
    rw [ended] at emitted
    injection emitted with emitted
    injection emitted with code frames
    exact ⟨t, rfl, code, frames⟩

/-- The run in front of the call. -/
def atTailCall : Executor Unit :=
  { fueledWith 100 [35] with ip := 12 }

/-- The run behind it: the code of the intrinsic has come to its end. -/
def behindTailCall : Executor Unit :=
  { fueledWith 100 [] with
    ip := 13
    store := { (fueledWith 100 []).store with consumedFuel := 35 } }

/-- The run of the example's intrinsic completes. -/
lemma tailModule_completes : Completes tailModule Host.empty 13 atTailCall behindTailCall := by
  have elsewhere : ¬ atTailCall.ComesTo 0 13 := by decide
  have next : (frameVm tailModule Host.empty 0).step atTailCall = .next behindTailCall := rfl
  exact .step elsewhere next (.here ⟨rfl, rfl⟩)

/-- The module is what the compiler makes of these functions. -/
example : RwasmModule.compile testedPolicy tailConfig tailWasm = .ok tailModule := by decide +kernel

end Rwasm
