import Rwasm.Compiler.BranchTable
import Rwasm.Compiler.TailCall

/-!
# Visits extend the code

The visit of any operator leaves the code before it, but for charges and branches that are still open.
-/

namespace Rwasm

open Opcode

namespace LabelRegistry

variable {a b c : LabelRegistry} {lo hi lo' hi' label instr : Nat}

/-- What happens to labels while the code from `lo` to `hi` is emitted: they are only used there, and they
stay pinned. -/
structure Uses (lo hi : Nat) (a b : LabelRegistry) : Prop where
  users : ∃ us, b.users = a.users ++ us ∧ ∀ u ∈ us, lo ≤ u.user ∧ u.user < hi
  pinned : ∀ l p : Nat, a.labels[l]? = some (some p) → b.labels[l]? = some (some p)

/-- Labels left as they are. -/
lemma Uses.refl : Uses lo hi a a where
  users := ⟨[], (List.append_nil _).symm, List.forall_mem_nil _⟩
  pinned _ _ h := h

/-- Labels used twice. -/
lemma Uses.trans (h : Uses lo hi a b) (h' : Uses lo hi b c) : Uses lo hi a c where
  users := by
    obtain ⟨us, eq, within⟩ := h.users
    obtain ⟨us', eq', within'⟩ := h'.users
    refine ⟨us ++ us', by rw [eq', eq, List.append_assoc], ?_⟩
    intro u mem
    rcases List.mem_append.mp mem with mem | mem
    · exact within u mem
    · exact within' u mem
  pinned l p hp := h'.pinned l p (h.pinned l p hp)

/-- Labels that are used grow. -/
lemma Uses.grows (h : Uses lo hi a b) : Grows lo a b where
  users := by
    obtain ⟨us, eq, within⟩ := h.users
    exact ⟨us, eq, fun u mem => (within u mem).1⟩
  pinned := h.pinned

/-- No label is used. -/
lemma Uses.of_grows {n : Nat} (h : Grows n a b) (same : b.users = a.users) : Uses lo hi a b where
  users := ⟨[], by rw [same, List.append_nil], List.forall_mem_nil _⟩
  pinned := h.pinned

/-- A new label. -/
lemma newLabel_uses : Uses lo hi a a.newLabel.2 :=
  .of_grows (n := 0) newLabel_grows rfl

/-- A label pinned. -/
lemma pinLabel_uses (h : a.pinLabel label instr = .ok b) : Uses lo hi a b := by
  refine .of_grows (pinLabel_grows (n := 0) h) ?_
  obtain ⟨-, rfl⟩ := pinLabel_ok h
  rfl

/-- A label pinned unless it is. -/
lemma tryPinLabel_uses (h : a.tryPinLabel label instr = .ok b) : Uses lo hi a b := by
  refine .of_grows (tryPinLabel_grows (n := 0) h) ?_
  rcases tryPinLabel_ok h with ⟨p, -, rfl⟩ | ⟨-, rfl⟩
  · rfl
  · rfl

/-- A label resolved for an instruction inside the range. -/
lemma tryResolveLabel_uses {offset : Int} (h : a.tryResolveLabel label instr = .ok (offset, b))
    (le : lo ≤ instr) (lt : instr < hi) : Uses lo hi a b := by
  rcases tryResolveLabel_ok h with ⟨target, -, -, rfl⟩ | ⟨-, rfl⟩
  · exact .refl
  · refine ⟨⟨_, rfl, ?_⟩, fun _ _ hp => hp⟩
    intro u mem
    rw [List.mem_singleton.mp mem]
    exact ⟨le, lt⟩

end LabelRegistry

namespace Skeleton

variable {cx : Context} {s s' : Skeleton} {ops : List Opcode} {i : Nat}

/-- Code is added in which labels are used. -/
lemma Extends.of_uses (code : s'.code = s.code ++ ops)
    (next : ∀ i, s'.IsOpen cx i → s.IsOpen cx i ∨ s.code.length ≤ i)
    (uses : s.labels.Uses s.code.length (s.code.length + ops.length) s'.labels)
    (calls : s'.snippetCalls = s.snippetCalls)
    (fueled : cx.withConsumeFuel = true → ∀ i, s'.fuelInstr = some i →
      s.fuelInstr = some i ∨ s.code.length ≤ i ∧ ∃ fuel, s'.code[i]? = some (consumeFuel fuel)) :
    s.Extends cx s' := by
  refine .of_append code next uses.grows ⟨[], by rw [calls, List.append_nil], List.forall_mem_nil _⟩ ?_ fueled
  obtain ⟨us, users, within⟩ := uses.users
  intro before i used
  rw [code, List.length_append]
  rcases used with ⟨u, mem, rfl⟩ | called
  · rw [users] at mem
    rcases List.mem_append.mp mem with mem | mem
    · exact (before u.user (.inl ⟨u, mem, rfl⟩)).trans_le (Nat.le_add_right _ _)
    · exact (within u mem).2
  · rw [IsCall, calls] at called
    exact (before i (.inr called)).trans_le (Nat.le_add_right _ _)

/-- The charge of code that is left is not raised. -/
lemma not_isOpen_of_dead {i : Nat} (dead : s.reachable = false) : ¬ s.IsOpen cx i := by
  rintro ⟨-, live, -⟩
  rw [dead] at live
  cases live

/-- Code is added that is not gone on with. -/
lemma Extends.of_dead (dead : s'.reachable = false) (code : s'.code = s.code ++ ops)
    (uses : s.labels.Uses s.code.length (s.code.length + ops.length) s'.labels)
    (calls : s'.snippetCalls = s.snippetCalls)
    (fuel : s'.fuelInstr = s.fuelInstr ∨ s'.fuelInstr = none) : s.Extends cx s' := by
  refine .of_uses code (fun i o => absurd o (not_isOpen_of_dead dead)) uses calls ?_
  intro _ i hi
  rcases fuel with same | left
  · exact .inl (same ▸ hi)
  · rw [left] at hi
    cases hi

/-- The code that follows is charged to a new location, where fuel is metered. -/
lemma Extends.of_fuelCode (code : s'.code = s.code ++ (ops ++ cx.fuelCode))
    (uses : s.labels.Uses s.code.length (s.code.length + ops.length) s'.labels)
    (calls : s'.snippetCalls = s.snippetCalls)
    (fuel : cx.withConsumeFuel = true → ∀ i, s'.fuelInstr = some i → i = s.code.length + ops.length) :
    s.Extends cx s' := by
  have found : cx.withConsumeFuel = true → s'.code[s.code.length + ops.length]? = some (consumeFuel 0) := by
    intro on
    rw [code, ← List.append_assoc, ← List.length_append, Context.fuelCode, on, if_pos rfl]
    exact List.getElem?_concat_length
  refine .of_uses code (fun i o => .inr ?_) ⟨?_, uses.pinned⟩ calls fun on i hi => .inr ?_
  · rw [fuel o.1 i o.2.2]
    exact Nat.le_add_right _ _
  · obtain ⟨us, eq, within⟩ := uses.users
    refine ⟨us, eq, fun u mem => ?_⟩
    obtain ⟨le, lt⟩ := within u mem
    rw [List.length_append]
    omega
  · rw [fuel on i hi]
    exact ⟨Nat.le_add_right _ _, 0, found on⟩

end Skeleton

namespace InstructionTranslator

variable {cx : Context} {t t' t'' : InstructionTranslator} {ops : List Opcode} {depth : Nat}
  {type : BlockType}

/-- What later code leaves of the code before it. -/
def Extends (cx : Context) (t t' : InstructionTranslator) : Prop :=
  t.skeleton.Extends cx t'.skeleton

/-- A state extended twice. -/
lemma Extends.trans (h : t.Extends cx t') (h' : t'.Extends cx t'') : t.Extends cx t'' :=
  Skeleton.Extends.trans h h'

/-- The code that is left is charged. -/
lemma extends_charged {delta : Nat} (live : t.reachable = true) :
    t.Extends cx { t with instructionSet := cx.charged delta t.fuelInstr t.instructionSet } := by
  have charge : t.skeleton.Extends cx (t.skeleton.charge cx delta) := .charge live
  rwa [Skeleton.charge_eq] at charge

/-- Where fuel is metered, the code that follows is charged to a new location. -/
lemma fuelInstr_recharged {pc i : Nat} (on : cx.withConsumeFuel = true) {frames : List ControlFrame}
    (h : (cx.recharged pc frames).head?.bind ControlFrame.consumeFuelInstr = some i) : i = pc := by
  cases frames with
  | nil => cases h
  | cons frame rest =>
    rw [Context.recharged, on, if_pos rfl] at h
    cases frame <;> cases h
    all_goals rfl

/-- An operator that falls through extends the code. -/
lemma visitPlain_extends {op : PlainOperator} (h : t.visitPlain cx op = .ok t') : t.Extends cx t' := by
  cases r : t.reachable with
  | false =>
    rw [visitPlain_unreachable r h]
    exact .refl
  | true =>
    obtain ⟨ops, emitted, eq⟩ := visitPlain_visited r h
    rw [Extends, eq]
    refine Skeleton.Extends.trans (@Skeleton.Extends.charge cx t.skeleton (op.cost cx.costs) r) ?_
    cases called : op.snippet? cx with
    | none => exact .emit
    | some s =>
      obtain rfl := emitted_snippet called emitted
      exact .record

/-- `unreachable` extends the code. -/
lemma visitUnreachable_extends (h : t.visitUnreachable = .ok t') : t.Extends cx t' := by
  cases r : t.reachable with
  | false =>
    rw [@visitLeave_dead cx _ _ .unreachable r h]
    exact .refl
  | true =>
    obtain rfl := visitUnreachable_ok r h
    exact .of_dead rfl rfl .refl rfl (.inl rfl)

/-- `return` extends the code. -/
lemma visitReturn_extends (h : t.visitReturn cx = .ok t') : t.Extends cx t' := by
  cases r : t.reachable with
  | false =>
    rw [visitReturn_unreachable r h]
    exact .refl
  | true =>
    obtain ⟨dk, -, rfl⟩ := visitReturn_ok r h
    exact .of_dead rfl rfl .refl rfl (.inl rfl)

/-- Nothing behind a return is reachable. -/
lemma visitReturn_left (h : t.visitReturn cx = .ok t') :
    t'.reachable = false ∧ t'.controlFrames = t.controlFrames := by
  cases r : t.reachable with
  | false =>
    rw [visitReturn_unreachable r h]
    exact ⟨r, rfl⟩
  | true =>
    obtain ⟨dk, -, rfl⟩ := visitReturn_ok r h
    exact ⟨rfl, rfl⟩

/-- The location of the first instruction behind the code that has been charged. -/
lemma length_charged_skeleton {delta : Nat} :
    ({ t with instructionSet := cx.charged delta t.fuelInstr t.instructionSet } :
      InstructionTranslator).skeleton.code.length = t.currentPc :=
  Context.length_charged

/-- `br` extends the code. -/
lemma visitBr_extends (h : t.visitBr cx depth = .ok t') : t.Extends cx t' := by
  cases r : t.reachable with
  | false =>
    rw [visitLeave_dead (.br depth) r h]
    exact .refl
  | true =>
    refine (@extends_charged cx t cx.costs.base r).trans ?_
    obtain ⟨-, ⟨label, dk, offset, labels, -, resolved, rfl⟩ | ⟨dk, dk', -, -, rfl⟩⟩ := visitBr_ok r h
    · refine .of_dead rfl rfl (LabelRegistry.tryResolveLabel_uses resolved ?_ ?_) rfl (.inl fuelInstr_counted)
      all_goals
        rw [length_charged_skeleton]
        try rw [List.length_append, List.length_singleton]
        omega
    · exact .of_dead rfl rfl .refl rfl (.inl fuelInstr_counted)

/-- The code behind a conditional branch is charged to a new location. -/
lemma visitBrIf_extends (h : t.visitBrIf cx depth = .ok t') : t.Extends cx t' := by
  cases r : t.reachable with
  | false =>
    rw [visitBrIf_dead r h]
    exact .refl
  | true =>
    refine (@extends_charged cx t cx.costs.base r).trans ?_
    obtain ⟨-, -, -, ops, labels, stackHeight, branches, rfl, -⟩ := visitBrIf_ok r h
    refine .of_fuelCode (List.append_assoc _ _ _) ?_ rfl ?_
    · rw [length_charged_skeleton]
      cases branches with
      | direct acquired noop resolved =>
        exact LabelRegistry.tryResolveLabel_uses resolved (Nat.le_refl _) (Nat.lt_succ_self _)
      | branch acquired drops resolved =>
        have pc : (t.conditioned.counted depth).currentPc = t.currentPc := rfl
        rw [pc] at resolved
        refine LabelRegistry.tryResolveLabel_uses resolved (by omega) ?_
        rw [List.length_cons, List.length_append, List.length_singleton]
        omega
      | ret acquired => exact .refl
    · intro on i hi
      rw [length_charged_skeleton]
      exact fuelInstr_recharged on hi

/-- `br_table` extends the code. -/
lemma visitBrTable_extends {targets : List Nat} {default : Nat}
    (h : t.visitBrTable cx targets default = .ok t') : t.Extends cx t' := by
  cases r : t.reachable with
  | false =>
    rw [visitLeave_dead (.brTable targets default) r h]
    exact .refl
  | true =>
    refine (@extends_charged cx t cx.costs.base r).trans ?_
    obtain ⟨-, -, -, code, t₁, tabled, length, -, rfl⟩ := visitBrTable_ok r h
    refine .of_dead rfl (congrArg (· ++ _) tabled.instructionSet) ?_ tabled.snippetCalls
      (.inl tabled.fuel)
    obtain ⟨us, users, added⟩ := tabled.grows.users
    refine ⟨⟨us, users, fun u mem => ?_⟩, fun l p hp => ?_⟩
    · have within := added u mem
      unfold BrTableCode.Added at within
      rw [currentPc_tabling] at within
      rw [length_charged_skeleton, List.length_cons, List.length_append]
      simp only [List.length_nil] at within
      omega
    · show t₁.labels.labels[l]? = _
      rw [tabled.grows.labels]
      exact hp

/-- A raised charge leaves the rest of the code. -/
lemma bumpFuelConsumption_extends {delta : Nat} (live : t.reachable = true)
    (h : t.bumpFuelConsumption cx delta = .ok t') : t.Extends cx t' := by
  rw [Extends, bumpFuelConsumption_skeleton h]
  exact .charge live

/-- A tail call extends the code. -/
lemma visitReturnCall_extends {func : Nat} (h : t.visitReturnCall cx func = .ok t') : t.Extends cx t' := by
  cases r : t.reachable with
  | false =>
    rw [visitLeave_dead (.returnCall func) r h]
    exact .refl
  | true =>
    simp only [visitReturnCall, translateIfReachable, r, if_true, Compile.bind_ok] at h
    obtain ⟨type, -, funcType, -, dk, -, t₁, h₁, ops, -, h⟩ := h
    cases h
    refine (bumpFuelConsumption_extends r h₁).trans ?_
    exact .of_dead rfl (List.append_assoc _ _ _) .refl rfl (.inl rfl)

/-- An indirect tail call extends the code. -/
lemma visitReturnCallIndirect_extends {type table : Nat}
    (h : t.visitReturnCallIndirect cx type table = .ok t') : t.Extends cx t' := by
  cases r : t.reachable with
  | false =>
    rw [visitLeave_dead (.returnCallIndirect type table) r h]
    exact .refl
  | true =>
    simp only [visitReturnCallIndirect, translateIfReachable, r, if_true, Compile.bind_ok, Prod.exists] at h
    obtain ⟨funcType, -, t₁, h₁, popped, t₂, h₂, dk₁, -, dk, -, t₃, h₃, signature, -, h⟩ := h
    cases h
    have same : t₂.skeleton = t.skeleton := (popType_skeleton h₂).trans (popN_skeleton h₁)
    have live : t₂.reachable = true := (congrArg Skeleton.reachable same).trans r
    have charged := bumpFuelConsumption_extends live h₃
    rw [Extends, same] at charged
    refine Skeleton.Extends.trans charged ?_
    exact .of_dead rfl (List.append_assoc _ _ _) .refl rfl (.inl rfl)

/-- `block` extends the code. -/
lemma visitBlock_extends (h : t.visitBlock cx type = .ok t') : t.Extends cx t' := by
  cases r : t.reachable with
  | false =>
    rw [visitBlock_dead r h]
    exact .of_dead r (List.append_nil _).symm .refl rfl (.inr rfl)
  | true =>
    obtain ⟨height, -, rfl⟩ := visitBlock_ok r h
    refine .of_uses (List.append_nil _).symm (fun i o => .inl ⟨o.1, r, o.2.2⟩)
      LabelRegistry.newLabel_uses rfl fun _ i hi => .inl hi

/-- The location the code behind `fuelCode` is charged to. -/
lemma fuelAt_some {pc i : Nat} (on : cx.withConsumeFuel = true) (h : cx.fuelAt pc = some i) : i = pc := by
  rw [Context.fuelAt, on, if_pos rfl] at h
  exact (Option.some.inj h).symm

/-- `loop` extends the code. -/
lemma visitLoop_extends (h : t.visitLoop cx type = .ok t') : t.Extends cx t' := by
  cases r : t.reachable with
  | false =>
    rw [visitLoop_dead r h]
    exact .of_dead r (List.append_nil _).symm .refl rfl (.inr rfl)
  | true =>
    obtain ⟨height, labels, -, pinned, rfl⟩ := visitLoop_ok r h
    refine @Skeleton.Extends.of_fuelCode _ _ _ [] rfl ?_ rfl fun on i hi => ?_
    · exact LabelRegistry.newLabel_uses.trans (LabelRegistry.pinLabel_uses pinned)
    · exact fuelAt_some on hi

/-- `if` extends the code. -/
lemma visitIf_extends (h : t.visitIf cx type = .ok t') : t.Extends cx t' := by
  cases r : t.reachable with
  | false =>
    rw [visitIf_dead r h]
    exact .of_dead r (List.append_nil _).symm .refl rfl (.inr rfl)
  | true =>
    refine (@extends_charged cx t cx.costs.base r).trans ?_
    obtain ⟨height, offset, labels, -, -, resolved, rfl⟩ := visitIf_ok r h
    refine .of_fuelCode (List.append_assoc _ _ _) ?_ rfl fun on i hi => ?_
    · rw [length_charged_skeleton]
      exact (LabelRegistry.newLabel_uses.trans LabelRegistry.newLabel_uses).trans
        (LabelRegistry.tryResolveLabel_uses resolved (Nat.le_refl _) (Nat.lt_succ_self _))
    · rw [length_charged_skeleton]
      exact fuelAt_some on hi

/-- `else` extends the code. -/
lemma visitElse_extends (h : t.visitElse cx = .ok t') : t.Extends cx t' := by
  rcases visitElse_inv h with ⟨endLabel, elseLabel, frame, frames, found⟩ | rfl
  · obtain ⟨jump, labels, labels', fuel, types, params, jumps, pinned, hf, -, -, -, rfl⟩ :=
      visitElse_ok found h
    refine .of_fuelCode (List.append_assoc _ _ _) ?_ rfl fun on i hi => ?_
    · refine LabelRegistry.Uses.trans ?_ (LabelRegistry.pinLabel_uses pinned)
      cases jumps with
      | live _ resolved =>
        exact LabelRegistry.tryResolveLabel_uses resolved (Nat.le_refl _) (Nat.lt_succ_self _)
      | dead => exact .refl
    · obtain rfl : fuel = some i := hi
      unfold elseFuel Context.fuelAt at hf
      rw [on, if_pos rfl] at hf
      dsimp only at hf
      split at hf
      · cases hf
        rfl
      · cases hf
  · exact .refl

/-- Only labels are pinned. -/
lemma pinElse_labels {frame : ControlFrame} (h : t.pinElse frame = .ok t') (lo hi : Nat) :
    ∃ labels, t' = { t with labels := labels } ∧ t.labels.Uses lo hi labels := by
  unfold pinElse at h
  split at h
  · obtain ⟨labels, pinned, h⟩ := Compile.bind_ok.mp h
    cases h
    exact ⟨labels, rfl, LabelRegistry.tryPinLabel_uses pinned⟩
  · cases h
    exact ⟨t.labels, rfl, .refl⟩

/-- Pinning the end of a frame uses the labels and changes nothing else. -/
lemma pinEnd_labels {frame : ControlFrame} (h : t.pinEnd frame = .ok t') (lo hi : Nat) :
    ∃ labels, t' = { t with labels := labels } ∧ t.labels.Uses lo hi labels := by
  unfold pinEnd at h
  split at h
  · obtain ⟨label, -, h⟩ := Compile.bind_ok.mp h
    obtain ⟨labels, pinned, rfl⟩ := pinLabel_ok h
    exact ⟨labels, rfl, LabelRegistry.pinLabel_uses pinned⟩
  · cases h
    exact ⟨t.labels, rfl, .refl⟩

/-- Only the emulated stack is restored. -/
lemma restore_ok {frame : ControlFrame} (h : t.restore frame = .ok t') :
    ∃ types stackHeight, t' = { t with stackTypes := types, stackHeight := stackHeight } := by
  unfold restore at h
  split at h
  · obtain ⟨types, -, -, rfl⟩ := shrinkTo_ok h
    exact ⟨_, _, rfl⟩
  · cases h
    exact ⟨_, _, rfl⟩

/-- The code behind a block is charged to a new location, and that of a function ends. -/
lemma visitEnd_extends (h : t.visitEnd cx = .ok t') : t.Extends cx t' := by
  rw [visitEnd_eq] at h
  simp only [Compile.bind_ok] at h
  obtain ⟨frame, hf, t₁, h₁, t₂, h₂, t₃, h₃, t₄, h₄, results, -, h⟩ := h
  obtain ⟨labels, rfl, uses⟩ := pinElse_labels h₁ t.currentPc t.currentPc
  obtain ⟨labels', rfl, uses'⟩ := pinEnd_labels h₂ t.currentPc t.currentPc
  obtain ⟨types, stackHeight, rfl⟩ := restore_ok h₄
  rw [pushValuesOf_eq] at h
  refine @Extends.trans cx t { t with labels := labels' } _ ?_ ?_
  · exact .of_uses (List.append_nil _).symm (fun _ => .inl) (uses.trans uses') rfl fun _ _ => .inl
  unfold leave at h₃
  split at h₃
  next one =>
    -- the end of the function returns, and nothing is charged behind it
    obtain ⟨left, same⟩ := visitReturn_left h₃
    have last : t₃.controlFrames.tail = [] := by
      rw [same, ← List.length_eq_zero_iff, List.length_tail]
      exact Nat.sub_eq_zero_of_le (Nat.le_of_eq one)
    unfold close at h
    dsimp only at h
    rw [if_pos last] at h
    cases h
    refine (visitReturn_extends h₃).trans (.of_dead left (List.append_nil _).symm .refl rfl (.inr ?_))
    show t₃.controlFrames.tail.head?.bind ControlFrame.consumeFuelInstr = none
    rw [last]
    rfl
  next inner =>
    cases h₃
    unfold close at h
    dsimp only at h
    split at h
    next last =>
      rw [lastFrame, Compile.unwrap_ok] at hf
      obtain ⟨rest, frames⟩ := List.head?_eq_some_iff.mp hf
      have none : rest = [] := by
        rw [← last]
        exact (congrArg List.tail frames).symm
      refine absurd ?_ inner
      show t.controlFrames.length = 1
      rw [frames, none]
      rfl
    · obtain ⟨rfl, -⟩ := replaceConsumeFuel_ok h
      refine @Skeleton.Extends.of_fuelCode _ _ _ [] rfl .refl rfl fun on i hi => ?_
      exact fuelInstr_recharged on hi

/-- The visit of an operator leaves the code before it. -/
theorem visit_extends {op : Operator} (h : t.visit cx op = .ok t') : t.Extends cx t' := by
  cases op with
  | plain op => exact visitPlain_extends h
  | leave op =>
    cases op with
    | unreachable => exact visitUnreachable_extends h
    | br depth => exact visitBr_extends h
    | brTable targets default => exact visitBrTable_extends h
    | ret => exact visitReturn_extends h
    | returnCall func => exact visitReturnCall_extends h
    | returnCallIndirect type table => exact visitReturnCallIndirect_extends h
  | brIf depth => exact visitBrIf_extends h
  | block type => exact visitBlock_extends h
  | loop type => exact visitLoop_extends h
  | «if» type => exact visitIf_extends h
  | «else» => exact visitElse_extends h
  | «end» => exact visitEnd_extends h

/-- The visits of all operators extend the code. -/
theorem visitAll_extends {ops : List Operator} (h : visitAll cx ops t = .ok t') : t.Extends cx t' := by
  induction ops generalizing t with
  | nil =>
    cases h
    exact .refl
  | cons op ops ih =>
    obtain ⟨t₁, visited, h⟩ := Compile.bind_ok.mp h
    exact (visit_extends visited).trans (ih h)

end InstructionTranslator

/-! ## Function bodies -/

open InstructionTranslator

namespace FuncBuilder

variable {cx : Context} {func : Nat} {groups : List (Nat × ValType)} {operators : List Operator}
  {code code' : List Opcode} {calls calls' : List SnippetCall} {t t' : InstructionTranslator}

/-- Locals are added. -/
lemma groups_extends (h : groups.foldlM translateLocalGroup t = .ok t') : t.Extends cx t' := by
  induction groups generalizing t with
  | nil =>
    cases h
    exact .refl
  | cons group groups ih =>
    rw [List.foldlM_cons, Compile.bind_ok] at h
    obtain ⟨t₁, h₁, h⟩ := h
    unfold translateLocalGroup at h₁
    split at h₁
    · cases h₁
    · cases h₁
      refine Extends.trans ?_ (ih h)
      show t.skeleton.Extends cx (t.skeleton.emit [bulkConst (group.1 * group.2.slots)])
      exact .emit

/-- What stands in front of the operators of a function begins with its signature check and its charge. -/
lemma enter_extends (h : enter cx func groups code calls = .ok t) :
    ∃ (signature : Nat) (t₀ : InstructionTranslator), t₀.Extends cx t ∧
      t₀.instructionSet = code ++ [signatureCheck signature] ++ cx.fuelCode ∧
      t₀.labels.users = [] ∧ t₀.snippetCalls = calls ∧ t₀.fuelInstr = cx.fuelAt (code.length + 1) := by
  simp only [enter, prepare, Compile.bind_ok, pushConsumeFuel_eq] at h
  obtain ⟨t₁, ⟨type, -, signature, -, original, -, funcType, -, prepared⟩, t₂, charged, located⟩ := h
  have checked : t₂.Extends cx (t₂.emit [stackCheck (2 ^ 32 - 1)]) := Skeleton.Extends.emit
  have rest : t₁.reachable = true → t₁.Extends cx t := by
    intro live
    have begun := (bumpFuelConsumption_extends live charged).trans checked
    obtain rfl := bumpFuelConsumption_ok charged
    unfold translateLocals at located
    dsimp only at located
    split at located
    · obtain ⟨t₃, paid, h⟩ := Compile.bind_ok.mp located
      exact (begun.trans (bumpFuelConsumption_extends live paid)).trans (groups_extends h)
    · exact begun.trans (groups_extends located)
  have pc : (code ++ [signatureCheck signature]).length = code.length + 1 := List.length_append
  split at prepared
  · have paid := bumpFuelConsumption_extends rfl prepared
    obtain rfl := bumpFuelConsumption_ok prepared
    exact ⟨signature, _, paid.trans (rest rfl), rfl, rfl, rfl, congrArg cx.fuelAt pc⟩
  · cases prepared
    exact ⟨signature, _, rest rfl, rfl, rfl, rfl, congrArg cx.fuelAt pc⟩

/-- Offsets are filled in where labels are used. -/
lemma resolveUsers_take {labels : LabelRegistry} {users : List LabelUser} {ops ops' : List Opcode} {n : Nat}
    (h : users.foldlM (resolveUser labels) ops = .ok ops') (le : ∀ u ∈ users, n ≤ u.user) :
    ops'.take n = ops.take n := by
  induction users generalizing ops with
  | nil =>
    cases h
    rfl
  | cons u users ih =>
    rw [List.foldlM_cons, Compile.bind_ok] at h
    obtain ⟨ops₁, h₁, h⟩ := h
    rw [ih h fun u mem => le u (.tail _ mem)]
    simp only [resolveUser, Compile.bind_ok] at h₁
    obtain ⟨offset, -, op, -, op', -, h₁⟩ := h₁
    cases h₁
    exact List.take_set_of_le (le u (.head _))

/-- The visits of the operators leave what stands in front of the function as it is, and the labels and
snippets they use are used behind it. -/
lemma visited_behind (entered : enter cx func groups code calls = .ok t)
    (visited : visitAll cx operators t = .ok t') :
    t'.instructionSet.take code.length = code ∧ (∀ u ∈ t'.labels.users, code.length ≤ u.user) ∧
      ∃ new, t'.snippetCalls = calls ++ new ∧ ∀ c ∈ new, code.length ≤ c.loc := by
  obtain ⟨signature, t₀, begun, begins, users, called, fuel⟩ := enter_extends entered
  have all : t₀.Extends cx t' := begun.trans (visitAll_extends visited)
  have longer : code.length ≤ t₀.instructionSet.length := by
    rw [begins, List.append_assoc, List.length_append]
    exact Nat.le_add_right _ _
  refine ⟨?_, ?_, ?_⟩
  · apply List.ext_getElem?
    intro i
    rw [List.getElem?_take]
    split
    next lt =>
      have found : t₀.skeleton.code[i]? = some code[i] := by
        show t₀.instructionSet[i]? = _
        rw [begins, List.append_assoc, List.getElem?_append_left lt, List.getElem?_eq_getElem lt]
      obtain ⟨op, found', -, closed⟩ := all.charged i _ found
      -- the code is charged behind the signature check
      have shut : ¬ t₀.skeleton.IsOpen cx i := by
        rintro ⟨on, -, charged⟩
        have behind := fuelAt_some on (fuel.symm.trans charged)
        omega
      rw [(closed shut).1] at found'
      rw [List.getElem?_eq_getElem lt]
      exact found'
    next ge => rw [List.getElem?_eq_none (Nat.not_lt.mp ge)]
  · obtain ⟨us, used, behind⟩ := all.labels.users
    intro u mem
    change t'.labels.users = t₀.labels.users ++ us at used
    rw [used, users, List.nil_append] at mem
    exact longer.trans (behind u mem)
  · obtain ⟨new, recorded, after⟩ := all.calls
    refine ⟨new, ?_, fun c mem => longer.trans (after c mem)⟩
    rw [← called]
    exact recorded

/-- The translation of a function leaves the code in front of it as it is. -/
lemma translate_prefix (h : translate cx func groups operators code calls = .ok (code', calls')) :
    ∃ added, code' = code ++ added := by
  rw [translate_eq] at h
  simp only [Compile.bind_ok] at h
  obtain ⟨t, entered, t', visited, final, finished, h⟩ := h
  cases h
  obtain ⟨kept, users, -⟩ := visited_behind entered visited
  simp only [finish, Compile.bind_ok] at finished
  obtain ⟨resolved, hr, body, -, finished⟩ := finished
  cases finished
  exact ⟨body, by rw [resolveUsers_take hr users, kept]⟩

/-- What is filled in at the end of a function is not what its code stands for. -/
lemma Translates.congr {es es' : List Emission}
    (h : Translates cx func groups operators code calls es)
    (targets : es'.map Emission.target = es.map Emission.target)
    (stencil : (es'.map Emission.op).map Opcode.stencil = (es.map Emission.op).map Opcode.stencil) :
    Translates cx func groups operators code calls es' where
  begins := by
    obtain ⟨type, signature, ht, hs, begins⟩ := h.begins
    refine ⟨type, signature, ht, hs, ?_⟩
    have heads : ((es'.map Emission.op).head?).map Opcode.stencil = some (signatureCheck signature) := by
      rw [← List.head?_map, stencil, List.head?_map, begins]
      rfl
    obtain ⟨op, head, kept⟩ := Option.map_eq_some_iff.mp heads
    rw [head]
    cases op <;> cases kept
    rfl
  refers := by
    intro k e' r found target
    have known := congrArg (fun targets => targets[k]?) targets
    have kept := congrArg (fun ops => ops[k]?) stencil
    simp only [List.getElem?_map, found, Option.map_some] at known kept
    obtain ⟨e, emitted, same⟩ := Option.map_eq_some_iff.mp known.symm
    rw [emitted, Option.map_some, Option.map_some, Option.some.injEq] at kept
    -- an instruction that stands for something is not filled in
    obtain ⟨n, named⟩ : ∃ n, e.op.funcNumber = some n := by
      rw [← Option.isSome_iff_exists, ← e.isSome_target, same, target]
      rfl
    rw [Opcode.eq_of_stencil kept.symm named]
    exact h.refers k e r emitted (same.trans target)

/-- The translation of a function adds its code behind the code in front of it, as it stays. -/
theorem translate_adds (h : translate cx func groups operators code calls = .ok (code', calls')) :
    ∃ es, Translates cx func groups operators code calls es ∧
      code' = code ++ es.map Emission.op ∧ calls' = calls ++ snippetCallsFrom code.length es := by
  obtain ⟨es, translates, stencil, recorded⟩ := translate_translates h
  obtain ⟨added, rfl⟩ := translate_prefix h
  rw [List.map_append, List.map_append, List.append_cancel_left_eq] at stencil
  obtain ⟨es', rfl, targets⟩ := exists_filled stencil
  exact ⟨es', translates.congr targets stencil, rfl, by rw [recorded, snippetCallsFrom_congr targets]⟩

end FuncBuilder

end Rwasm
