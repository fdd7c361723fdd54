import Rwasm.Compiler.Jumps
import Rwasm.Compiler.Resolve

/-!
# The code of branch tables

Each branch of a table has two instructions; one that has slots to drop continues behind those of all
branches. The table is encoded branch by branch, and what a branch has been given it keeps: later branches
add code at both ends, and use labels there only.
-/

namespace Rwasm

open Opcode

/-- No label is used at a location. -/
def LabelRegistry.Free (registry : LabelRegistry) (loc : Nat) : Prop :=
  ∀ u ∈ registry.users, u.user ≠ loc

/-- A location stays free where labels are used elsewhere. -/
lemma LabelRegistry.Free.append {registry registry' : LabelRegistry} {us : List LabelUser} {loc : Nat}
    (free : registry.Free loc) (users : registry'.users = registry.users ++ us)
    (elsewhere : ∀ u ∈ us, u.user ≠ loc) : registry'.Free loc := by
  intro u mem
  rw [users] at mem
  rcases List.mem_append.mp mem with mem | mem
  · exact free u mem
  · exact elsewhere u mem

/-- What stands in a list still stands there when more is appended. -/
lemma getElem?_append_of_some {α : Type} {l : List α} {n : Nat} {a : α} (r : List α)
    (h : l[n]? = some a) : (l ++ r)[n]? = some a := by
  rw [List.getElem?_append_left (List.getElem?_eq_some_iff.mp h).1, h]

namespace InstructionTranslator

namespace BrTableCode

variable {pc len k : Nat} {registry registry' : LabelRegistry} {code code' : BrTableCode}
  {target : AcquiredTarget}

/-- Code that stands behind the branches, none of it at the use of a label. -/
def Behind (pc len : Nat) (registry : LabelRegistry) (code : BrTableCode) (pos : Nat) (ops : List Opcode) :
    Prop :=
  ∀ (i : Nat) (op : Opcode), ops[i]? = some op →
    code.trampolines[pos + i]? = some op ∧ registry.Free (pc + 1 + len + (pos + i))

/-- What the branch `k` of a table at `pc` does. -/
inductive Encoded (pc len : Nat) (registry : LabelRegistry) (code : BrTableCode) (k : Nat) :
    AcquiredTarget → Prop
  | ret {dk} :
    dk.drop = 0 →
    code.branches[2 * k]? = some Opcode.ret →
    registry.Free (pc + 1 + 2 * k) →
    Encoded pc len registry code k (.ret dk)
  | retBehind {dk pos} :
    dk.drop ≠ 0 →
    code.branches[2 * k]? = some (br (len - 2 * k + pos : Nat)) →
    registry.Free (pc + 1 + 2 * k) →
    code.Behind pc len registry pos (dk.code ++ [Opcode.ret]) →
    Encoded pc len registry code k (.ret dk)
  | branch {label dk offset} :
    dk.drop = 0 →
    code.branches[2 * k]? = some (br offset) →
    registry.Leads label (pc + 1 + 2 * k) offset →
    Encoded pc len registry code k (.branch label dk)
  | branchBehind {label dk pos offset} :
    dk.drop ≠ 0 →
    code.branches[2 * k]? = some (br (len - 2 * k + pos : Nat)) →
    registry.Free (pc + 1 + 2 * k) →
    code.Behind pc len registry pos dk.code →
    code.trampolines[pos + dk.code.length]? = some (br offset) →
    registry.Leads label (pc + 1 + len + (pos + dk.code.length)) offset →
    Encoded pc len registry code k (.branch label dk)

/-- A location of the code that is added to a table. -/
def Added (pc len : Nat) (code code' : BrTableCode) (loc : Nat) : Prop :=
  (pc + 1 + code.branches.length ≤ loc ∧ loc < pc + 1 + code'.branches.length) ∨
    pc + 1 + len + code.trampolines.length ≤ loc ∧ loc < pc + 1 + len + code'.trampolines.length

/-- Code is added at both ends, and labels are used there. -/
structure Grows (pc len : Nat) (registry : LabelRegistry) (code : BrTableCode) (registry' : LabelRegistry)
    (code' : BrTableCode) : Prop where
  branches : ∃ ops, code'.branches = code.branches ++ ops
  trampolines : ∃ ops, code'.trampolines = code.trampolines ++ ops
  users : ∃ us, registry'.users = registry.users ++ us ∧ ∀ u ∈ us, Added pc len code code' u.user
  labels : registry'.labels = registry.labels

/-- A table grows by nothing. -/
lemma Grows.refl : Grows pc len registry code registry code where
  branches := ⟨[], (List.append_nil _).symm⟩
  trampolines := ⟨[], (List.append_nil _).symm⟩
  users := ⟨[], (List.append_nil _).symm, List.forall_mem_nil _⟩
  labels := rfl

/-- Neither the branches nor the trampolines become fewer. -/
lemma Grows.length_le (h : Grows pc len registry code registry' code') :
    code.branches.length ≤ code'.branches.length ∧ code.trampolines.length ≤ code'.trampolines.length := by
  obtain ⟨ops, eq⟩ := h.branches
  obtain ⟨ops', eq'⟩ := h.trampolines
  rw [eq, eq', List.length_append, List.length_append]
  exact ⟨Nat.le_add_right _ _, Nat.le_add_right _ _⟩

/-- A table that grows twice has grown. -/
lemma Grows.trans {registry'' : LabelRegistry} {code'' : BrTableCode}
    (h : Grows pc len registry code registry' code') (h' : Grows pc len registry' code' registry'' code'') :
    Grows pc len registry code registry'' code'' where
  branches := by
    obtain ⟨ops, eq⟩ := h.branches
    obtain ⟨ops', eq'⟩ := h'.branches
    exact ⟨ops ++ ops', by rw [eq', eq, List.append_assoc]⟩
  trampolines := by
    obtain ⟨ops, eq⟩ := h.trampolines
    obtain ⟨ops', eq'⟩ := h'.trampolines
    exact ⟨ops ++ ops', by rw [eq', eq, List.append_assoc]⟩
  users := by
    obtain ⟨us, eq, added⟩ := h.users
    obtain ⟨us', eq', added'⟩ := h'.users
    obtain ⟨le, le'⟩ := h.length_le
    obtain ⟨later, later'⟩ := h'.length_le
    refine ⟨us ++ us', by rw [eq', eq, List.append_assoc], ?_⟩
    intro u mem
    rcases List.mem_append.mp mem with mem | mem
    · have first := added u mem
      unfold Added at first ⊢
      omega
    · have second := added' u mem
      unfold Added at second ⊢
      omega
  labels := h'.labels.trans h.labels

/-- A location where the code already stands stays without the use of a label. -/
lemma Grows.free (h : Grows pc len registry code registry' code') {loc : Nat} (free : registry.Free loc)
    (done : ¬ Added pc len code code' loc) : registry'.Free loc := by
  obtain ⟨us, eq, added⟩ := h.users
  refine free.append eq ?_
  rintro u mem rfl
  exact done (added u mem)

/-- A recorded offset that no new entry resolves leads where it led. -/
lemma Grows.leads (h : Grows pc len registry code registry' code') {label loc : Nat} {offset : Int}
    (leads : registry.Leads label loc offset) (done : ¬ Added pc len code code' loc) :
    registry'.Leads label loc offset := by
  obtain ⟨us, eq, added⟩ := h.users
  refine leads.of_users eq ?_ (fun l p found => h.labels ▸ found)
  rintro u mem rfl
  exact done (added u mem)

section Fits

variable (fits : code'.branches.length ≤ len)
include fits

/-- The code behind a branch stays there while the table grows. -/
lemma Grows.behind (h : Grows pc len registry code registry' code') {pos : Nat} {ops : List Opcode}
    (behind : code.Behind pc len registry pos ops) : code'.Behind pc len registry' pos ops := by
  intro i op found
  obtain ⟨there, free⟩ := behind i op found
  have lt : pos + i < code.trampolines.length := (List.getElem?_eq_some_iff.mp there).1
  obtain ⟨ops', eq⟩ := h.trampolines
  refine ⟨eq ▸ getElem?_append_of_some ops' there, h.free free ?_⟩
  unfold Added
  omega

/-- What a branch has been given it keeps. -/
lemma Encoded.grows (encoded : Encoded pc len registry code k target)
    (h : Grows pc len registry code registry' code') : Encoded pc len registry' code' k target := by
  have short := h.length_le.1
  obtain ⟨ops, longer⟩ := h.branches
  have stays : ∀ op, code.branches[2 * k]? = some op → code'.branches[2 * k]? = some op := by
    intro op found
    exact longer ▸ getElem?_append_of_some ops found
  -- later branches stand behind this one, and all of them in front of the trampolines
  have done : ∀ op, code.branches[2 * k]? = some op → ¬ Added pc len code code' (pc + 1 + 2 * k) := by
    intro op found
    have lt : 2 * k < code.branches.length := (List.getElem?_eq_some_iff.mp found).1
    unfold Added
    omega
  cases encoded with
  | ret noop found free => exact .ret noop (stays _ found) (h.free free (done _ found))
  | retBehind drops found free behind =>
    exact .retBehind drops (stays _ found) (h.free free (done _ found)) (h.behind fits behind)
  | branch noop found leads => exact .branch noop (stays _ found) (h.leads leads (done _ found))
  | @branchBehind label dk pos offset drops found free behind last leads =>
    obtain ⟨ops', eq⟩ := h.trampolines
    refine .branchBehind drops (stays _ found) (h.free free (done _ found)) (h.behind fits behind)
      (eq ▸ getElem?_append_of_some ops' last) (h.leads leads ?_)
    have lt : pos + dk.code.length < code.trampolines.length := (List.getElem?_eq_some_iff.mp last).1
    unfold Added
    omega

end Fits

/-- The labels are used in front of the code that is still to be added. -/
def Placed (pc len : Nat) (registry : LabelRegistry) (code : BrTableCode) : Prop :=
  ∀ u ∈ registry.users, u.user < pc + 1 + code.branches.length ∨
    pc + 1 + len ≤ u.user ∧ u.user < pc + 1 + len + code.trampolines.length

/-- A placed table that grows is placed. -/
lemma Placed.grows (placed : Placed pc len registry code)
    (h : Grows pc len registry code registry' code') : Placed pc len registry' code' := by
  obtain ⟨us, eq, added⟩ := h.users
  have le := h.length_le
  intro u mem
  rw [eq] at mem
  rcases List.mem_append.mp mem with mem | mem
  · have before := placed u mem
    omega
  · have after := added u mem
    unfold Added at after
    omega

/-- No label is used yet where the next branch stands. -/
lemma Placed.free_branch (placed : Placed pc len registry code) (fits : 2 * k + 2 ≤ len)
    (filled : code.branches.length = 2 * k) : registry.Free (pc + 1 + 2 * k) := by
  intro u mem
  have before := placed u mem
  omega

/-- No label is waiting at the position of a trampoline that is still to come. -/
lemma Placed.free_trampoline (placed : Placed pc len registry code) (fits : code.branches.length ≤ len)
    (i : Nat) : registry.Free (pc + 1 + len + (code.trampolines.length + i)) := by
  intro u mem
  have before := placed u mem
  omega

/-- Code that is added behind the branches stands there. -/
lemma Behind.of_append {ops rest : List Opcode}
    (trampolines : code'.trampolines = code.trampolines ++ (ops ++ rest))
    (free : ∀ i, i < ops.length → registry.Free (pc + 1 + len + (code.trampolines.length + i))) :
    code'.Behind pc len registry code.trampolines.length ops := by
  intro i op found
  have lt : i < ops.length := (List.getElem?_eq_some_iff.mp found).1
  refine ⟨?_, free i lt⟩
  rw [trampolines, List.getElem?_append_right (Nat.le_add_right _ _), Nat.add_sub_cancel_left,
    List.getElem?_append_left lt, found]

end BrTableCode

open BrTableCode

variable {cx : Context} {t t' : InstructionTranslator} {len k : Nat} {code code' : BrTableCode}
  {target : AcquiredTarget}

/-- What encoding branches leaves of the state and of the table. -/
structure Tabled (len : Nat) (code : BrTableCode) (t : InstructionTranslator) (code' : BrTableCode)
    (t' : InstructionTranslator) : Prop where
  alike : t.Alike t'
  fuel : t'.fuelInstr = t.fuelInstr
  reachable : t'.reachable = t.reachable
  instructionSet : t'.instructionSet = t.instructionSet
  stackTypes : t'.stackTypes = t.stackTypes
  snippetCalls : t'.snippetCalls = t.snippetCalls
  grows : Grows t.currentPc len t.labels code t'.labels code'

/-- Encoding an entry emits nothing yet. -/
lemma Tabled.currentPc (h : Tabled len code t code' t') : t'.currentPc = t.currentPc :=
  congrArg List.length h.instructionSet

/-- Two entries encoded one after the other. -/
lemma Tabled.trans {t'' : InstructionTranslator} {code'' : BrTableCode} (h : Tabled len code t code' t')
    (h' : Tabled len code' t' code'' t'') : Tabled len code t code'' t'' where
  alike := h.alike.trans h'.alike
  fuel := h'.fuel.trans h.fuel
  reachable := h'.reachable.trans h.reachable
  instructionSet := h'.instructionSet.trans h.instructionSet
  stackTypes := h'.stackTypes.trans h.stackTypes
  snippetCalls := h'.snippetCalls.trans h.snippetCalls
  grows := h.grows.trans (h.currentPc ▸ h'.grows)

/-- Counting a branch to a frame leaves the table as it is. -/
lemma tabled_counted {depth : Nat} : Tabled len code t code (t.counted depth) where
  alike := alike_counted
  fuel := fuelInstr_counted
  reachable := rfl
  instructionSet := rfl
  stackTypes := rfl
  snippetCalls := rfl
  grows := .refl

/-- Recording the greatest height leaves the height. -/
lemma height_touch {dk : DropKeep} {h : ValueStackHeight} : (dk.touch h).height = h.height := by
  unfold DropKeep.touch
  split <;> rfl

/-- Code is added at both ends, and the labels it uses are used where it stands. -/
lemma Tabled.of_append {stackHeight : ValueStackHeight} {labels : LabelRegistry} {ops ops' : List Opcode}
    {us : List LabelUser} (height : stackHeight.height = t.stackHeight.height)
    (branches : code'.branches = code.branches ++ ops)
    (trampolines : code'.trampolines = code.trampolines ++ ops')
    (users : labels.users = t.labels.users ++ us) (same : labels.labels = t.labels.labels)
    (added : ∀ u ∈ us, Added t.currentPc len code code' u.user) :
    Tabled len code t code' { t with labels := labels, stackHeight := stackHeight } where
  alike := ⟨rfl, height, rfl⟩
  fuel := rfl
  reachable := rfl
  instructionSet := rfl
  stackTypes := rfl
  snippetCalls := rfl
  grows := ⟨⟨ops, branches⟩, ⟨ops', trampolines⟩, ⟨us, users, added⟩, same⟩

/-- A label is resolved, at the location that is given. -/
lemma resolved_users {registry registry' : LabelRegistry} {label loc : Nat} {offset : Int}
    (h : registry.tryResolveLabel label loc = .ok (offset, registry')) :
    ∃ us, registry'.users = registry.users ++ us ∧ registry'.labels = registry.labels ∧
      ∀ u ∈ us, u.user = loc := by
  rcases LabelRegistry.tryResolveLabel_ok h with ⟨target, -, -, rfl⟩ | ⟨-, rfl⟩
  · exact ⟨[], (List.append_nil _).symm, rfl, List.forall_mem_nil _⟩
  · refine ⟨_, rfl, rfl, ?_⟩
    intro u mem
    rw [List.mem_singleton.mp mem]

/-- A branch that is encoded does what its target says. -/
lemma encodeBrTableTarget_ok (fits : 2 * k + 2 ≤ len) (filled : code.branches.length = 2 * k)
    (h : encodeBrTableTarget target len code t = .ok (code', t')) :
    Tabled len code t code' t' ∧ code'.branches.length = 2 * (k + 1) ∧
      (Placed t.currentPc len t.labels code → Encoded t.currentPc len t'.labels code' k target) := by
  have short : code.branches.length ≤ len := by omega
  have first : ∀ op : Opcode, (code.branches ++ [op, ret])[2 * k]? = some op := by
    intro op
    rw [← filled, List.getElem?_append_right (Nat.le_refl _), Nat.sub_self]
    rfl
  have length : ∀ op : Opcode, (code.branches ++ [op, ret]).length = 2 * (k + 1) := by
    intro op
    rw [List.length_append, filled]
    rfl
  cases target with
  | ret dk =>
    simp only [encodeBrTableTarget] at h
    split at h
    next noop =>
      cases h
      refine ⟨.of_append rfl rfl (List.append_nil _).symm (List.append_nil _).symm rfl
        (List.forall_mem_nil _), length _, fun placed => ?_⟩
      exact .ret (beq_iff_eq.mp noop) (first _) (placed.free_branch fits filled)
    next shuffles =>
      cases h
      refine ⟨.of_append height_touch rfl (List.append_assoc _ _ _) (List.append_nil _).symm rfl
        (List.forall_mem_nil _), length _, fun placed => ?_⟩
      refine .retBehind (fun zero => shuffles (beq_iff_eq.mpr zero))
        (by rw [filled]; exact first _) (placed.free_branch fits filled) ?_
      refine @Behind.of_append _ _ _ _ _ _ [] ?_ fun i _ => placed.free_trampoline short i
      rw [List.append_nil, List.append_assoc]
  | branch label dk =>
    simp only [encodeBrTableTarget] at h
    split at h
    next noop =>
      obtain ⟨⟨offset, t₁⟩, h₁, h⟩ := Compile.bind_ok.mp h
      obtain ⟨labels, resolved, rfl⟩ := tryResolveLabelFor_ok h₁
      cases h
      rw [filled, show t.currentPc + (2 * k + 1) = t.currentPc + 1 + 2 * k by omega] at resolved
      obtain ⟨us, users, same, at'⟩ := resolved_users resolved
      refine ⟨.of_append rfl rfl (List.append_nil _).symm users same ?_, length _, fun placed => ?_⟩
      · intro u mem
        rw [at' u mem, Added, length]
        omega
      · exact .branch (beq_iff_eq.mp noop) (first _)
          (LabelRegistry.tryResolveLabel_leads resolved (placed.free_branch fits filled))
    next shuffles =>
      obtain ⟨⟨offset, t₁⟩, h₁, h⟩ := Compile.bind_ok.mp h
      obtain ⟨labels, resolved, rfl⟩ := tryResolveLabelFor_ok h₁
      cases h
      -- the branch is the last of the trampoline, and the table itself is in front of all branches
      have last : t.currentPc + (len + ((code.trampolines ++ dk.code).length + 1)) =
          t.currentPc + 1 + len + (code.trampolines.length + dk.code.length) := by
        rw [List.length_append]
        omega
      have resolved' : t.labels.tryResolveLabel label
          (t.currentPc + 1 + len + (code.trampolines.length + dk.code.length)) = .ok (offset, labels) :=
        last ▸ resolved
      obtain ⟨us, users, same, at'⟩ := resolved_users resolved'
      refine ⟨.of_append height_touch rfl (List.append_assoc _ _ _) users same ?_, length _, fun placed => ?_⟩
      · intro u mem
        have trampolines : (code.trampolines ++ dk.code ++ [br offset]).length =
            code.trampolines.length + dk.code.length + 1 := by
          rw [List.length_append, List.length_append, List.length_singleton]
        rw [at' u mem, Added, trampolines]
        omega
      · refine .branchBehind (fun zero => shuffles (beq_iff_eq.mpr zero))
          (by rw [filled]; exact first _) ?_ (.of_append (List.append_assoc _ _ _) ?_) ?_
          (LabelRegistry.tryResolveLabel_leads resolved' (placed.free_trampoline short _))
        · refine (placed.free_branch fits filled).append users fun u mem => ?_
          rw [at' u mem]
          omega
        · intro i lt
          refine (placed.free_trampoline short i).append users fun u mem => ?_
          rw [at' u mem]
          omega
        · dsimp only
          rw [← List.length_append, List.getElem?_append_right (Nat.le_refl _), Nat.sub_self]
          rfl

/-- A table that is encoded does what the targets of its branches say. -/
theorem encodeBrTable_ok {depths : List Nat} (fits : 2 * (k + depths.length) ≤ len)
    (filled : code.branches.length = 2 * k) (h : encodeBrTable cx len depths code t = .ok (code', t')) :
    Tabled len code t code' t' ∧ code'.branches.length = 2 * (k + depths.length) ∧
      ∀ (i depth : Nat), depths[i]? = some depth →
        t.controlFrames[depth]?.map ControlFrame.isReachable = some true ∧
        ∃ target, t.acquireTarget cx depth = .ok target ∧
          (Placed t.currentPc len t.labels code →
            Encoded t.currentPc len t'.labels code' (k + i) target) := by
  induction depths generalizing k code t with
  | nil =>
    cases h
    refine ⟨⟨⟨rfl, rfl, rfl⟩, rfl, rfl, rfl, rfl, rfl, .refl⟩, filled, ?_⟩
    rintro i depth ⟨⟩
  | cons depth depths ih =>
    simp only [encodeBrTable, Compile.bind_ok] at h
    obtain ⟨t₁, h₁, target, acquired, ⟨code₂, t₂⟩, h₂, h⟩ := h
    obtain ⟨frame, found, live, rfl⟩ := addBranch_ok h₁
    rw [List.length_cons] at fits ⊢
    have counts : Tabled len code t code (t.counted depth) := tabled_counted
    obtain ⟨tabled, filled₂, encoded⟩ := encodeBrTableTarget_ok (by omega) filled h₂
    have step := counts.trans tabled
    obtain ⟨rest, filled', others⟩ := ih (by omega) filled₂ h
    refine ⟨step.trans rest, by omega, ?_⟩
    intro i d there
    cases i with
    | zero =>
      -- the first branch is encoded here, and the others only add to the table
      cases there
      refine ⟨by rw [found, Option.map_some, live], target, ?_, fun placed => ?_⟩
      · rw [← counts.alike.acquireTarget, acquired]
      · exact (encoded placed).grows (by omega) (step.currentPc ▸ rest.grows)
    | succ i =>
      obtain ⟨live', target', acquired', encoded'⟩ := others i d there
      refine ⟨?_, target', ?_, fun placed => ?_⟩
      · rw [← step.alike.isReachable, live']
      · rw [← step.alike.acquireTarget, acquired']
      · have at' := encoded' (step.currentPc ▸ placed.grows step.grows)
        rw [step.currentPc, Nat.add_right_comm] at at'
        exact at'

/-- The state in front of a branch table. -/
def tabling (cx : Context) (t : InstructionTranslator) : InstructionTranslator :=
  { t.conditioned with instructionSet := cx.charged cx.costs.base t.fuelInstr t.instructionSet }

/-- Preparing the table emits nothing. -/
@[simp] lemma currentPc_tabling : (t.tabling cx).currentPc = t.currentPc :=
  Context.length_charged

/-- The table stands behind the instruction that reads it. -/
lemma visitBrTable_ok {targets : List Nat} {default : Nat} (r : t.reachable = true)
    (h : t.visitBrTable cx targets default = .ok t') :
    1 ≤ t.stackHeight.height ∧ t.stackTypes ≠ [] ∧ targets.length + 1 < 2 ^ 32 ∧
      ∃ code t₁, Tabled (2 * (targets.length + 1)) {} (t.tabling cx) code t₁ ∧
        code.branches.length = 2 * (targets.length + 1) ∧
        (∀ (i depth : Nat), (targets ++ [default])[i]? = some depth →
          t.controlFrames[depth]?.map ControlFrame.isReachable = some true ∧
          ∃ target, t.conditioned.acquireTarget cx depth = .ok target ∧
            (t.skeleton.Inside →
              Encoded t.currentPc (2 * (targets.length + 1)) t₁.labels code i target)) ∧
        t' = { t₁ with
          reachable := false
          instructionSet := t₁.instructionSet ++
            brTable (targets.length + 1) :: (code.branches ++ code.trampolines) } := by
  simp only [visitBrTable, translateIfReachable, r, if_true, Compile.bind_ok, Prod.exists] at h
  obtain ⟨t₁, h₁, t₂, h₂, popped, t₃, h₃, code, t₄, h₄, h⟩ := h
  obtain rfl := bumpFuelConsumption_ok h₁
  obtain ⟨le, rfl⟩ := popN_ok h₂
  obtain ⟨types, hs, rfl⟩ := popType_ok h₃
  have some : t.stackTypes = popped :: types := hs
  have eq : ({ t with
      instructionSet := cx.charged cx.costs.base t.fuelInstr t.instructionSet
      stackTypes := types
      stackHeight := { t.stackHeight with height := t.stackHeight.height - 1 } } : InstructionTranslator) =
      t.tabling cx := by
    rw [tabling, conditioned, some]
    rfl
  have encoded : encodeBrTable cx (2 * (targets.length + 1)) (targets ++ [default]) {} (t.tabling cx) =
      .ok (code, t₄) := by
    rw [← eq, Nat.mul_comm]
    exact h₄
  have count : (targets ++ [default]).length = targets.length + 1 := List.length_append
  split at h
  next fits =>
    cases h
    obtain ⟨tabled, length, entries⟩ := @encodeBrTable_ok _ _ _ _ 0 _ _ _
      (by rw [count, Nat.zero_add]) rfl encoded
    refine ⟨le, by rw [some]; exact List.cons_ne_nil _ _, fits, code, t₄, tabled, ?_, ?_, ?_⟩
    · rw [length, count, Nat.zero_add]
    · intro i depth there
      obtain ⟨live, target, acquired, at'⟩ := entries i depth there
      refine ⟨live, target, acquired, fun inside => ?_⟩
      rw [Nat.zero_add, currentPc_tabling] at at'
      -- what is used in front of the table is used in code that is there
      refine at' fun u mem => ?_
      have lt : u.user < t.currentPc := inside u.user (.inl ⟨u, mem, rfl⟩)
      omega
    · rw [List.singleton_append, List.cons_append]
      rfl
  · cases h

end InstructionTranslator

end Rwasm
