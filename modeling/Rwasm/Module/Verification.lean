import Rwasm.Vm.Step

/-!
# Verification

`RwasmModule::verify` (`module/verification.rs`), one check for each opcode with an immediate that
names something.
-/

namespace Rwasm

/-- The limits on the indices of segments and tables. -/
def N_MAX_DATA_SEGMENTS : Nat := 100000

/-- The limit on the indices of element segments. -/
def N_MAX_ELEM_SEGMENTS : Nat := 100000

/-- The limit on the indices of tables. -/
def N_MAX_TABLES : Nat := 100

/-- The findings of the verifier (`RwasmModuleVerificationError`). -/
inductive RwasmModuleVerificationError where
  | emptyCodeSection
  | sourcePcOutOfBounds (sourcePc codeLen : Nat)
  | branchTargetOutOfBounds (pc : Nat) (offset : Int) (codeLen : Nat)
  | zeroBranchOffset (pc : Nat)
  | branchTableTargetsOutOfBounds (pc targets codeLen : Nat)
  | callTargetOutOfBounds (pc target codeLen : Nat)
  | elementTargetOutOfBounds (index target codeLen : Nat)
  | localDepthOutOfBounds (pc depth : Nat)
  | dataSegmentOutOfBounds (pc segment : Nat)
  | elementSegmentOutOfBounds (pc segment : Nat)
  | tableIndexOutOfBounds (pc table : Nat)
  | missingTableIndexPayload (pc : Nat)
  | invalidTableIndexPayload (pc : Nat)
  deriving DecidableEq

/-- The result of a check. -/
abbrev Verify := Except RwasmModuleVerificationError Unit

/-- `verify_branch_target`. -/
def verifyBranchTarget (codeLen pc : Nat) (offset : Int) : Verify :=
  if offset = 0 then
    .error (.zeroBranchOffset pc)
  else if (pc : Int) + offset < 0 ∨ codeLen ≤ ((pc : Int) + offset).toNat then
    .error (.branchTargetOutOfBounds pc offset codeLen)
  else
    .ok ()

/-- `verify_branch_table`. -/
def verifyBranchTable (codeLen pc targets : Nat) : Verify :=
  if targets = 0 then
    .error (.branchTableTargetsOutOfBounds pc targets codeLen)
  else if codeLen ≤ pc + targets * 2 then
    .error (.branchTableTargetsOutOfBounds pc targets codeLen)
  else
    .ok ()

/-- `verify_code_target`. -/
def verifyCodeTarget (codeLen pc target : Nat) : Verify :=
  if codeLen ≤ target then .error (.callTargetOutOfBounds pc target codeLen) else .ok ()

/-- `verify_table_index`. -/
def verifyTableIndex (pc table : Nat) : Verify :=
  if N_MAX_TABLES ≤ table then .error (.tableIndexOutOfBounds pc table) else .ok ()

/-- `verify_table_index_payload`. -/
def verifyTableIndexPayload (code : List Opcode) (pc : Nat) : Verify :=
  match code[pc + 1]? with
  | none => .error (.missingTableIndexPayload pc)
  | some (.tableGet table) => verifyTableIndex pc table
  | some _ => .error (.invalidTableIndexPayload pc)

/-- `verify_opcode`. -/
def verifyOpcode (code : List Opcode) (pc : Nat) (op : Opcode) : Verify :=
  match op with
  | .br offset | .brIfEqz offset | .brIfNez offset => verifyBranchTarget code.length pc offset
  | .brTable targets => verifyBranchTable code.length pc targets
  | .callInternal target | .returnCallInternal target => verifyCodeTarget code.length pc target
  | .refFunc target => if target = 0 then .ok () else verifyCodeTarget code.length pc target
  | .callIndirect _ | .returnCallIndirect _ => verifyTableIndexPayload code pc
  | .localGet depth | .localSet depth | .localTee depth =>
    if depth = 0 then .error (.localDepthOutOfBounds pc depth) else .ok ()
  | .memoryInit segment | .dataDrop segment =>
    if N_MAX_DATA_SEGMENTS ≤ segment then .error (.dataSegmentOutOfBounds pc segment) else .ok ()
  | .tableInit segment =>
    if N_MAX_ELEM_SEGMENTS ≤ segment then .error (.elementSegmentOutOfBounds pc segment)
    else verifyTableIndexPayload code pc
  | .elemDrop segment =>
    if N_MAX_ELEM_SEGMENTS ≤ segment then .error (.elementSegmentOutOfBounds pc segment) else .ok ()
  | .tableSize table | .tableGrow table | .tableFill table | .tableGet table | .tableSet table =>
    verifyTableIndex pc table
  | .tableCopy dst src => do
    verifyTableIndex pc dst
    verifyTableIndex pc src
  | _ => .ok ()

/-- Checks the targets of the element section from an index on. -/
def verifyElements (codeLen : Nat) : Nat → List UntypedValue → Verify
  | _, [] => .ok ()
  | index, target :: elements =>
    if target ≠ 0 ∧ codeLen ≤ target.toNat then
      .error (.elementTargetOutOfBounds index target.toNat codeLen)
    else
      verifyElements codeLen (index + 1) elements

/-- Checks the opcodes from a position on. -/
def verifyOpcodes (code : List Opcode) : Nat → List Opcode → Verify
  | _, [] => .ok ()
  | pc, op :: ops => do
    verifyOpcode code pc op
    verifyOpcodes code (pc + 1) ops

/-- `verify_module`. -/
def RwasmModule.verify (m : RwasmModule) : Verify :=
  if m.codeSection.length = 0 then
    .error .emptyCodeSection
  else if m.codeSection.length ≤ m.sourcePc then
    .error (.sourcePcOutOfBounds m.sourcePc m.codeSection.length)
  else do
    verifyElements m.codeSection.length 0 m.elemSection
    verifyOpcodes m.codeSection 0 m.codeSection

/-- What a verified module satisfies. -/
structure RwasmModule.Verified (m : RwasmModule) : Prop where
  sourcePc : m.sourcePc < m.codeSection.length
  elements : ∀ target ∈ m.elemSection, target = 0 ∨ target.toNat < m.codeSection.length
  opcodes : ∀ pc op, m.codeSection[pc]? = some op → verifyOpcode m.codeSection pc op = .ok ()

/-- The elements are accepted when each is null or inside the code. -/
lemma verifyElements_ok_iff {codeLen index : Nat} {elements : List UntypedValue} :
    verifyElements codeLen index elements = .ok () ↔
      ∀ target ∈ elements, target = 0 ∨ target.toNat < codeLen := by
  induction elements generalizing index with
  | nil => exact iff_of_true rfl nofun
  | cons target elements ih =>
    rw [verifyElements, List.forall_mem_cons]
    split_ifs with outside
    · refine iff_of_false nofun fun h => h.1.elim outside.1 ?_
      exact Nat.not_lt.mpr outside.2
    · have inside : target = 0 ∨ target.toNat < codeLen := by
        rcases eq_or_ne target 0 with null | ne
        · exact .inl null
        · exact .inr (Nat.lt_of_not_le fun le => outside ⟨ne, le⟩)
      exact ih.trans (and_iff_right inside).symm

/-- The code is accepted when each of its opcodes is. -/
lemma verifyOpcodes_ok_iff {code ops : List Opcode} {pc : Nat} :
    verifyOpcodes code pc ops = .ok () ↔
      ∀ (i : Nat) (op : Opcode), ops[i]? = some op → verifyOpcode code (pc + i) op = .ok () := by
  induction ops generalizing pc with
  | nil => exact iff_of_true rfl fun i op h => by simp at h
  | cons op ops ih =>
    rw [verifyOpcodes]
    cases first : verifyOpcode code pc op with
    | error e =>
      refine iff_of_false nofun fun h => ?_
      cases first.symm.trans (h 0 op rfl)
    | ok =>
      refine ih.trans ⟨fun h => ?_, fun h i op' at' => ?_⟩
      · rintro (_ | i) op' at'
        · cases at'
          exact first
        · rw [← h i op' at', Nat.add_assoc, Nat.add_comm 1 i]
      · rw [← h (i + 1) op' at', Nat.add_assoc, Nat.add_comm 1 i]

/-- The verifier accepts the modules that satisfy its checks. -/
lemma RwasmModule.verify_ok_iff (m : RwasmModule) : m.verify = .ok () ↔ m.Verified := by
  rw [verify]
  split_ifs with empty beyond
  · refine iff_of_false nofun fun h => ?_
    have := h.sourcePc
    omega
  · exact iff_of_false nofun fun h => Nat.not_lt.mpr beyond h.sourcePc
  · cases elements : verifyElements m.codeSection.length 0 m.elemSection with
    | error e =>
      refine iff_of_false nofun fun h => ?_
      rw [verifyElements_ok_iff.mpr h.elements] at elements
      cases elements
    | ok =>
      refine verifyOpcodes_ok_iff.trans ⟨fun h => ⟨by omega, verifyElements_ok_iff.mp elements, ?_⟩, ?_⟩
      · exact fun pc op at' => by simpa using h pc op at'
      · exact fun h pc op at' => by simpa using h.opcodes pc op at'

end Rwasm
