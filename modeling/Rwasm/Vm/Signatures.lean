import Rwasm.Vm.Fuel
import Rwasm.Vm.Interruption

/-!
# Pending signatures

An indirect call leaves the signature it expects in the store, and the signature check at the beginning of
the callee takes it. In between it is pending: where every indirect call finds an address at which such a
check stands, nothing is pending anywhere else.
-/

namespace Rwasm

variable {T : Type}

/-- An indirect call, or one in tail position. -/
def Opcode.indirect (tail : Bool) (signature : Nat) : Opcode :=
  if tail then returnCallIndirect signature else callIndirect signature

namespace Executor

variable {m : RwasmModule} {host : Host T} {e e' : Executor T} {A : Nat → Prop}

/-- Where the next instruction is an indirect call, it goes to one of the addresses `A`, unless it traps. -/
def FindsIn (m : RwasmModule) (A : Nat → Prop) (e : Executor T) : Prop :=
  ∀ signature func e',
    m.codeSection[e.ip]? = some (.callIndirect signature) ∨
      m.codeSection[e.ip]? = some (.returnCallIndirect signature) →
    e.resolveIndirect m signature = some (.ok func, e') → A func.toNat

/-- A signature is pending at the addresses `A` only. -/
def PendingIn (A : Nat → Prop) (e : Executor T) : Prop :=
  e.store.lastSignature = none ∨ A e.ip

/-- Each of the addresses holds a signature check. -/
def Checked (m : RwasmModule) (A : Nat → Prop) : Prop :=
  ∀ a, A a → ∃ signature, m.codeSection[a]? = some (.signatureCheck signature)

/-- At any other instruction nothing is pending. -/
lemma PendingIn.idle (pending : e.PendingIn A) (checked : Checked m A) {op : Opcode}
    (code : m.codeSection[e.ip]? = some op) (other : ∀ signature, op ≠ .signatureCheck signature) :
    e.store.lastSignature = none := by
  rcases pending with idle | here
  · exact idle
  · obtain ⟨signature, check⟩ := checked e.ip here
    exact absurd (Option.some.inj (code.symm.trans check)) (other signature)

/-- A step leaves a signature pending only when it is an indirect call. -/
lemma lastSignature_step {op : Opcode} (next : e.step m host op = .next e')
    (direct : ∀ signature, op ≠ .callIndirect signature ∧ op ≠ .returnCallIndirect signature)
    (idle : e.store.lastSignature = none) : e'.store.lastSignature = none := by
  have frame := step_frame next
  cases op
  case callIndirect signature => exact absurd rfl (direct signature).1
  case returnCallIndirect signature => exact absurd rfl (direct signature).2
  all_goals simp only [Frame] at frame
  all_goals rw [frame]
  all_goals exact idle

/-- An indirect call goes to the address it finds. -/
lemma FindsIn.step {op : Opcode} {signature : Nat} (finds : e.FindsIn m A)
    (code : m.codeSection[e.ip]? = some op) (next : e.step m host op = .next e')
    (indirect : op = .callIndirect signature ∨ op = .returnCallIndirect signature) : A e'.ip := by
  rcases indirect with rfl | rfl
  · simp only [Executor.step, visitCallIndirect] at next
    split at next
    · cases next
    · cases next
    next resolved =>
      split at next
      · cases next
      · cases next
        exact finds _ _ _ (.inl code) resolved
  · simp only [Executor.step, visitReturnCallIndirect] at next
    split at next
    · cases next
    · cases next
    next resolved =>
      cases next
      exact finds _ _ _ (.inr code) resolved

/-- What a step preserves. -/
lemma PendingIn.step (pending : e.PendingIn A) (checked : Checked m A) (finds : e.FindsIn m A)
    (next : (vm m host).step e = .next e') : e'.PendingIn A := by
  simp only [vm] at next
  split at next
  next op code =>
    by_cases indirect : ∃ signature, op = .callIndirect signature ∨ op = .returnCallIndirect signature
    · obtain ⟨signature, indirect⟩ := indirect
      exact .inr (finds.step code next indirect)
    · have direct : ∀ signature, op ≠ .callIndirect signature ∧ op ≠ .returnCallIndirect signature :=
        fun signature => not_or.mp fun is => indirect ⟨signature, is⟩
      by_cases check : ∃ signature, op = .signatureCheck signature
      · obtain ⟨signature, rfl⟩ := check
        have frame := step_frame next
        simp only [Frame] at frame
        rw [frame]
        exact .inl rfl
      · have idle := pending.idle checked code fun signature is => check ⟨signature, is⟩
        exact .inl (lastSignature_step next direct idle)
  · cases next

/-- A run each of whose indirect calls goes to one of the addresses `A`, or traps. -/
def RunsIn (m : RwasmModule) (host : Host T) (A : Nat → Prop) : Executor T → Executor T → Prop :=
  Relation.ReflTransGen fun e e' => e.FindsIn m A ∧ (vm m host).step e = .next e'

/-- What a run preserves. -/
lemma RunsIn.pendingIn (run : RunsIn m host A e e') (checked : Checked m A)
    (start : e.store.lastSignature = none) : e'.PendingIn A := by
  induction run with
  | refl => exact .inl start
  | tail _ step ih => exact ih.step checked step.1 step.2

/-- Nothing is pending where the host interrupts a run. -/
lemma lastSignature_interrupted {op : Opcode}
    (trap : e.step m host op = .halt (.trapped .interruptionCalled e'))
    (idle : (∀ signature, op ≠ .signatureCheck signature) → e.store.lastSignature = none) :
    e'.store.lastSignature = none := by
  have frame := step_stop trap
  -- only calls to the host and the trap itself interrupt
  rcases step_interrupted trap with rfl | ⟨func, rfl | rfl, -⟩
  all_goals
    simp only [StopFrame] at frame
    rw [frame]
    apply idle
    intro signature check
    cases check

/-- What a run leaves for the next one: nothing is pending, however it ends. -/
lemma PendingIn.settled (pending : e.PendingIn A) (checked : Checked m A) {exit : Exit T}
    {result : List Value} {store : Store T} (halt : (vm m host).step e = .halt exit)
    (left : (settle m exit result).store = some store) : store.lastSignature = none := by
  simp only [vm] at halt
  split at halt
  next op code =>
    have idle : (∀ signature, op ≠ .signatureCheck signature) → e.store.lastSignature = none :=
      pending.idle checked code
    cases exit with
    | undefined => cases left
    | returned e' =>
      obtain ⟨rfl, rfl⟩ := step_stop halt
      simp only [settle] at left
      split at left
      · cases left
        refine idle fun signature check => ?_
        cases check
      · cases left
    | trapped code e' =>
      by_cases interrupted : code = .interruptionCalled
      · subst interrupted
        cases left
        exact lastSignature_interrupted halt idle
      · by_cases halted : code = .executionHalted
        · subst halted
          cases left
          rfl
        · have out : settle m (.trapped code e') result =
              .err code { e'.store with lastSignature := none } := by
            cases code <;> first | exact absurd rfl interrupted | exact absurd rfl halted | rfl
          rw [out] at left
          cases left
          rfl
  · cases halt
    cases left

/-! ## An indirect call -/

section Indirect

variable {tail : Bool} {signature table : Nat} {k : UntypedValue} {below : List UntypedValue}
  {entity : TableEntity}

/-- What the lookup of a callee finds. -/
lemma resolveIndirect_eq (signature : Nat) (named : m.codeSection[e.ip + 1]? = some (.tableGet table))
    (stack : e.valueStack = k :: below) (there : e.store.tables table = some entity) :
    ∃ e₁ : Executor T, e₁.store.lastSignature = some signature ∧ e₁.callStack = e.callStack ∧
      e.resolveIndirect m signature = some (match entity.getUntyped k.toNat with
        | none => (.error .tableOutOfBounds, e₁)
        | some func =>
          if func = NULL_FUNC_IDX then (.error .indirectCallToNull, e₁) else (.ok func, e₁)) := by
  refine ⟨{ e with
    valueStack := below
    store := { e.store with lastSignature := some signature } }, rfl, rfl, ?_⟩
  have table : e.fetchTableIndex m = some table := by rw [fetchTableIndex, named]
  simp only [resolveIndirect, table, stack, there]
  cases entity.getUntyped k.toNat with
  | none => rfl
  | some func =>
    dsimp only
    split <;> rfl

/-- An indirect call stands there, and its table behind it. -/
def Indirect (m : RwasmModule) (i : Nat) (tail : Bool) (signature table : Nat) : Prop :=
  m.codeSection[i]? = some (.indirect tail signature) ∧ m.codeSection[i + 1]? = some (.tableGet table)

/-- The slot is not there. -/
lemma Indirect.outOfBounds (host : Host T) (call : Indirect m e.ip tail signature table)
    (stack : e.valueStack = k :: below) (there : e.store.tables table = some entity)
    (none : entity.getUntyped k.toNat = none) :
    ∃ e', (vm m host).step e = .halt (.trapped .tableOutOfBounds e') := by
  obtain ⟨e₁, -, -, found⟩ := resolveIndirect_eq signature call.2 stack there
  rw [none] at found
  refine ⟨e₁, ?_⟩
  cases tail
  all_goals simp only [vm, call.1]
  all_goals simp only [Opcode.indirect, Bool.false_eq_true, if_false, if_true, Executor.step, visitCallIndirect,
    visitReturnCallIndirect, found]

/-- The slot is null. -/
lemma Indirect.null (host : Host T) (call : Indirect m e.ip tail signature table)
    (stack : e.valueStack = k :: below) (there : e.store.tables table = some entity)
    (null : entity.getUntyped k.toNat = some NULL_FUNC_IDX) :
    ∃ e', (vm m host).step e = .halt (.trapped .indirectCallToNull e') := by
  obtain ⟨e₁, -, -, found⟩ := resolveIndirect_eq signature call.2 stack there
  simp only [null, if_true] at found
  refine ⟨e₁, ?_⟩
  cases tail
  all_goals simp only [vm, call.1]
  all_goals simp only [Opcode.indirect, Bool.false_eq_true, if_false, if_true, Executor.step, visitCallIndirect,
    visitReturnCallIndirect, found]

/-- The slot holds an address: the call goes there, with the signature that it expects. -/
lemma Indirect.arrives (host : Host T) (call : Indirect m e.ip tail signature table)
    (stack : e.valueStack = k :: below) (there : e.store.tables table = some entity) {func : UntypedValue}
    (holds : entity.getUntyped k.toNat = some func) (known : func ≠ NULL_FUNC_IDX)
    (room : tail = true ∨ e.callStack.length < N_MAX_RECURSION_DEPTH) :
    ∃ e', (vm m host).step e = .next e' ∧ e'.ip = func.toNat ∧ e'.store.lastSignature = some signature := by
  obtain ⟨e₁, pending, calls, found⟩ := resolveIndirect_eq signature call.2 stack there
  simp only [holds, known, if_false] at found
  cases tail with
  | true =>
    refine ⟨{ e₁ with ip := func.toNat }, ?_, rfl, pending⟩
    simp only [vm, call.1]
    simp only [Opcode.indirect, if_true, Executor.step, visitReturnCallIndirect, found]
  | false =>
    have free : ¬ N_MAX_RECURSION_DEPTH ≤ e₁.callStack.length := by
      rw [calls]
      exact Nat.not_le.mpr (room.resolve_left Bool.false_ne_true)
    refine ⟨{ e₁ with ip := func.toNat, callStack := (e₁.ip + 2) :: e₁.callStack }, ?_, rfl, pending⟩
    simp only [vm, call.1]
    simp only [Opcode.indirect, Bool.false_eq_true, if_false, Executor.step, visitCallIndirect, found,
      free]

/-- In a run that finds functions, it does so. -/
lemma Indirect.finds (call : Indirect m e.ip tail signature table) (finds : e.FindsIn m A)
    (stack : e.valueStack = k :: below) (there : e.store.tables table = some entity) {func : UntypedValue}
    (holds : entity.getUntyped k.toNat = some func) (known : func ≠ NULL_FUNC_IDX) : A func.toNat := by
  obtain ⟨e₁, -, -, found⟩ := resolveIndirect_eq signature call.2 stack there
  simp only [holds, known, if_false] at found
  refine finds signature func e₁ ?_ found
  rw [call.1]
  cases tail with
  | true => exact .inr rfl
  | false => exact .inl rfl

end Indirect

/-- A check where nothing is pending goes on. -/
lemma check_idle (host : Host T) {signature : Nat}
    (code : m.codeSection[e.ip]? = some (.signatureCheck signature)) (idle : e.store.lastSignature = none) :
    ∃ e', (vm m host).step e = .next e' ∧ e'.ip = e.ip + 1 ∧ e'.store.lastSignature = none := by
  simp only [vm, code]
  simp only [Executor.step, visitSignatureCheck, idle]
  exact ⟨_, rfl, rfl, rfl⟩

/-- A check of the signature that is pending goes on, and takes it. -/
lemma check_same (host : Host T) {signature : Nat}
    (code : m.codeSection[e.ip]? = some (.signatureCheck signature))
    (pending : e.store.lastSignature = some signature) :
    ∃ e', (vm m host).step e = .next e' ∧ e'.ip = e.ip + 1 ∧ e'.store.lastSignature = none := by
  simp only [vm, code]
  simp only [Executor.step, visitSignatureCheck, pending, if_true]
  exact ⟨_, rfl, rfl, rfl⟩

/-- A check of another one traps. -/
lemma check_other (host : Host T) {signature signature' : Nat}
    (code : m.codeSection[e.ip]? = some (.signatureCheck signature))
    (pending : e.store.lastSignature = some signature') (other : signature' ≠ signature) :
    ∃ e', (vm m host).step e = .halt (.trapped .badSignature e') := by
  simp only [vm, code]
  simp only [Executor.step, visitSignatureCheck, pending, other, if_false]
  exact ⟨_, rfl⟩

end Executor

end Rwasm
