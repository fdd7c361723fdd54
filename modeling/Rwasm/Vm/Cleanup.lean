import Rwasm.Vm.Interruption

/-!
# Cleaning up after a trap

`RwasmExecutor::run` and `RwasmExecutor::run_with_stack_check` drive the same loop on a value stack
and a call stack that belong to their caller. Both mean to leave these stacks empty, and no pending
signature, when the loop ends with a trap. `run` leaves early when its parameters do not fit, and in
`run_with_stack_check` a `?` inside of the loop leaves the function before its cleanup is reached.

The value stack keeps a length of its own (`ValueStack::stack_ptr`) that is synchronized with the
stack pointer of the executor by some instructions only; a later call starts from that length.
-/

namespace Rwasm

variable {T : Type} {m : RwasmModule} {host : Host T}

/-- An executor in the loop, next to the length its value stack keeps for itself. -/
structure Running (T : Type) where
  executor : Executor T
  stackPtr : Nat

/-- The stacks and the store as a run leaves them: the slots below the stack pointer of the
executor, and the length the value stack keeps for itself. -/
structure Leftover (T : Type) where
  slots : List UntypedValue
  stackPtr : Nat
  capacity : Nat
  callStack : List Nat
  store : Store T

/-- The two functions that drive the loop. -/
inductive RunMode where
  | run (params result : List Value)
  | runWithStackCheck

namespace Executor

variable {e e' : Executor T} {op : Opcode}

/-- The length the value stack keeps after an instruction: returns, calls and stack checks
synchronize it, an indirect call does once its callee is found. -/
def syncStackPtr (m : RwasmModule) (op : Opcode) (e : Executor T) (stackPtr : Nat) : Nat :=
  match op with
  | .ret | .returnCallInternal _ | .callInternal _ | .returnCall _ | .call _ | .stackCheck _ =>
    e.valueStack.length
  | .returnCallIndirect signature | .callIndirect signature =>
    match e.resolveIndirect m signature with
    | some (.ok _, e) => e.valueStack.length
    | _ => stackPtr
  | _ => stackPtr

/-- The pending signature a trap in an instruction leaves: an indirect call has set it, a check has
taken it. -/
def signatureAtTrap (op : Opcode) (e : Executor T) : Option Nat :=
  match op with
  | .returnCallIndirect signature | .callIndirect signature => some signature
  | .signatureCheck _ => none
  | _ => e.store.lastSignature

/-- What an executor leaves as it is. -/
def leftover (e : Executor T) (stackPtr : Nat) : Leftover T where
  slots := e.valueStack
  stackPtr := stackPtr
  capacity := e.capacity
  callStack := e.callStack
  store := e.store

end Executor

namespace Leftover

/-- `ValueStack::reset`, `CallStack::reset` and the removal of the pending signature. -/
def reset (l : Leftover T) : Leftover T :=
  { l with stackPtr := 0, callStack := [], store := { l.store with lastSignature := none } }

/-- Both stacks are empty and no signature is pending. -/
structure Clean (l : Leftover T) : Prop where
  stackPtr : l.stackPtr = 0
  callStack : l.callStack = []
  lastSignature : l.store.lastSignature = none

/-- The executor of a later call on what is left. The slots above the old stack pointer hold values
that are no longer known. -/
def executor (l : Leftover T) (ip : Nat) : Option (Executor T) :=
  if l.stackPtr ≤ l.slots.length then
    some
      { valueStack := l.slots.drop (l.slots.length - l.stackPtr)
        capacity := l.capacity
        callStack := l.callStack
        ip := ip
        store := l.store }
  else
    none

end Leftover

/-- Two outcomes that differ in the reserved slots only. -/
def Outcome.Alike : Outcome T → Outcome T → Prop
  | .interrupted store context, .interrupted store' context' =>
    store' = store ∧ context' = { context with capacity := context'.capacity }
  | out, out' => out' = out

/-- Every later call behaves as it does with fresh stacks. -/
def Leftover.LikeFresh (l : Leftover T) : Prop :=
  ∀ ip, ∃ e, l.executor ip = some e ∧ ∀ m host params result,
    (∀ out, e.Run m host params result out →
      ∃ out', (Executor.fresh l.store ip).Run m host params result out' ∧ out.Alike out') ∧
    ∀ out, (Executor.fresh l.store ip).Run m host params result out →
      ∃ out', e.Run m host params result out' ∧ out.Alike out'

/-- The loop of `run_the_loop`, which `run_with_stack_check` repeats. -/
def loop (m : RwasmModule) (host : Host T) : Machine (Running T) (Exit T × Nat) where
  step r :=
    match m.codeSection[r.executor.ip]? with
    | some op =>
      match r.executor.step m host op with
      | .next e => .next ⟨e, r.executor.syncStackPtr m op r.stackPtr⟩
      | .halt exit => .halt (exit, r.executor.syncStackPtr m op r.stackPtr)
    | none => .halt (.undefined, r.stackPtr)

/-- What `run` leaves after the loop, and the trap the loop ended with. -/
def runLeaves (result : List Value) (exit : Exit T) (stackPtr : Nat) :
    Option (Option TrapCode × Leftover T) :=
  match exit with
  | .trapped .interruptionCalled e =>
    some (some .interruptionCalled, e.leftover e.valueStack.length)
  | .trapped code e => some (some code, (e.leftover stackPtr).reset)
  | .returned e =>
    (popValues (result.map Value.ty).reverse e.valueStack).map fun (_, stack) =>
      (none, ({ e with valueStack := stack } : Executor T).leftover stack.length)
  | .undefined => none

/-- What `run_with_stack_check` leaves: a trap is returned from inside of the loop, the code after
it only sees the end of the function. -/
def runWithStackCheckLeaves (exit : Exit T) (stackPtr : Nat) :
    Option (Option TrapCode × Leftover T) :=
  match exit with
  | .trapped code e => some (some code, e.leftover stackPtr)
  | .returned e => some (none, { (e.leftover stackPtr).reset with stackPtr := e.valueStack.length })
  | .undefined => none

/-- `RwasmExecutor::run` and `RwasmExecutor::run_with_stack_check`, with the trap that ended the run
and what it leaves. -/
def Leaves (m : RwasmModule) (host : Host T) (r : Running T) (mode : RunMode)
    (trap : Option TrapCode) (l : Leftover T) : Prop :=
  match mode with
  | .run params result =>
    match r.executor.pushParams params with
    | none => trap = some .stackOverflow ∧ l = r.executor.leftover r.executor.valueStack.length
    | some e => ∃ exit stackPtr,
      (loop m host).Halts ⟨e, r.executor.valueStack.length⟩ (exit, stackPtr) ∧
        runLeaves result exit stackPtr = some (trap, l)
  | .runWithStackCheck => ∃ exit stackPtr,
    (loop m host).Halts r (exit, stackPtr) ∧ runWithStackCheckLeaves exit stackPtr = some (trap, l)

/-- A run that ends in a trap leaves the stacks empty and no signature pending, and later calls
behave as with fresh stacks. -/
def CleansUp (m : RwasmModule) (host : Host T) (r : Running T) (mode : RunMode) : Prop :=
  ∀ code l, Leaves m host r mode (some code) l → code ≠ .interruptionCalled →
    l.Clean ∧ l.LikeFresh

/-- The stacks and the signature before an instruction are such that a trap in it leaves nothing. -/
def Running.Idle (m : RwasmModule) (op : Opcode) (r : Running T) : Prop :=
  r.executor.syncStackPtr m op r.stackPtr = 0 ∧ r.executor.callStack = [] ∧
    r.executor.signatureAtTrap op = none

/-- For `run`: the parameters fit, or there was nothing to clean. For `run_with_stack_check`: an
instruction that traps is only executed when nothing would be left of it. -/
def CleanupCondition (m : RwasmModule) (host : Host T) (r : Running T) (mode : RunMode) : Prop :=
  match mode with
  | .run params _ =>
    r.executor.valueStack.length + slotCount (params.map Value.ty) ≤ N_MAX_STACK_SIZE ∨
      (r.executor.valueStack = [] ∧ r.executor.callStack = [] ∧
        r.executor.store.lastSignature = none)
  | .runWithStackCheck =>
    ∀ r' op code e, (loop m host).Steps r r' → m.codeSection[r'.executor.ip]? = some op →
      r'.executor.step m host op = .halt (.trapped code e) → code ≠ .interruptionCalled →
        r'.Idle m op

namespace Executor

variable {e e' : Executor T} {op : Opcode}

/-- An instruction that traps leaves the call stack as it was. -/
lemma step_trap_callStack {code} (h : e.step m host op = .halt (.trapped code e')) :
    e'.callStack = e.callStack := by
  have frame := step_stop h
  cases op
  all_goals
    simp only [StopFrame] at frame
    rw [frame]

/-- The signature that is pending after a trap. -/
lemma step_trap_signature {code} (h : e.step m host op = .halt (.trapped code e')) :
    e'.store.lastSignature = e.signatureAtTrap op := by
  have frame := step_stop h
  cases op
  all_goals
    simp only [StopFrame] at frame
    rw [frame]
    rfl

/-- What a trapping instruction leaves is clean when it was idle before, and only then. -/
lemma clean_leftover_iff {r : Running T} {code}
    (h : r.executor.step m host op = .halt (.trapped code e')) :
    (e'.leftover (r.executor.syncStackPtr m op r.stackPtr)).Clean ↔ r.Idle m op := by
  have callStack := step_trap_callStack h
  have signature := step_trap_signature h
  constructor
  · intro clean
    exact ⟨clean.stackPtr, callStack.symm.trans clean.callStack,
      signature.symm.trans clean.lastSignature⟩
  · rintro ⟨stackPtr, empty, none⟩
    exact ⟨stackPtr, callStack.trans empty, signature.trans none⟩

/-- The parameters are copied unless there is no room for them. -/
lemma pushParams_eq_none {params : List Value} :
    e.pushParams params = none ↔
      N_MAX_STACK_SIZE < e.valueStack.length + slotCount (params.map Value.ty) := by
  rw [pushParams, Option.map_eq_none_iff, reserve]
  split
  next fits => exact iff_of_false (Option.some_ne_none _) (Nat.not_lt.mpr fits)
  next full => exact iff_of_true rfl (Nat.not_le.mp full)

/-- The ends of two loops that differ in the reserved slots lead to outcomes that do. -/
lemma settle_alike {exit exit' : Exit T} {result} (h : ExitAlike exit exit') :
    (settle m exit result).Alike (settle m exit' result) := by
  cases exit <;> cases exit' <;> try exact absurd h id
  case returned.returned e e' =>
    obtain h : e.Alike e' := h
    rw [h]
    unfold settle
    dsimp only
    split <;> rfl
  case trapped.trapped code e code' e' =>
    obtain ⟨rfl, h⟩ := h
    rw [h]
    cases code
    case interruptionCalled => exact ⟨rfl, rfl⟩
    all_goals rfl
  case undefined.undefined => rfl

/-- Parameters are copied alike. -/
lemma pushParams_alike (h : e.Alike e') (params : List Value) :
    (e.pushParams params = none ∧ e'.pushParams params = none) ∨
      ∃ e₁ e₁', e.pushParams params = some e₁ ∧ e'.pushParams params = some e₁' ∧ e₁.Alike e₁' := by
  unfold pushParams
  rcases reserve_alike h (slotCount (params.map Value.ty)) with
    ⟨room, room'⟩ | ⟨e₁, e₁', room, room', h₁⟩
  · exact .inl ⟨by rw [room]; rfl, by rw [room']; rfl⟩
  · refine .inr ⟨_, _, by rw [room]; rfl, by rw [room']; rfl, ?_⟩
    rw [h₁]
    rfl

/-- The reserved slots do not influence a run. -/
lemma run_alike (h : e.Alike e') {params result out} (run : e.Run m host params result out) :
    ∃ out', e'.Run m host params result out' ∧ out.Alike out' := by
  unfold Run at run ⊢
  rcases pushParams_alike h params with ⟨eq, eq'⟩ | ⟨e₁, e₁', eq, eq', h₁⟩
  · rw [eq] at run
    rw [eq']
    refine ⟨_, rfl, ?_⟩
    rw [run, h]
    rfl
  · rw [eq] at run
    rw [eq']
    obtain ⟨exit, halts, rfl⟩ := run
    obtain ⟨exit', halts', alike⟩ := halts.lockstep (fun _ _ => vm_alike m host) h₁
    exact ⟨_, ⟨exit', halts', rfl⟩, settle_alike alike⟩

end Executor

/-- What is left clean is as good as fresh. -/
lemma Leftover.Clean.likeFresh {l : Leftover T} (h : l.Clean) : l.LikeFresh := by
  intro ip
  have len : l.stackPtr ≤ l.slots.length := by
    rw [h.stackPtr]
    exact Nat.zero_le _
  have alike : (⟨[], l.capacity, [], ip, l.store⟩ : Executor T).Alike (.fresh l.store ip) := rfl
  refine ⟨⟨[], l.capacity, [], ip, l.store⟩, ?_, fun m host params result => ⟨?_, ?_⟩⟩
  · rw [Leftover.executor, if_pos len, h.stackPtr, h.callStack, Nat.sub_zero, List.drop_length]
  · exact fun out run => Executor.run_alike alike run
  · exact fun out run => Executor.run_alike alike.symm run

/-- A reset leaves nothing. -/
lemma Leftover.clean_reset (l : Leftover T) : l.reset.Clean :=
  ⟨rfl, rfl, rfl⟩

/-- What `run` leaves after a trap in the loop is clean. -/
lemma clean_runLeaves {result exit stackPtr code} {l : Leftover T}
    (h : runLeaves result exit stackPtr = some (some code, l)) (final : code ≠ .interruptionCalled) :
    l.Clean := by
  cases exit with
  | returned e =>
    simp only [runLeaves, Option.map_eq_some_iff] at h
    obtain ⟨_, _, eq⟩ := h
    cases eq
  | trapped code' e =>
    cases code' <;> cases h <;> first | exact absurd rfl final | exact Leftover.clean_reset _
  | undefined => cases h

/-- The loop stops with a trap exactly where an instruction traps. -/
lemma loop_step_trap {r : Running T} {code e' stackPtr} :
    (loop m host).step r = .halt (.trapped code e', stackPtr) ↔
      ∃ op, m.codeSection[r.executor.ip]? = some op ∧
        r.executor.step m host op = .halt (.trapped code e') ∧
        stackPtr = r.executor.syncStackPtr m op r.stackPtr := by
  unfold loop
  dsimp only
  cases m.codeSection[r.executor.ip]? with
  | none =>
    constructor
    · intro h
      cases h
    · rintro ⟨_, h, _⟩
      cases h
  | some op =>
    dsimp only
    constructor
    · intro h
      refine ⟨op, rfl, ?_⟩
      split at h
      · cases h
      next turn =>
        cases h
        exact ⟨turn, rfl⟩
    · rintro ⟨_, ⟨⟩, turn, rfl⟩
      rw [turn]

/-- Cleaning up after `run`. -/
lemma cleansUp_run_iff (r : Running T) (params result : List Value) :
    CleansUp m host r (.run params result) ↔ CleanupCondition m host r (.run params result) := by
  simp only [CleansUp, CleanupCondition, Leaves]
  cases copied : r.executor.pushParams params with
  | none =>
    have full := Executor.pushParams_eq_none.mp copied
    constructor
    · intro clean
      obtain ⟨⟨empty, callStack, signature⟩, -⟩ :=
        clean .stackOverflow _ ⟨rfl, rfl⟩ TrapCode.noConfusion
      exact .inr ⟨List.length_eq_zero_iff.mp empty, callStack, signature⟩
    · rintro (fits | ⟨empty, callStack, signature⟩)
      · omega
      · rintro code l ⟨-, rfl⟩ -
        have clean : (r.executor.leftover r.executor.valueStack.length).Clean :=
          ⟨List.length_eq_zero_iff.mpr empty, callStack, signature⟩
        exact ⟨clean, clean.likeFresh⟩
  | some e =>
    have fits : ¬ N_MAX_STACK_SIZE < r.executor.valueStack.length + slotCount (params.map Value.ty) := by
      rw [← Executor.pushParams_eq_none, copied]
      exact Option.some_ne_none e
    constructor
    · exact fun _ => .inl (by omega)
    · rintro - code l ⟨exit, stackPtr, -, left⟩ final
      have clean := clean_runLeaves left final
      exact ⟨clean, clean.likeFresh⟩

/-- Cleaning up after `run_with_stack_check`. -/
lemma cleansUp_runWithStackCheck_iff (r : Running T) :
    CleansUp m host r .runWithStackCheck ↔ CleanupCondition m host r .runWithStackCheck := by
  constructor
  · intro clean r' op code e st fetch trap final
    have halts : (loop m host).Halts r
        (.trapped code e, r'.executor.syncStackPtr m op r'.stackPtr) :=
      ⟨r', st, loop_step_trap.mpr ⟨op, fetch, trap, rfl⟩⟩
    exact (Executor.clean_leftover_iff trap).mp (clean code _ ⟨_, _, halts, rfl⟩ final).1
  · rintro idle code l ⟨exit, stackPtr, ⟨r', st, halt⟩, left⟩ final
    cases exit with
    | returned e => cases left
    | undefined => cases left
    | trapped code' e =>
      cases left
      obtain ⟨op, fetch, trap, rfl⟩ := loop_step_trap.mp halt
      have clean := (Executor.clean_leftover_iff trap).mpr (idle r' op code e st fetch trap final)
      exact ⟨clean, clean.likeFresh⟩

/-- A run cleans up after its traps exactly under the condition. -/
theorem cleansUp_iff (m : RwasmModule) (host : Host T) (r : Running T) (mode : RunMode) :
    CleansUp m host r mode ↔ CleanupCondition m host r mode := by
  cases mode with
  | run params result => exact cleansUp_run_iff r params result
  | runWithStackCheck => exact cleansUp_runWithStackCheck_iff r

/-- A module that pushes a value and traps in a nested call. -/
def trappingModule : RwasmModule where
  codeSection := [.i32Const 7, .callInternal 2, .unreachable]

/-- `run_with_stack_check` leaves the value and the return address of a trapped call behind. -/
theorem not_cleansUp :
    ¬ CleansUp trappingModule .empty ⟨.fresh (.new () none none) 0, 0⟩ .runWithStackCheck := by
  intro clean
  have pushed : (loop trappingModule .empty).step ⟨.fresh (.new () none none) 0, 0⟩ =
      .next ⟨⟨[7], 32, [], 1, .new () none none⟩, 0⟩ := rfl
  have called : (loop trappingModule .empty).step ⟨⟨[7], 32, [], 1, .new () none none⟩, 0⟩ =
      .next ⟨⟨[7], 32, [2], 2, .new () none none⟩, 1⟩ := rfl
  have trapped : (loop trappingModule .empty).step ⟨⟨[7], 32, [2], 2, .new () none none⟩, 1⟩ =
      .halt (.trapped .unreachableCodeReached ⟨[7], 32, [2], 2, .new () none none⟩, 1) := rfl
  have halts := (Machine.Steps.head pushed (.single called)).halts (.now trapped)
  obtain ⟨⟨nonempty, -, -⟩, -⟩ := clean _ _ ⟨_, _, halts, rfl⟩ TrapCode.noConfusion
  cases nonempty

end Rwasm
