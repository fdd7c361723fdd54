import Rwasm.Vm.Bounds

/-!
# Operands

The slots that an instruction finds on the value stack, and those it pushes. A pop moves the stack pointer
down and compares it with nothing (`ValueStackPtr::pop`), as a push moves it up. A verified instruction is
undefined only where it takes slots from below the stack, or where the source panics.
-/

namespace Rwasm

variable {T : Type} {m : RwasmModule} {host : Host T}

/-- The slots an instruction takes from the stack or reaches down to. What a call to the host takes
depends on its signature. -/
def Opcode.reach : Opcode → Nat
  | .localGet depth | .localTee depth => depth
  | .localSet depth => depth + 1
  | .brIfEqz _ | .brIfNez _ | .brTable _ | .consumeFuelStack | .returnCallIndirect _
  | .callIndirect _ | .drop | .globalSet _ | .load _ _ | .memoryGrow | .tableGet _ | .unary _ => 1
  | .store _ _ | .tableGrow _ | .tableSet _ | .binary _ | .fallible _ | .i32Mul64 | .i32Add64 => 2
  | .select | .memoryFill | .memoryCopy | .memoryInit _ | .tableFill _ | .tableCopy _ _
  | .tableInit _ => 3
  | .bulkDrop locals => locals
  | _ => 0

/-- Popping fails for a `v128`, and where a slot is missing. -/
lemma popValues_eq_none_iff {ts : List ValType} {stack : List UntypedValue} :
    popValues ts stack = none ↔ .v128 ∈ ts ∨ stack.length < slotCount ts := by
  induction ts generalizing stack with
  | nil => exact iff_of_false nofun fun h => h.elim List.not_mem_nil (Nat.not_lt_zero _)
  | cons t ts ih =>
    have popped : popValues (t :: ts) stack = none ↔
        ∀ v st, popValue t stack = some (v, st) → .v128 ∈ ts ∨ st.length < slotCount ts := by
      cases h : popValue t stack with
      | none => simp [popValues, h]
      | some r =>
        obtain ⟨v, st⟩ := r
        cases hs : popValues ts st <;> simp [popValues, h, hs, ← ih]
    rw [popped]
    cases t
    case v128 => simp [popValue]
    case i64 | f64 =>
      rcases stack with _ | ⟨hi, _ | ⟨lo, stack⟩⟩
      all_goals simp [popValue, slotCount, ValType.slots, Nat.add_comm 2]
    all_goals
      rcases stack with _ | ⟨b, stack⟩
      all_goals simp [popValue, slotCount, ValType.slots, Nat.add_comm 1]

namespace Executor

variable {e e' : Executor T} {op : Opcode}

/-- A call to the host that is known to the linker, and finds room on the stack. -/
def Calls (host : Host T) (e : Executor T) (func : Nat) (entity : ImportLinkerEntity) : Prop :=
  host.importLinker.resolveByFuncIdx func = some entity ∧
    e.valueStack.length + max entity.params.length entity.result.length ≤ N_MAX_STACK_SIZE

/-- The source panics: the linker does not know the callee, a value of the call is a `v128`, or there is
no such table. -/
def Panics (m : RwasmModule) (host : Host T) (e : Executor T) : Opcode → Prop
  | .call func | .returnCall func =>
    host.importLinker.resolveByFuncIdx func = none ∨
      ∃ entity, e.Calls host func entity ∧ (.v128 ∈ entity.params ∨ .v128 ∈ entity.result)
  | .callIndirect _ | .returnCallIndirect _ | .tableInit _ =>
    ∀ table, e.fetchTableIndex m = some table → e.store.tables table = none
  | .tableSize table | .tableFill table | .tableGet table | .tableSet table =>
    e.store.tables table = none
  | .tableCopy dst src => e.store.tables dst = none ∨ e.store.tables src = none
  | _ => False

/-- An instruction takes slots from below the stack. -/
def Underflows (host : Host T) (e : Executor T) : Opcode → Prop
  | .call func | .returnCall func =>
    ∃ entity, e.Calls host func entity ∧ e.valueStack.length < slotCount entity.params
  | op => e.valueStack.length < op.reach

/-- An instruction pushes slots beyond the reserved ones, and goes on. -/
def Overflows (host : Host T) (e : Executor T) : Opcode → Prop
  | .call func | .returnCall func =>
    ∃ entity params stack result, e.Calls host func entity ∧
      popValues entity.params e.valueStack = some (params, stack) ∧
      entity.result.mapM Value.default = some result ∧
      let reply := host.syscallHandler.invoke e.store.caller func params result
      reply.status = .ok () ∧
        e.grownCapacity (max entity.params.length entity.result.length) <
          stack.length + slotCount (reply.result.map Value.ty)
  | op => e.capacity < e.valueStack.length + op.growth

/-- A call that is answered is defined. -/
lemma afterSyscall_ne_undefined {reply : HostReply T} {stack results : List UntypedValue} :
    e.afterSyscall reply stack results ≠ .halt .undefined := by
  unfold afterSyscall
  dsimp only
  split
  all_goals simp

/-- A call to the host is undefined where the source panics or an argument is missing. -/
lemma invokeSyscall_undefined_iff (m : RwasmModule) {func : Nat} :
    e.invokeSyscall host func = .halt .undefined ↔
      e.Panics m host (.call func) ∨ e.Underflows host (.call func) := by
  cases found : host.importLinker.resolveByFuncIdx func with
  | none => exact iff_of_true (by simp [invokeSyscall, found]) (.inl (.inl found))
  | some entity =>
    have zeros : entity.result.mapM Value.default = none ↔ .v128 ∈ entity.result := by
      rw [← Option.not_isSome_iff_eq_none, mapM_default_isSome, not_not]
    have asked : (e.Panics m host (.call func) ∨ e.Underflows host (.call func)) ↔
        e.valueStack.length + max entity.params.length entity.result.length ≤ N_MAX_STACK_SIZE ∧
          (popValues entity.params e.valueStack = none ∨ entity.result.mapM Value.default = none) := by
      rw [popValues_eq_none_iff, zeros]
      constructor
      · rintro ((unknown | ⟨_, ⟨found', fits⟩, v128⟩) | ⟨_, ⟨found', fits⟩, short⟩)
        · cases found.symm.trans unknown
        · cases found.symm.trans found'
          exact ⟨fits, v128.imp .inl id⟩
        · cases found.symm.trans found'
          exact ⟨fits, .inl (.inr short)⟩
      · rintro ⟨fits, (v128 | short) | v128⟩
        · exact .inl (.inr ⟨entity, ⟨found, fits⟩, .inl v128⟩)
        · exact .inr ⟨entity, ⟨found, fits⟩, short⟩
        · exact .inl (.inr ⟨entity, ⟨found, fits⟩, .inr v128⟩)
    rw [asked]
    cases room : e.reserve (max entity.params.length entity.result.length) with
    | none =>
      have full : N_MAX_STACK_SIZE <
          e.valueStack.length + max entity.params.length entity.result.length := by
        unfold reserve at room
        split at room
        · cases room
        · omega
      refine iff_of_false ?_ fun h => absurd h.1 (Nat.not_le.mpr full)
      simp [invokeSyscall, found, room]
    | some e' =>
      rw [and_iff_right (le_of_reserve room)]
      have live : e'.valueStack = e.valueStack := by rw [reserve_eq room]
      cases hp : popValues entity.params e.valueStack with
      | none => simp [invokeSyscall, found, room, live, hp]
      | some r =>
        cases hd : entity.result.mapM Value.default with
        | none => simp [invokeSyscall, found, room, live, hp, hd]
        | some result =>
          rw [invokeSyscall_eq host found room hp hd]
          exact iff_of_false afterSyscall_ne_undefined (by simp)

/-- No callee is looked up without a number on the stack, or in a table that is missing. -/
lemma resolveIndirect_eq_none_iff (signature : Nat) {table : Nat} (next : e.fetchTableIndex m = some table) :
    e.resolveIndirect m signature = none ↔
      e.store.tables table = none ∨ e.valueStack.length < 1 := by
  obtain ⟨_ | ⟨index, stack⟩, capacity, callStack, ip, store⟩ := e
  · simp [resolveIndirect]
  · cases found : store.tables table with
    | none => simp [resolveIndirect, next, found]
    | some entity =>
      simp only [resolveIndirect, next, found]
      repeat' split
      all_goals simp

/-- A call to the host goes on when it is answered, with the results on the stack. -/
lemma invokeSyscall_next_iff {func : Nat} : e.invokeSyscall host func = .next e' ↔
    ∃ entity params stack result, e.Calls host func entity ∧
      popValues entity.params e.valueStack = some (params, stack) ∧
      entity.result.mapM Value.default = some result ∧
      let reply := host.syscallHandler.invoke e.store.caller func params result
      reply.status = .ok () ∧ e' = { e with
        valueStack := pushValues reply.result stack
        capacity := e.grownCapacity (max entity.params.length entity.result.length)
        store := e.store.setCaller reply.caller } := by
  constructor
  · intro h
    cases found : host.importLinker.resolveByFuncIdx func with
    | none => simp [invokeSyscall, found] at h
    | some entity =>
      cases room : e.reserve (max entity.params.length entity.result.length) with
      | none => simp [invokeSyscall, found, room] at h
      | some e₁ =>
        have grown := reserve_eq room
        have live : e₁.valueStack = e.valueStack := by rw [grown]
        cases hp : popValues entity.params e.valueStack with
        | none => simp [invokeSyscall, found, room, live, hp] at h
        | some r =>
          obtain ⟨params, stack⟩ := r
          cases hd : entity.result.mapM Value.default with
          | none => simp [invokeSyscall, found, room, live, hp, hd] at h
          | some result =>
            refine ⟨entity, params, stack, result, ⟨found, le_of_reserve room⟩, hp, hd, ?_⟩
            rw [invokeSyscall_eq host found room hp hd, afterSyscall, grown] at h
            dsimp only at h ⊢
            split at h
            next status =>
              cases h
              exact ⟨status, rfl⟩
            all_goals cases h
  · rintro ⟨entity, params, stack, result, ⟨found, fits⟩, hp, hd, status, rfl⟩
    have room : e.reserve (max entity.params.length entity.result.length) =
        some { e with capacity := e.grownCapacity (max entity.params.length entity.result.length) } :=
      if_pos fits
    rw [invokeSyscall_eq host found room hp hd, afterSyscall, status]

/-- An instruction that goes on with slots beyond the reserved ones has pushed them. -/
lemma overflows_of_step (h : e.step m host op = .next e') (out : ¬ e'.InBounds) :
    e.Overflows host op := by
  by_cases syscall : op.IsSyscall
  · cases op
    case call func | returnCall func =>
      obtain ⟨entity, params, stack, result, calls, hp, hd, status, rfl⟩ := invokeSyscall_next_iff.mp h
      refine ⟨entity, params, stack, result, calls, hp, hd, status, ?_⟩
      rw [InBounds, length_pushValues] at out
      exact Nat.lt_of_not_le out
    all_goals exact absurd syscall id
  · have more : e.capacity < e.valueStack.length + op.growth :=
      calc e.capacity
        _ ≤ e'.capacity := step_capacity h syscall
        _ < e'.valueStack.length := Nat.lt_of_not_le out
        _ ≤ e.valueStack.length + op.growth := step_length h syscall
    cases op
    case call | returnCall => exact absurd trivial syscall
    all_goals exact more

/-- An instruction that finds no room for what it pushes goes on with slots beyond the reserved ones. -/
lemma step_of_overflows (inside : e.InBounds) (defined : e.step m host op ≠ .halt .undefined)
    (more : e.Overflows host op) : ∃ e', e.step m host op = .next e' ∧ ¬ e'.InBounds := by
  unfold InBounds at inside
  cases op
  case call func | returnCall func =>
    obtain ⟨entity, params, stack, result, calls, hp, hd, status, more⟩ := more
    refine ⟨_, invokeSyscall_next_iff.mpr ⟨entity, params, stack, result, calls, hp, hd, status, rfl⟩, ?_⟩
    rw [InBounds, length_pushValues]
    exact Nat.not_le.mpr more
  case localGet depth | tableSize table =>
    simp only [step, visitLocalGet, visitTableSize] at defined ⊢
    repeat' split at defined
    all_goals first
      | exact absurd rfl defined
      | exact ⟨_, rfl, Nat.not_le.mpr more⟩
  case globalGet | refFunc | i32Const | memorySize => exact ⟨_, rfl, Nat.not_le.mpr more⟩
  case bulkConst locals =>
    refine ⟨_, rfl, ?_⟩
    rw [InBounds, List.length_append, List.length_replicate, Nat.add_comm]
    exact Nat.not_le.mpr more
  all_goals exact absurd more (Nat.not_lt.mpr inside)

end Executor

end Rwasm
