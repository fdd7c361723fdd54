import Rwasm.Vm.Executor

/-!
# What a step can change

Two inversion lemmas for the step function: which parts of the executor each instruction leaves alone when
it goes on, and when it stops. The invariants of runs are read off them.
-/

namespace Rwasm

/-- Consuming fuel changes nothing but the counter. -/
lemma Store.tryConsumeFuel_frame {T : Type} {store store' : Store T} {delta}
    (h : store.tryConsumeFuel delta = some store') :
    store' = { store with consumedFuel := store'.consumedFuel } := by
  unfold tryConsumeFuel at h
  dsimp only at h
  repeat' split at h
  all_goals cases h
  all_goals rfl

/-- The store an exit leaves. -/
def Exit.store {T : Type} : Exit T → Option (Store T)
  | .returned e => some e.store
  | .trapped _ e => some e.store
  | .undefined => none

/-- Calls to the host. -/
def Opcode.IsSyscall : Opcode → Prop
  | .call _ | .returnCall _ => True
  | _ => False

namespace Executor

variable {T : Type} {m : RwasmModule} {host : Host T} {e e' : Executor T} {op : Opcode}

/-- The parts of an executor that an instruction keeps: it only moves the instruction pointer and
changes the value stack, and what else each case names. -/
def Frame (op : Opcode) (e e' : Executor T) : Prop :=
  match op with
  | .consumeFuel _ | .consumeFuelStack =>
    e' = { e with
      ip := e'.ip
      valueStack := e'.valueStack
      store := { e.store with consumedFuel := e'.store.consumedFuel } }
  | .ret | .callInternal _ => e' = { e with ip := e'.ip, callStack := e'.callStack }
  | .call _ | .returnCall _ =>
    e' = { e with
      ip := e.ip + 1
      valueStack := e'.valueStack
      capacity := e'.capacity
      store := e.store.setCaller e'.store.caller }
  | .callIndirect signature | .returnCallIndirect signature =>
    e' = { e with
      ip := e'.ip
      valueStack := e'.valueStack
      callStack := e'.callStack
      store := { e.store with lastSignature := some signature } }
  | .signatureCheck _ =>
    e' = { e with ip := e.ip + 1, store := { e.store with lastSignature := none } }
  | .stackCheck _ => e' = { e with ip := e.ip + 1, capacity := e'.capacity }
  | .globalSet _ =>
    e' = { e with
      ip := e.ip + 1
      valueStack := e'.valueStack
      store := { e.store with globalVariables := e'.store.globalVariables } }
  | .store _ _ | .memoryGrow | .memoryFill | .memoryCopy | .memoryInit _ =>
    e' = { e with
      ip := e.ip + 1
      valueStack := e'.valueStack
      store := { e.store with globalMemory := e'.store.globalMemory } }
  | .dataDrop segment =>
    e' = { e with
      ip := e.ip + 1
      store := { e.store with emptyDataSegments := e.store.emptyDataSegments.drop segment } }
  | .elemDrop segment =>
    e' = { e with
      ip := e.ip + 1
      store := { e.store with emptyElemSegments := e.store.emptyElemSegments.drop segment } }
  | .tableGrow _ | .tableFill _ | .tableSet _ | .tableCopy _ _ | .tableInit _ =>
    e' = { e with
      ip := e'.ip
      valueStack := e'.valueStack
      store := { e.store with tables := e'.store.tables } }
  | _ => e' = { e with ip := e'.ip, valueStack := e'.valueStack }

/-- A reservation changes nothing but the capacity. -/
lemma reserve_frame {n} (h : e.reserve n = some e') : e' = { e with capacity := e'.capacity } := by
  unfold reserve at h
  split at h
  · cases h
    rfl
  · cases h

/-- Charging fuel changes nothing but the counter. -/
lemma visitConsumeFuel_frame {fuel} (h : e.visitConsumeFuel fuel = .next e') :
    e' = { e with
      ip := e.ip + 1
      store := { e.store with consumedFuel := e'.store.consumedFuel } } := by
  unfold visitConsumeFuel at h
  split at h
  next hs =>
    cases h
    rw [Store.tryConsumeFuel_frame hs]
    rfl
  · cases h

/-- What the caller of a host function goes on with once the arguments are popped: a stack with the
results of the reply, or the trap the handler ended with. -/
def afterSyscall (e : Executor T) (reply : HostReply T) (stack results : List UntypedValue) :
    Turn (Executor T) (Exit T) :=
  let e := { e with store := e.store.setCaller reply.caller }
  match reply.status with
  | .ok () => .next { e with valueStack := results }
  | .error .executionHalted => .halt (.trapped .executionHalted { e with valueStack := results })
  | .error code => .halt (.trapped code { e with valueStack := stack })

/-- A call to the host, once its parameters and its result buffer are known. -/
lemma invokeSyscall_eq (host : Host T) {func entity e' params result stack}
    (hr : host.importLinker.resolveByFuncIdx func = some entity)
    (room : e.reserve (max entity.params.length entity.result.length) = some e')
    (hp : popValues entity.params e.valueStack = some (params, stack))
    (hd : entity.result.mapM Value.default = some result) :
    let reply := host.syscallHandler.invoke e.store.caller func params result
    e.invokeSyscall host func = e'.afterSyscall reply stack (pushValues reply.result stack) := by
  obtain ⟨cap, rfl⟩ : ∃ cap, e' = { e with capacity := cap } := ⟨_, reserve_frame room⟩
  simp only [invokeSyscall, hr, room, hp, hd]
  rfl

/-- A call to the host is undefined, finds no room, or is answered by the handler. -/
lemma invokeSyscall_cases (host : Host T) (e : Executor T) (func : Nat) :
    e.invokeSyscall host func = .halt .undefined ∨
      e.invokeSyscall host func = .halt (.trapped .stackOverflow e) ∨
      ∃ params result stack cap,
        let reply := host.syscallHandler.invoke e.store.caller func params result
        e.invokeSyscall host func =
          ({ e with capacity := cap } : Executor T).afterSyscall reply stack
            (pushValues reply.result stack) := by
  cases hr : host.importLinker.resolveByFuncIdx func with
  | none => exact .inl (by simp [invokeSyscall, hr])
  | some entity =>
    cases room : e.reserve (max entity.params.length entity.result.length) with
    | none => exact .inr (.inl (by simp [invokeSyscall, hr, room]))
    | some e' =>
      have he := reserve_frame room
      cases hp : popValues entity.params e.valueStack with
      | none =>
        refine .inl ?_
        rw [he] at room
        simp [invokeSyscall, hr, room, hp]
      | some r =>
        obtain ⟨params, stack⟩ := r
        cases hd : entity.result.mapM Value.default with
        | none =>
          refine .inl ?_
          rw [he] at room
          simp [invokeSyscall, hr, room, hd]
        | some result =>
          refine .inr (.inr ⟨params, result, stack, e'.capacity, ?_⟩)
          rw [← he]
          exact invokeSyscall_eq host hr room hp hd

/-- A call to the host changes the stack and what a handler can reach of the store. -/
lemma invokeSyscall_frame {func} (h : e.invokeSyscall host func = .next e') :
    e' = { e with
      valueStack := e'.valueStack
      capacity := e'.capacity
      store := e.store.setCaller e'.store.caller } := by
  rcases invokeSyscall_cases host e func with eq | eq | ⟨params, result, stack, cap, eq⟩
  · cases eq.symm.trans h
  · cases eq.symm.trans h
  · have h := eq.symm.trans h
    unfold afterSyscall at h
    dsimp only at h
    split at h <;> cases h
    rfl

/-- A call to the host that stops traps, and has changed the stack and what a handler can reach of the
store. -/
lemma invokeSyscall_halt_frame {func exit} (h : e.invokeSyscall host func = .halt exit) :
    exit = .undefined ∨ ∃ code e', exit = .trapped code e' ∧ e' = { e with
      valueStack := e'.valueStack
      capacity := e'.capacity
      store := e.store.setCaller e'.store.caller } := by
  rcases invokeSyscall_cases host e func with eq | eq | ⟨params, result, stack, cap, eq⟩
  · cases eq.symm.trans h
    exact .inl rfl
  · cases eq.symm.trans h
    exact .inr ⟨_, _, rfl, rfl⟩
  · have h := eq.symm.trans h
    unfold afterSyscall at h
    dsimp only at h
    split at h
    · cases h
    all_goals
      cases h
      exact .inr ⟨_, _, rfl, rfl⟩

/-- An indirect call leaves the expected signature in the store. -/
lemma resolveIndirect_frame {signature r} (h : e.resolveIndirect m signature = some (r, e')) :
    e' = { e with
      valueStack := e'.valueStack
      store := { e.store with lastSignature := some signature } } := by
  unfold resolveIndirect at h
  split at h
  · dsimp only at h
    split at h
    · cases h
    · split at h
      · cases h
        rfl
      · split at h <;> cases h <;> rfl
  · cases h

/-- A step changes no more than its instruction's frame allows. -/
theorem step_frame (h : e.step m host op = .next e') : Frame op e e' := by
  cases op
  case call | returnCall => exact invokeSyscall_frame h
  case callIndirect | returnCallIndirect =>
    simp only [step, visitCallIndirect, visitReturnCallIndirect] at h
    split at h
    · cases h
    · cases h
    next hr =>
      have hf := resolveIndirect_frame hr
      repeat' split at h
      all_goals cases h
      all_goals
        simp only [Frame]
        rw [hf]
  case consumeFuel =>
    have hf := visitConsumeFuel_frame h
    rw [hf]
    rfl
  case consumeFuelStack =>
    simp only [step, visitConsumeFuelStack] at h
    split at h
    · have hf := visitConsumeFuel_frame h
      rw [hf]
      rfl
    · cases h
  case stackCheck =>
    simp only [step, visitStackCheck] at h
    split at h
    next hr =>
      cases h
      simp only [Frame, advance]
      rw [reserve_frame hr]
    · cases h
  all_goals
    simp only [step, visitLocalGet, visitLocalSet, visitLocalTee, jump, visitBrIf, visitBrIfNez,
      visitBrTable, visitReturn, visitReturnCallInternal,
      visitCallInternal, visitSignatureCheck, visitSelect, visitGlobalGet, visitGlobalSet, visitLoad,
      visitStore, visitMemorySize, visitMemoryGrow, visitMemoryFill, visitMemoryCopy, visitMemoryInit,
      visitDataDrop, visitTableSize, visitTableGrow, visitTableFill, visitTableGet, visitTableSet,
      visitTableCopy, visitTableInit, visitElementDrop, visitUnary, visitBinary, visitFallible,
      visitWide, visitBulkDrop, tryTable, tryAdvance] at h
    repeat' split at h
    all_goals cases h
  all_goals rfl

/-- What an instruction that stops leaves: only `Return` ends the run without a trap, and one that traps
has moved the instruction pointer and changed the value stack, and what else each case names. -/
def StopFrame (op : Opcode) (e : Executor T) : Exit T → Prop
  | .undefined => True
  | .returned e' => op = .ret ∧ e' = e
  | .trapped _ e' =>
    match op with
    | .call _ | .returnCall _ =>
      e' = { e with
        ip := e'.ip
        valueStack := e'.valueStack
        capacity := e'.capacity
        store := e.store.setCaller e'.store.caller }
    | .callIndirect signature | .returnCallIndirect signature =>
      e' = { e with
        ip := e'.ip
        valueStack := e'.valueStack
        store := { e.store with lastSignature := some signature } }
    | .signatureCheck _ => e' = { e with store := { e.store with lastSignature := none } }
    | _ => e' = { e with ip := e'.ip, valueStack := e'.valueStack }

/-- A step that stops leaves what its instruction's frame allows. -/
theorem step_stop {exit} (h : e.step m host op = .halt exit) : StopFrame op e exit := by
  cases op
  case call func | returnCall func =>
    rcases invokeSyscall_halt_frame h with rfl | ⟨code, e', rfl, frame⟩
    · trivial
    · simp only [StopFrame]
      rw [frame]
      rfl
  case callIndirect signature =>
    simp only [step, visitCallIndirect] at h
    split at h
    · cases h
      trivial
    next hr =>
      cases h
      simp only [StopFrame]
      rw [resolveIndirect_frame hr]
    next hr =>
      split at h
      · cases h
        simp only [StopFrame, advance]
        rw [resolveIndirect_frame hr]
      · cases h
  case returnCallIndirect signature =>
    simp only [step, visitReturnCallIndirect] at h
    split at h
    · cases h
      trivial
    next hr =>
      cases h
      simp only [StopFrame]
      rw [resolveIndirect_frame hr]
    · cases h
  all_goals
    simp only [step, visitLocalGet, visitLocalSet, visitLocalTee, jump, visitBrIf, visitBrIfNez,
      visitBrTable, visitConsumeFuel, visitConsumeFuelStack, visitReturn, visitReturnCallInternal,
      visitCallInternal, visitSignatureCheck, visitStackCheck, visitSelect, visitGlobalGet,
      visitGlobalSet, visitLoad, visitStore, visitMemorySize, visitMemoryGrow, visitMemoryFill,
      visitMemoryCopy, visitMemoryInit, visitDataDrop, visitTableSize, visitTableGrow, visitTableFill,
      visitTableGet, visitTableSet, visitTableCopy, visitTableInit, visitElementDrop, visitUnary,
      visitBinary, visitFallible, visitWide, visitBulkDrop, tryTable, tryAdvance] at h
    repeat' split at h
    all_goals cases h
  all_goals trivial

/-- A step that stops leaves the store as it was but for the pending signature, unless it is a call
to the host. -/
lemma step_halt_frame_internal {exit store} (h : e.step m host op = .halt exit)
    (hs : exit.store = some store) (internal : ¬ op.IsSyscall) :
    store = { e.store with lastSignature := store.lastSignature } := by
  have frame := step_stop h
  cases exit with
  | undefined => cases hs
  | returned e' =>
    cases hs
    rw [frame.2]
  | trapped code e' =>
    cases hs
    cases op
    case call | returnCall => exact absurd trivial internal
    all_goals
      simp only [StopFrame] at frame
      rw [frame]

/-- A step that stops leaves a store that differs only in what a handler can reach and in the
pending signature. -/
theorem step_halt_frame {exit store} (h : e.step m host op = .halt exit)
    (hs : exit.store = some store) :
    store = { e.store.setCaller store.caller with lastSignature := store.lastSignature } := by
  cases op
  case call | returnCall =>
    have frame := step_stop h
    cases exit with
    | undefined => cases hs
    | returned e' => cases frame.1
    | trapped code e' =>
      cases hs
      simp only [StopFrame] at frame
      rw [frame]
      rfl
  all_goals
    rw [step_halt_frame_internal h hs not_false]
    rfl

end Executor

end Rwasm
