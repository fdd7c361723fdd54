import Rwasm.Vm.Syscall

/-!
# Interruptions

A host call may interrupt the execution; the embedder resumes it later with the results of the call.
The runs of `execute` and `resume` that answer every interruption are compared with the run in which
the handler returns the same answers at once. The two reserve slots at different times: an answer that
is resumed with is pushed after a reservation of its own, one that is returned at once is not. As long as
every push lands in reserved slots, that is all they differ in.
-/

namespace Rwasm

variable {T : Type} {m : RwasmModule} {host : Host T}

namespace Executor

/-- Two executors that differ in the reserved slots only. A step that pushes no more than both have
reserved does not tell them apart; one that pushes more is undefined. -/
def Alike (e e' : Executor T) : Prop :=
  e' = { e with capacity := e'.capacity }

/-- Two ends of the loop that differ in the reserved slots only. -/
def ExitAlike : Exit T → Exit T → Prop
  | .returned e, .returned e' => e.Alike e'
  | .trapped code e, .trapped code' e' => code = code' ∧ e.Alike e'
  | .undefined, .undefined => True
  | _, _ => False

variable {e e' : Executor T} {op : Opcode}

/-- A state is like itself. -/
lemma alike_refl (e : Executor T) : e.Alike e := rfl

/-- Being alike goes both ways. -/
lemma Alike.symm (h : e.Alike e') : e'.Alike e := by
  rw [h]
  rfl

/-- So it does for the ends of runs. -/
lemma ExitAlike.symm {exit exit' : Exit T} (h : ExitAlike exit exit') : ExitAlike exit' exit := by
  cases exit <;> cases exit'
  case trapped.trapped => exact ⟨h.1.symm, h.2.symm⟩
  case returned.returned => exact Alike.symm h
  case undefined.undefined => trivial
  all_goals exact absurd h id

/-- Reserving depends on the live slots only. -/
lemma reserve_alike (h : e.Alike e') (n : Nat) :
    (e.reserve n = none ∧ e'.reserve n = none) ∨
      ∃ e₁ e₁', e.reserve n = some e₁ ∧ e'.reserve n = some e₁' ∧ e₁.Alike e₁' := by
  rw [h]
  by_cases room : e.valueStack.length + n ≤ N_MAX_STACK_SIZE
  · exact .inr ⟨_, _, if_pos room, if_pos room, rfl⟩
  · exact .inl ⟨if_neg room, if_neg room⟩

/-- What follows a call to the host does not depend on the reserved slots. -/
lemma afterSyscall_alike (h : e.Alike e') (reply : HostReply T) (stack results : List UntypedValue) :
    Turn.Rel Alike ExitAlike (e.afterSyscall reply stack results)
      (e'.afterSyscall reply stack results) := by
  rw [h]
  unfold afterSyscall
  dsimp only
  split
  · exact .next rfl
  · exact .halt ⟨rfl, rfl⟩
  · exact .halt ⟨rfl, rfl⟩

/-- A call to the host does not depend on the reserved slots. -/
lemma invokeSyscall_alike (h : e.Alike e') (func : Nat) :
    Turn.Rel Alike ExitAlike (e.invokeSyscall host func) (e'.invokeSyscall host func) := by
  cases hr : host.importLinker.resolveByFuncIdx func with
  | none =>
    simp only [invokeSyscall, hr]
    exact .halt trivial
  | some entity =>
    rcases reserve_alike h (max entity.params.length entity.result.length) with
      ⟨room, room'⟩ | ⟨e₁, e₁', room, room', h₁⟩
    · simp only [invokeSyscall, hr, room, room']
      exact .halt ⟨rfl, h⟩
    · have hs : e₁.valueStack = e.valueStack := by rw [reserve_frame room]
      have hs' : e₁'.valueStack = e.valueStack := by rw [reserve_frame room', h]
      cases hp : popValues entity.params e.valueStack with
      | none =>
        simp only [invokeSyscall, hr, room, room', hs, hs', hp]
        exact .halt trivial
      | some r =>
        obtain ⟨params, stack⟩ := r
        cases hd : entity.result.mapM Value.default with
        | none =>
          simp only [invokeSyscall, hr, room, room', hs, hs', hp, hd]
          exact .halt trivial
        | some result =>
          have same : e'.valueStack = e.valueStack ∧ e'.store = e.store := by
            rw [h]
            exact ⟨rfl, rfl⟩
          rw [invokeSyscall_eq host hr room hp hd,
            invokeSyscall_eq host hr room' (by rw [same.1]; exact hp) hd, same.2]
          exact afterSyscall_alike h₁ _ _ _

/-- An operation on a table does not depend on the reserved slots. -/
lemma tryTable_alike (h : e.Alike e') (n table : Nat) (r : Except TrapCode TableEntity) :
    Turn.Rel Alike ExitAlike (e.tryTable n table r) (e'.tryTable n table r) := by
  rw [h]
  cases r with
  | ok entity => exact .next rfl
  | error code => exact .halt ⟨rfl, rfl⟩

/-- Looking up a callee does not depend on the reserved slots. -/
lemma resolveIndirect_alike (c : Nat) (signature : Nat) :
    ({ e with capacity := c } : Executor T).resolveIndirect m signature =
      (e.resolveIndirect m signature).map fun (r, e) => (r, { e with capacity := c }) := by
  simp only [resolveIndirect, fetchTableIndex]
  repeat' split
  all_goals rfl

/-- The reserved slots do not influence a step of `vm`. -/
lemma step_alike (h : e.Alike e') :
    Turn.Rel Alike ExitAlike (e.step m host op) (e'.step m host op) := by
  cases op
  case call func | returnCall func =>
    refine invokeSyscall_alike ?_ func
    rw [h]
    rfl
  case stackCheck height =>
    simp only [step, visitStackCheck]
    rcases reserve_alike h height with ⟨room, room'⟩ | ⟨e₁, e₁', room, room', h₁⟩
    · rw [room, room']
      exact .halt ⟨rfl, h⟩
    · rw [room, room']
      refine .next ?_
      rw [h₁]
      rfl
  case ret =>
    rw [h]
    simp only [step, visitReturn]
    split
    · exact .next rfl
    · exact .halt (show e.Alike _ from rfl)
  case memoryGrow =>
    rw [h]
    simp only [step, visitMemoryGrow]
    rcases e.valueStack with _ | ⟨delta, stack⟩
    · exact .halt trivial
    · dsimp only
      rcases (Pages.new delta.toNat).bind e.store.globalMemory.grow with _ | ⟨old, memory⟩
      · exact .next rfl
      · exact .next rfl
  case memoryCopy =>
    rw [h]
    simp only [step, visitMemoryCopy, data]
    split
    next n s d stack _ =>
      rcases e.store.globalMemory.sharedMemory.getSlice? s.asI32Usize n.asI32Usize with _ | bytes
      · exact .halt ⟨rfl, rfl⟩
      · rcases e.store.globalMemory.sharedMemory.getSlice? d.asI32Usize n.asI32Usize with _ | _
        · exact .halt ⟨rfl, rfl⟩
        · exact .next rfl
    · exact .halt trivial
  case memoryInit segment =>
    rw [h]
    simp only [step, visitMemoryInit, data]
    split
    next n s d stack _ =>
      generalize e.store.globalMemory.sharedMemory.getSlice? d.asI32Usize n.asI32Usize = dst
      generalize List.getSlice? _ s.asI32Usize n.asI32Usize = src
      rcases dst with _ | _
      · exact .halt ⟨rfl, rfl⟩
      · rcases src with _ | bytes
        · exact .halt ⟨rfl, rfl⟩
        · exact .next rfl
    · exact .halt trivial
  case tableInit segment =>
    rw [h]
    simp only [step, visitTableInit, fetchTableIndex]
    split
    next table n s d stack _ _ =>
      rcases e.store.tables table with _ | entity
      · exact .halt trivial
      · exact tryTable_alike (by rfl) _ _ _
    · exact .halt trivial
  case tableCopy dst src =>
    rw [h]
    simp only [step, visitTableCopy]
    split
    · exact tryTable_alike (by rfl) _ _ _
    · exact .halt trivial
  case callIndirect signature | returnCallIndirect signature =>
    rw [h]
    simp only [step, visitCallIndirect, visitReturnCallIndirect, resolveIndirect_alike]
    rcases e.resolveIndirect m signature with _ | ⟨_ | func, e₁⟩
    · exact .halt trivial
    · exact .halt ⟨rfl, rfl⟩
    · dsimp only [Option.map_some]
      first
      | exact .next rfl
      | split
        · exact .halt ⟨rfl, rfl⟩
        · exact .next rfl
  all_goals
    rw [h]
    simp only [step, visitLocalGet, visitLocalSet, visitLocalTee, jump, visitBrIf, visitBrIfNez,
      visitBrTable, visitConsumeFuel, visitConsumeFuelStack, visitReturnCallInternal,
      visitCallInternal, visitSignatureCheck, visitSelect, visitGlobalGet, visitGlobalSet, visitLoad,
      visitStore, visitMemorySize, visitMemoryFill, visitDataDrop,
      visitTableSize, visitTableGrow, visitTableFill, visitTableGet, visitTableSet, visitElementDrop, visitUnary, visitBinary, visitFallible, visitWide,
      visitBulkDrop, tryTable, tryAdvance, data]
    repeat' split
    all_goals first
      | exact .next rfl
      | exact .halt ⟨rfl, rfl⟩
      | exact .halt trivial

end Executor

/-- The handler that returns `r` where the given one interrupts the execution. -/
def SyscallHandler.answering (handler : SyscallHandler T) (r : List Value) : SyscallHandler T where
  invoke c f ps rs :=
    let reply := handler.invoke c f ps rs
    if reply.status = .error .interruptionCalled ∧ r.length = rs.length then
      ⟨reply.caller, r, .ok ()⟩
    else
      reply
  length_result c f ps rs := by
    dsimp only
    split
    · simp [*]
    · exact handler.length_result c f ps rs
  length_memory c f ps rs := by
    dsimp only
    split <;> exact handler.length_memory c f ps rs
  currentPages_eq c f ps rs := by
    dsimp only
    split <;> exact handler.currentPages_eq c f ps rs
  maxPages_eq c f ps rs := by
    dsimp only
    split <;> exact handler.maxPages_eq c f ps rs

/-- The host with that handler. -/
def Host.answering (host : Host T) (r : List Value) : Host T :=
  { host with syscallHandler := host.syscallHandler.answering r }

/-- The code has no opcode that interrupts the execution by itself; the compiler emits none. -/
def RwasmModule.NoInterrupts (m : RwasmModule) : Prop :=
  ∀ i : Nat, m.codeSection[i]? ≠ some (.trap .interruptionCalled)

namespace Executor

variable {e e₁ : Executor T} {op : Opcode} {r : List Value}

/-- The source of an interruption is a host call. It would have gone on with an answer. -/
lemma invokeSyscall_interrupted {func}
    (h : e.invokeSyscall host func = .halt (.trapped .interruptionCalled e₁)) :
    ∃ entity, host.importLinker.resolveByFuncIdx func = some entity ∧
      ∀ r : List Value, r.length = entity.result.length →
        e.invokeSyscall (host.answering r) func =
          .next { e₁ with valueStack := pushValues r e₁.valueStack } := by
  cases hr : host.importLinker.resolveByFuncIdx func with
  | none =>
    simp only [invokeSyscall, hr] at h
    cases h
  | some entity =>
    refine ⟨entity, rfl, fun r len => ?_⟩
    cases room : e.reserve (max entity.params.length entity.result.length) with
    | none =>
      simp only [invokeSyscall, hr, room] at h
      cases h
    | some e' =>
      have hs : e'.valueStack = e.valueStack := by rw [reserve_frame room]
      cases hp : popValues entity.params e.valueStack with
      | none =>
        simp only [invokeSyscall, hr, room, hs, hp] at h
        cases h
      | some p =>
        obtain ⟨params, stack⟩ := p
        cases hd : entity.result.mapM Value.default with
        | none =>
          simp only [invokeSyscall, hr, room, hs, hp, hd] at h
          cases h
        | some result =>
          have hlen : result.length = entity.result.length := by
            rw [← mapM_default_ty hd, List.length_map]
          rw [invokeSyscall_eq host hr room hp hd] at h
          rw [invokeSyscall_eq (host.answering r) hr room hp hd]
          generalize hrep : host.syscallHandler.invoke e.store.caller func params result = reply at h
          have answered : (host.answering r).syscallHandler.invoke e.store.caller func params result
              = if reply.status = .error .interruptionCalled ∧ r.length = result.length then
                  ⟨reply.caller, r, .ok ()⟩ else reply := by
            rw [← hrep]
            rfl
          simp only [afterSyscall] at h
          split at h
          · cases h
          · cases h
          next code hcode status =>
            cases h
            rw [answered, if_pos ⟨status, by omega⟩]
            rfl

/-- The operations of the executor fail with codes of their own. -/
lemma eval_ne_interrupted :
    (∀ (op : UntypedValue.LoadOp) data a o, op.eval data a o ≠ .error .interruptionCalled) ∧
    (∀ (op : UntypedValue.StoreOp) data a o v, op.eval data a o v ≠ .error .interruptionCalled) ∧
    (∀ (op : UntypedValue.FallibleOp) a b, op.eval a b ≠ .error .interruptionCalled) := by
  refine ⟨fun op data a o h => ?_, fun op data a o v h => ?_, fun op a b h => ?_⟩
  · unfold UntypedValue.LoadOp.eval at h
    repeat' split at h
    all_goals cases h
  · unfold UntypedValue.StoreOp.eval at h
    repeat' split at h
    all_goals cases h
  · unfold UntypedValue.FallibleOp.eval at h
    repeat' split at h
    all_goals cases h

/-- The operations on tables fail with codes of their own. -/
lemma table_ne_interrupted (table : TableEntity) :
    (∀ d l s n, table.initUntyped d l s n ≠ .error .interruptionCalled) ∧
    (∀ d t s n, table.copy d t s n ≠ .error .interruptionCalled) ∧
    (∀ d s n, table.copyWithin d s n ≠ .error .interruptionCalled) ∧
    (∀ d v n, table.fillUntyped d v n ≠ .error .interruptionCalled) := by
  refine ⟨fun d l s n h => ?_, fun d t s n h => ?_, fun d s n h => ?_, fun d v n h => ?_⟩
  · unfold TableEntity.initUntyped at h
    split at h <;> cases h
  · unfold TableEntity.copy at h
    split at h <;> cases h
  · unfold TableEntity.copyWithin at h
    split at h <;> cases h
  · unfold TableEntity.fillUntyped at h
    split at h <;> cases h

/-- An operation on the stack interrupts only if it fails so. -/
lemma tryAdvance_interrupted {e : Executor T} {r : Except TrapCode UntypedValue}
    {push : UntypedValue → List UntypedValue}
    (h : e.tryAdvance (r.map push) = .halt (.trapped .interruptionCalled e₁)) :
    r = .error .interruptionCalled := by
  cases r with
  | ok stack => cases h
  | error code =>
    cases h
    rfl

/-- An operation on a table interrupts only if it fails so. -/
lemma tryTable_interrupted {e : Executor T} {n table} {r : Except TrapCode TableEntity}
    (h : e.tryTable n table r = .halt (.trapped .interruptionCalled e₁)) :
    r = .error .interruptionCalled := by
  cases r with
  | ok entity => cases h
  | error code =>
    cases h
    rfl

/-- Looking up a callee fails with codes of its own. -/
lemma resolveIndirect_ne_interrupted {e : Executor T} {signature} :
    e.resolveIndirect m signature ≠ some (.error .interruptionCalled, e₁) := by
  intro h
  unfold resolveIndirect at h
  split at h
  · dsimp only at h
    repeat' split at h
    all_goals simp at h
  · cases h

/-- An instruction that interrupts the execution is a host call, or the trap itself. -/
lemma step_interrupted (h : e.step m host op = .halt (.trapped .interruptionCalled e₁)) :
    op = .trap .interruptionCalled ∨ ∃ func, (op = .call func ∨ op = .returnCall func) ∧
      (e.advance 1).invokeSyscall host func = .halt (.trapped .interruptionCalled e₁) := by
  cases op
  case call func => exact .inr ⟨func, .inl rfl, h⟩
  case returnCall func => exact .inr ⟨func, .inr rfl, h⟩
  case trap code =>
    cases h
    exact .inl rfl
  all_goals exfalso
  case load =>
    simp only [step, visitLoad] at h
    split at h
    · exact eval_ne_interrupted.1 _ _ _ _ (tryAdvance_interrupted h)
    · cases h
  case store =>
    simp only [step, visitStore] at h
    split at h
    · split at h
      · cases h
      next he =>
        cases h
        exact eval_ne_interrupted.2.1 _ _ _ _ _ he
    · cases h
  case fallible =>
    simp only [step, visitFallible] at h
    split at h
    · exact eval_ne_interrupted.2.2 _ _ _ (tryAdvance_interrupted h)
    · cases h
  case tableInit =>
    simp only [step, visitTableInit] at h
    split at h
    · split at h
      next entity _ => exact (table_ne_interrupted entity).1 _ _ _ _ (tryTable_interrupted h)
      · cases h
    · cases h
  case tableCopy =>
    simp only [step, visitTableCopy] at h
    split at h
    next dst _ _ _ _ =>
      have := tryTable_interrupted h
      split at this
      · exact (table_ne_interrupted dst).2.1 _ _ _ _ this
      · exact (table_ne_interrupted dst).2.2.1 _ _ _ this
    · cases h
  case tableFill =>
    simp only [step, visitTableFill] at h
    split at h
    next entity _ _ => exact (table_ne_interrupted entity).2.2.2 _ _ _ (tryTable_interrupted h)
    · cases h
  case callIndirect | returnCallIndirect =>
    simp only [step, visitCallIndirect, visitReturnCallIndirect] at h
    split at h
    · cases h
    next hr =>
      cases h
      exact resolveIndirect_ne_interrupted hr
    · first
      | cases h
      | split at h <;> cases h
  all_goals
    simp only [step, visitLocalGet, visitLocalSet, visitLocalTee, jump, visitBrIf, visitBrIfNez,
      visitBrTable, visitConsumeFuel, visitConsumeFuelStack, visitReturn, visitReturnCallInternal,
      visitCallInternal, visitSignatureCheck, visitStackCheck, visitSelect, visitGlobalGet,
      visitGlobalSet, visitMemorySize, visitMemoryGrow, visitMemoryFill, visitMemoryCopy,
      visitMemoryInit, visitDataDrop, visitTableSize, visitTableGrow, visitTableGet, visitTableSet,
      visitElementDrop, visitUnary, visitBinary, visitWide, visitBulkDrop] at h
    repeat' split at h
    all_goals cases h

/-- A step that interrupts the execution of a module would have gone on with an answer of the declared
number of results, pushed on the stack that is left. -/
lemma vm_interrupted (free : m.NoInterrupts)
    (h : (vm m host).step e = .halt (.trapped .interruptionCalled e₁)) :
    ∃ func entity, (m.codeSection[e.ip]? = some (.call func) ∨
        m.codeSection[e.ip]? = some (.returnCall func)) ∧
      host.importLinker.resolveByFuncIdx func = some entity ∧
      ∀ r : List Value, r.length = entity.result.length →
        (vm m (host.answering r)).step e =
          .next { e₁ with valueStack := pushValues r e₁.valueStack } := by
  simp only [vm] at h ⊢
  cases hop : m.codeSection[e.ip]? with
  | none =>
    rw [hop] at h
    cases h
  | some op =>
    rw [hop] at h
    rcases step_interrupted h with rfl | ⟨func, call, hs⟩
    · exact absurd hop (free _)
    · obtain ⟨entity, hr, answer⟩ := invokeSyscall_interrupted hs
      refine ⟨func, entity, call.imp (congrArg some) (congrArg some), hr, fun r len => ?_⟩
      rcases call with rfl | rfl
      · exact answer r len
      · exact answer r len

end Executor

/-- A run whose interruptions are answered: `go` says how it goes on with an answer, from the state
before the interrupted step and the one the interruption has left. -/
def answeredVm (m : RwasmModule) (host : Host T)
    (go : List Value → Executor T → Executor T → Turn (Executor T) (Exit T)) :
    Machine (Executor T × List (List Value)) (Exit T × List (List Value)) where
  step := fun (e, answers) =>
    match (boundedVm m host).step e, answers with
    | .halt (.trapped .interruptionCalled e₁), r :: answers =>
      match go r e e₁ with
      | .next e => .next (e, answers)
      | .halt exit => .halt (exit, answers)
    | .next e, answers => .next (e, answers)
    | .halt exit, answers => .halt (exit, answers)

/-- The run in which the handler returns the given answers, one for each call that it would have
interrupted. -/
def answeringVm (m : RwasmModule) (host : Host T) :
    Machine (Executor T × List (List Value)) (Exit T × List (List Value)) :=
  answeredVm m host fun r e _ => (boundedVm m (host.answering r)).step e

/-- The runs of `execute` and `resume` one after the other: each interruption is resumed with the next
answer. -/
def resumingVm (m : RwasmModule) (host : Host T) :
    Machine (Executor T × List (List Value)) (Exit T × List (List Value)) :=
  answeredVm m host fun r _ e₁ =>
    match e₁.pushParams r with
    | some e => .next e
    | none => .halt (.trapped .stackOverflow e₁)

/-- `execute` with a handler that returns the given answers at once, all of which are used. -/
def ExecuteAnswering (m : RwasmModule) (host : Host T) (store : Store T) (params result : List Value)
    (answers : List (List Value)) (out : Outcome T) : Prop :=
  match (Executor.fresh store m.sourcePc).pushParams params with
  | none => answers = [] ∧ out = .err .stackOverflow store
  | some e => ∃ exit, (answeringVm m host).Halts (e, answers) (exit, []) ∧
      out = Executor.settle m exit result

/-- The calls of `resume` after an interrupted call, one for each answer, and the last outcome. -/
inductive Resumes (host : Host T) (result : List Value) :
    List (List Value) → Outcome T → Outcome T → Prop
  | done {out} :
    Resumes host result [] out out
  | resume {store context r answers out final} :
    Resume host store context r result out →
    Resumes host result answers out final →
    Resumes host result (r :: answers) (.interrupted store context) final

/-- The answers suit a run: each one has the result types of the call it answers, and the value stack
stays within its limit. -/
structure Suits (m : RwasmModule) (host : Host T) (e : Executor T) (answers : List (List Value)) :
    Prop where
  typed : ∀ e' r rest e₁ func entity, (answeringVm m host).Steps (e, answers) (e', r :: rest) →
    (boundedVm m host).step e' = .halt (.trapped .interruptionCalled e₁) →
    m.codeSection[e'.ip]? = some (.call func) ∨ m.codeSection[e'.ip]? = some (.returnCall func) →
    host.importLinker.resolveByFuncIdx func = some entity → r.map Value.ty = entity.result
  fits : ∀ e' rest, (answeringVm m host).Steps (e, answers) (e', rest) →
    e'.valueStack.length ≤ N_MAX_STACK_SIZE

/-- No step of the run whose interruptions are answered at once, nor of the one that is resumed, pushes
beyond the slots reserved before it. -/
structure Reserved (m : RwasmModule) (host : Host T) (e e' : Executor T)
    (answers : List (List Value)) : Prop where
  answering : ∀ e₁ rest, (answeringVm m host).Steps (e, answers) (e₁, rest) →
    e₁.Room m host ∧ ∀ r ∈ rest.head?, e₁.Room m (host.answering r)
  resuming : ∀ e₁ rest, (resumingVm m host).Steps (e', answers) (e₁, rest) → e₁.Room m host

section Answering

variable {e e' e₁ e₁' : Executor T} {exit : Exit T} {answers rest : List (List Value)}
  {r result : List Value}
  {go : List Value → Executor T → Executor T → Turn (Executor T) (Exit T)}

/-- Steps that are not interrupted use no answer. -/
lemma answeredVm_next (h : (boundedVm m host).step e = .next e') :
    (answeredVm m host go).step (e, answers) = .next (e', answers) := by
  simp only [answeredVm, h]

/-- A run that is not interrupted uses no answer. -/
lemma answeredVm_steps (st : (boundedVm m host).Steps e e') :
    (answeredVm m host go).Steps (e, answers) (e', answers) := by
  induction st with
  | refl => exact .refl
  | tail _ hs ih => exact ih.trans (.single (answeredVm_next hs))

/-- A run ends as it does without answers when none are left. -/
lemma answeredVm_halt_nil (h : (boundedVm m host).step e = .halt exit) :
    (answeredVm m host go).step (e, []) = .halt (exit, []) := by
  simp only [answeredVm, h]

/-- An interrupted step goes on as `go` says. -/
lemma answeredVm_interrupted (h : (boundedVm m host).step e = .halt (.trapped .interruptionCalled e₁))
    (goes : go r e e₁ = .next e') :
    (answeredVm m host go).step (e, r :: answers) = .next (e', answers) := by
  simp only [answeredVm, h, goes]

/-- The machine does not depend on the reserved slots. -/
lemma vm_alike (m : RwasmModule) (host : Host T) (h : e.Alike e') :
    Turn.Rel Executor.Alike Executor.ExitAlike ((vm m host).step e) ((vm m host).step e') := by
  have ip : e'.ip = e.ip := by rw [h]
  simp only [vm, ip]
  split
  · exact Executor.step_alike h
  · exact .halt trivial

/-- What the two runs have in common: they are alike up to the reserved slots, each inside its own, and
stay so with the answers that are left. -/
structure Paired (m : RwasmModule) (host : Host T) (answers : List (List Value)) (e e' : Executor T) :
    Prop where
  alike : e.Alike e'
  inside : e.InBounds
  inside' : e'.InBounds
  suits : Suits m host e answers
  reserved : Reserved m host e e' answers

namespace Paired

variable (pair : Paired m host answers e e')

include pair

/-- Each of the two steps is one of `vm`. -/
lemma step_eq : (boundedVm m host).step e = (vm m host).step e ∧
    (boundedVm m host).step e' = (vm m host).step e' :=
  ⟨boundedVm_step pair.inside (pair.reserved.answering _ _ .refl).1,
    boundedVm_step pair.inside' (pair.reserved.resuming _ _ .refl)⟩

/-- The pair after steps of both runs to states that are alike and inside the reserved slots. -/
lemma of_steps (st : (answeringVm m host).Steps (e, answers) (e₁, rest))
    (st' : (resumingVm m host).Steps (e', answers) (e₁', rest)) (alike : e₁.Alike e₁')
    (inside : e₁.InBounds) (inside' : e₁'.InBounds) : Paired m host rest e₁ e₁' where
  alike := alike
  inside := inside
  inside' := inside'
  suits :=
    ⟨fun _ _ _ _ _ _ st₁ => pair.suits.typed _ _ _ _ _ _ (st.trans st₁),
      fun _ _ st₁ => pair.suits.fits _ _ (st.trans st₁)⟩
  reserved :=
    ⟨fun _ _ st₁ => pair.reserved.answering _ _ (st.trans st₁),
      fun _ _ st₁ => pair.reserved.resuming _ _ (st'.trans st₁)⟩

/-- The two runs go on with states that are paired again, or end alike. -/
lemma rel : Turn.Rel (Paired m host answers) Executor.ExitAlike ((boundedVm m host).step e)
    ((boundedVm m host).step e') := by
  have both := vm_alike m host pair.alike
  rw [← pair.step_eq.1, ← pair.step_eq.2] at both
  generalize step : (boundedVm m host).step e = t at both
  generalize step' : (boundedVm m host).step e' = t' at both
  cases both with
  | next alike =>
    refine .next (pair.of_steps (.single (answeredVm_next step)) (.single (answeredVm_next step')) alike
      (boundedVm_next step).2 (boundedVm_next step').2)
  | halt alike => exact .halt alike

end Paired

/-- There is room for an answer that the answering run pushes, and it is pushed alike. -/
lemma pushParams_answer (h : e.Alike e')
    (fits : (pushValues r e.valueStack).length ≤ N_MAX_STACK_SIZE) :
    ∃ e₂, e'.pushParams r = some e₂ ∧
      ({ e with valueStack := pushValues r e.valueStack } : Executor T).Alike e₂ := by
  rw [length_pushValues] at fits
  rw [h]
  obtain ⟨e₁, room⟩ : ∃ e₁, ({ e with capacity := e'.capacity } : Executor T).reserve
      (slotCount (r.map Value.ty)) = some e₁ := ⟨_, if_pos fits⟩
  refine ⟨{ e₁ with valueStack := pushValues r e₁.valueStack }, ?_, ?_⟩
  · rw [Executor.pushParams, room, Option.map_some]
  · rw [Executor.reserve_frame room]
    rfl

/-- Where both runs are interrupted, both go on with the next answer: the one pushes it at once, the
other when it is resumed. -/
lemma Paired.answered (free : m.NoInterrupts) (pair : Paired m host (r :: answers) e e')
    (step : (boundedVm m host).step e = .halt (.trapped .interruptionCalled e₁))
    (step' : (boundedVm m host).step e' = .halt (.trapped .interruptionCalled e₁'))
    (alike : e₁.Alike e₁') :
    ∃ e₂ e₂', (answeringVm m host).step (e, r :: answers) = .next (e₂, answers) ∧
      e₁'.pushParams r = some e₂' ∧ Paired m host answers e₂ e₂' := by
  have interrupted := step
  rw [pair.step_eq.1] at interrupted
  obtain ⟨func, entity, call, found, answer⟩ := Executor.vm_interrupted free interrupted
  have typed := pair.suits.typed _ _ _ _ _ _ .refl step call found
  have len : r.length = entity.result.length := by rw [← typed, List.length_map]
  have room := (pair.reserved.answering _ _ .refl).2 r rfl
  have pushed : (boundedVm m (host.answering r)).step e =
      .next { e₁ with valueStack := pushValues r e₁.valueStack } :=
    (boundedVm_step pair.inside room).trans (answer r len)
  have goes : (answeringVm m host).step (e, r :: answers) = .next (_, answers) :=
    answeredVm_interrupted step pushed
  have fits := pair.suits.fits _ _ (.single goes)
  obtain ⟨e₂', resumed, alike₂⟩ := pushParams_answer alike fits
  have goes' : (resumingVm m host).step (e', r :: answers) = .next (e₂', answers) :=
    answeredVm_interrupted step' (by rw [resumed])
  exact ⟨_, e₂', goes, resumed, pair.of_steps (.single goes) (.single goes') alike₂
    (boundedVm_next pushed).2 (Executor.pushParams_inBounds resumed)⟩

/-- An interruption of one of the runs is one of the other. -/
lemma Executor.exitAlike_interrupted {exit' : Exit T}
    (h : ExitAlike (.trapped .interruptionCalled e₁) exit') :
    ∃ e₁', exit' = .trapped .interruptionCalled e₁' ∧ e₁.Alike e₁' := by
  cases exit' with
  | returned _ => exact absurd h id
  | undefined => exact absurd h id
  | trapped code e₁' =>
    obtain ⟨rfl, alike⟩ := h
    exact ⟨e₁', rfl, alike⟩

/-- The outcome does not depend on the reserved slots, unless they are remembered in it. -/
lemma settle_alike {exit' : Exit T} (h : Executor.ExitAlike exit exit')
    (final : ∀ s c, Executor.settle m exit result ≠ .interrupted s c) :
    Executor.settle m exit' result = Executor.settle m exit result := by
  cases exit with
  | returned e =>
    cases exit' with
    | returned e' =>
      obtain h : e.Alike e' := h
      rw [h]
      rfl
    | trapped code e' => exact absurd h id
    | undefined => exact absurd h id
  | trapped code e =>
    cases exit' with
    | returned e' => exact absurd h id
    | trapped code' e' =>
      obtain ⟨rfl, h⟩ := h
      rw [h]
      cases code <;> first | rfl | exact absurd rfl (final _ _)
    | undefined => exact absurd h id
  | undefined =>
    cases exit' with
    | returned e' => exact absurd h id
    | trapped code e' => exact absurd h id
    | undefined => rfl

/-- A step of the answering run is a step of the machine, its end, or an answered interruption. -/
lemma answeringVm_cases (m : RwasmModule) (host : Host T) (e : Executor T)
    (answers : List (List Value)) :
    (∃ e', (boundedVm m host).step e = .next e' ∧
      (answeringVm m host).step (e, answers) = .next (e', answers)) ∨
    (∃ exit, (boundedVm m host).step e = .halt exit ∧
      (answeringVm m host).step (e, answers) = .halt (exit, answers)) ∨
    ∃ r rest e₁, answers = r :: rest ∧
      (boundedVm m host).step e = .halt (.trapped .interruptionCalled e₁) := by
  cases h : (boundedVm m host).step e with
  | next e' => exact .inl ⟨e', rfl, answeredVm_next h⟩
  | halt exit =>
    by_cases interrupted : ∃ e₁, exit = .trapped .interruptionCalled e₁
    · obtain ⟨e₁, rfl⟩ := interrupted
      cases answers with
      | nil => exact .inr (.inl ⟨_, rfl, answeredVm_halt_nil h⟩)
      | cons r rest => exact .inr (.inr ⟨r, rest, e₁, rfl, rfl⟩)
    · refine .inr (.inl ⟨exit, rfl, ?_⟩)
      simp only [answeringVm, answeredVm, h]
      split
      next eq =>
        cases eq
        exact absurd ⟨_, rfl⟩ interrupted
      next eq => cases eq
      next eq _ =>
        cases eq
        rfl

/-- The answering run is reproduced by a call and the resumptions after it. -/
lemma resumes_of_answering (free : m.NoInterrupts)
    (halts : (answeringVm m host).Halts (e, answers) (exit, []))
    (pair : Paired m host answers e e') :
    ∃ exit₁ exit', (boundedVm m host).Halts e' exit₁ ∧ Executor.ExitAlike exit exit' ∧
      Resumes host result answers (Executor.settle m exit₁ result)
        (Executor.settle m exit' result) := by
  obtain ⟨⟨e₀, rest⟩, st, last⟩ := halts
  generalize hs : (e, answers) = start at st
  induction st using Relation.ReflTransGen.head_induction_on generalizing e e' answers with
  | refl =>
    cases hs
    have rel := pair.rel
    rcases answeringVm_cases m host e₀ rest with ⟨_, -, eq⟩ | ⟨exit₀, step, eq⟩ | ⟨r, rest, e₁, rfl, step⟩
    · cases eq.symm.trans last
    · cases eq.symm.trans last
      rw [step] at rel
      generalize ht : (boundedVm m host).step e' = turn at rel
      cases rel with
      | halt alike => exact ⟨_, _, .now ht, alike, .done⟩
    · rw [step] at rel
      generalize ht : (boundedVm m host).step e' = turn at rel
      cases rel with
      | halt alike =>
        obtain ⟨e₁', rfl, same⟩ := Executor.exitAlike_interrupted alike
        obtain ⟨_, _, goes, -⟩ := pair.answered free step ht same
        cases goes.symm.trans last
  | head hstep st ih =>
    subst hs
    have rel := pair.rel
    rcases answeringVm_cases m host e answers with ⟨e₁, step, eq⟩ | ⟨_, -, eq⟩ | ⟨r, rest', e₁, rfl, step⟩
    · cases eq.symm.trans hstep
      rw [step] at rel
      generalize ht : (boundedVm m host).step e' = turn at rel
      cases rel with
      | next pair =>
        obtain ⟨exit₁, exit', halts, final⟩ := ih pair rfl
        exact ⟨exit₁, exit', (Machine.Steps.single ht).halts halts, final⟩
    · cases eq.symm.trans hstep
    · rw [step] at rel
      generalize ht : (boundedVm m host).step e' = turn at rel
      cases rel with
      | halt alike =>
        obtain ⟨e₁', rfl, same⟩ := Executor.exitAlike_interrupted alike
        obtain ⟨e₂, e₂', goes, pushed, pair₂⟩ := pair.answered free step ht same
        cases goes.symm.trans hstep
        obtain ⟨exit₂, exit', halts, final, resumes⟩ := ih pair₂ rfl
        refine ⟨_, exit', .now ht, final, .resume ?_ resumes⟩
        simp only [Resume, ReusableContext.executor, Executor.BoundedRun]
        rw [pushed]
        exact ⟨exit₂, halts, rfl⟩

/-- Only an interruption is remembered, with the state it left. -/
lemma settle_interrupted {store context}
    (h : Executor.settle m exit result = .interrupted store context) :
    ∃ e₁, exit = .trapped .interruptionCalled e₁ ∧ context.module = m ∧
      context.executor store = e₁ := by
  cases exit with
  | returned e =>
    simp only [Executor.settle] at h
    split at h <;> cases h
  | trapped code e =>
    cases code <;> cases h
    exact ⟨e, rfl, rfl, rfl⟩
  | undefined => cases h

/-- A run without interruptions, followed on both sides. -/
lemma Paired.run {s' : Executor T} (pair : Paired m host answers e e')
    (st : (boundedVm m host).Steps e' s') :
    ∃ s, (boundedVm m host).Steps e s ∧ Paired m host answers s s' := by
  have sim (s t : Executor T) (h : flip (Paired m host answers) s t) :
      Turn.Rel (flip (Paired m host answers)) (flip Executor.ExitAlike) ((boundedVm m host).step s)
        ((boundedVm m host).step t) :=
    (Paired.rel h).flip
  exact st.lockstep sim pair

/-- The outcome of a call, and the resumptions after it, are reproduced by the answering run. -/
lemma answering_of_resumes (free : m.NoInterrupts) {first out : Outcome T}
    (resumes : Resumes host result answers first out) {exit₁ : Exit T}
    (halts : (boundedVm m host).Halts e' exit₁) (first_eq : first = Executor.settle m exit₁ result)
    (pair : Paired m host answers e e') :
    ∃ exit exit', (answeringVm m host).Halts (e, answers) (exit, []) ∧
      Executor.ExitAlike exit exit' ∧ out = Executor.settle m exit' result := by
  induction resumes generalizing e e' exit₁ with
  | done =>
    obtain ⟨s', st', last'⟩ := halts
    obtain ⟨s, st, pair⟩ := pair.run st'
    have rel := pair.rel
    rw [last'] at rel
    generalize ht : (boundedVm m host).step s = turn at rel
    cases rel with
    | halt alike =>
      exact ⟨_, exit₁, ⟨_, answeredVm_steps st, answeredVm_halt_nil ht⟩, alike, first_eq⟩
  | @resume store context r answers out final resumed _ ih =>
    obtain ⟨e₁', rfl, module_eq, executor_eq⟩ := settle_interrupted first_eq.symm
    obtain ⟨s', st', last'⟩ := halts
    obtain ⟨s, st, pair⟩ := pair.run st'
    have rel := pair.rel.flip
    rw [last'] at rel
    generalize ht : (boundedVm m host).step s = turn at rel
    cases rel with
    | @halt _ exit alike =>
      obtain ⟨e₁, rfl, same⟩ := Executor.exitAlike_interrupted (Executor.ExitAlike.symm alike)
      obtain ⟨e₂, e₂', goes, pushed, pair₂⟩ := pair.answered free ht last' same.symm
      simp only [Resume, Executor.BoundedRun, module_eq, executor_eq, pushed] at resumed
      obtain ⟨exit₂, halts₂, out_eq⟩ := resumed
      obtain ⟨exit₃, exit₄, halts₃, alike₃, final_eq⟩ := ih halts₂ out_eq pair₂
      have st₂ : (answeringVm m host).Steps (e, r :: answers) (e₂, answers) :=
        (answeredVm_steps st).trans (.single goes)
      exact ⟨exit₃, exit₄, st₂.halts halts₃, alike₃, final_eq⟩

end Answering

/-- As long as every push lands in reserved slots, a call of `execute`, with a call of `resume` for each
interruption, ends as the call of `execute` whose handler returns the same answers at once: with the same
results, store and trap. -/
theorem resume_transparent {store : Store T} {params result : List Value}
    {answers : List (List Value)} {out : Outcome T} (free : m.NoInterrupts)
    (suits : ∀ e, (Executor.fresh store m.sourcePc).pushParams params = some e →
      Suits m host e answers)
    (reserved : ∀ e, (Executor.fresh store m.sourcePc).pushParams params = some e →
      Reserved m host e e answers)
    (final : ∀ s c, out ≠ .interrupted s c) :
    (∃ first, Execute m host store params result first ∧
        Resumes host result answers first out) ↔
      ExecuteAnswering m host store params result answers out := by
  unfold Execute Executor.BoundedRun ExecuteAnswering
  cases start : (Executor.fresh store m.sourcePc).pushParams params with
  | none =>
    constructor
    · rintro ⟨first, rfl, resumes⟩
      cases resumes
      exact ⟨rfl, rfl⟩
    · rintro ⟨rfl, rfl⟩
      exact ⟨_, rfl, .done⟩
  | some e =>
    have inside := Executor.pushParams_inBounds start
    have pair : Paired m host answers e e :=
      ⟨Executor.alike_refl e, inside, inside, suits e start, reserved e start⟩
    constructor
    · rintro ⟨first, ⟨exit₁, halts, first_eq⟩, resumes⟩
      obtain ⟨exit, exit', halts', alike, rfl⟩ :=
        answering_of_resumes free resumes halts first_eq pair
      exact ⟨exit, halts', (settle_alike alike.symm final).symm⟩
    · rintro ⟨exit, halts, rfl⟩
      obtain ⟨exit₁, exit', halts', alike, resumes⟩ := resumes_of_answering free halts pair
      rw [settle_alike alike final] at resumes
      exact ⟨_, ⟨exit₁, halts', rfl⟩, resumes⟩

/-- An import without parameters that returns an `i64`. -/
def delayed : ImportLinkerEntity where
  sysFuncIdx := 1
  syscallFuelParam := .none
  params := []
  result := [.i64]
  intrinsic := none

/-- A host that interrupts every call. -/
def pausingHost : Host Unit where
  importLinker := Executor.linkerOf delayed
  syscallHandler :=
    { invoke := fun c _ _ rs => ⟨c, rs, .error .interruptionCalled⟩
      length_result := fun _ _ _ _ => rfl
      length_memory := fun _ _ _ _ => rfl
      currentPages_eq := fun _ _ _ _ => rfl
      maxPages_eq := fun _ _ _ _ => rfl }

/-- A module that calls the import and returns. -/
def pausingModule : RwasmModule where
  codeSection := [.call 1, .ret]

/-- A call that is interrupted once, and resumed with `7`, returns `7`. -/
theorem resume_transparent_once :
    ∃ first, Execute pausingModule pausingHost (.new () none none) [] [.i64 0] first ∧
      Resumes pausingHost [.i64 0] [[.i64 7]] first (.ok [.i64 7] (.new () none none)) := by
  have free : pausingModule.NoInterrupts := by
    intro i h
    rcases i with _ | _ | i <;> cases h
  have answered : (answeringVm pausingModule pausingHost).run 2
      (Executor.fresh (.new () none none) 0, [[.i64 7]]) =
        .halt (.returned ⟨[0, 7], 32, [], 1, .new () none none⟩, []) := rfl
  have resumed : (resumingVm pausingModule pausingHost).run 2
      (Executor.fresh (.new () none none) 0, [[.i64 7]]) =
        .halt (.returned ⟨[0, 7], 32, [], 1, .new () none none⟩, []) := rfl
  refine (resume_transparent free ?_ ?_ fun _ _ h => by cases h).mpr
    ⟨_, Machine.halts_of_run answered, rfl⟩
  · rintro _ ⟨⟩
    constructor
    · intro e' r rest e₁ func entity st _ call found
      obtain ⟨k, lt, reached⟩ := st.run_lt answered
      interval_cases k
      · cases reached
        rcases call with call | call
        · cases call
          cases found
          rfl
        · cases call
      · cases reached
    · intro e' rest st
      obtain ⟨k, lt, reached⟩ := st.run_lt answered
      interval_cases k <;> cases reached <;> decide
  · rintro _ ⟨⟩
    constructor
    · intro e' rest st
      obtain ⟨k, lt, reached⟩ := st.run_lt answered
      interval_cases k
      · cases reached
        refine ⟨fun op found => ?_, fun r next op found => ?_⟩
        · cases found
          rintro _ _ _ _ ⟨⟩ ⟨⟩ ⟨⟩ _ (status | status) <;> cases status
        · cases next
          cases found
          rintro _ _ _ _ ⟨⟩ ⟨⟩ ⟨⟩ _ -
          decide
      · cases reached
        refine ⟨fun op found => ?_, fun r next => ?_⟩
        · cases found
          decide
        · cases next
    · intro e' rest st
      obtain ⟨k, lt, reached⟩ := st.run_lt resumed
      interval_cases k
      · cases reached
        intro op found
        cases found
        rintro _ _ _ _ ⟨⟩ ⟨⟩ ⟨⟩ _ (status | status) <;> cases status
      · cases reached
        intro op found
        cases found
        decide

/-- An import without parameters that returns twenty numbers of 64 bits. -/
def wide : ImportLinkerEntity where
  sysFuncIdx := 1
  syscallFuelParam := .none
  params := []
  result := List.replicate 20 .i64
  intrinsic := none

/-- A host that interrupts every call of it. -/
def wideHost : Host Unit where
  importLinker := Executor.linkerOf wide
  syscallHandler := pausingHost.syscallHandler

/-- What the compiler makes of a module that exports this import as its entry point. -/
def wideModule : RwasmModule where
  codeSection := [.stackCheck 5, .ret, .returnCallInternal 3, .signatureCheck 0, .stackCheck 0,
    .call 1, .ret]
  sourcePc := 2

/-- The twenty results that are returned at once are pushed beyond the slots the call has reserved; those
it is resumed with find their slots reserved. -/
theorem not_resume_transparent :
    ¬ ∀ (m : RwasmModule) (host : Host Unit) (store : Store Unit) (params result : List Value)
      (answers : List (List Value)) (out : Outcome Unit), m.NoInterrupts →
      (∀ e, (Executor.fresh store m.sourcePc).pushParams params = some e → Suits m host e answers) →
      (∀ s c, out ≠ .interrupted s c) →
      ((∃ first, Execute m host store params result first ∧ Resumes host result answers first out) ↔
        ExecuteAnswering m host store params result answers out) := by
  intro all
  have free : wideModule.NoInterrupts := by
    intro i h
    rcases i with _ | _ | _ | _ | _ | _ | _ | i <;> cases h
  have answered : (answeringVm wideModule wideHost).run 4
      (Executor.fresh (.new () none none) 2, [List.replicate 20 (.i64 7)]) =
        .halt (.undefined, []) := rfl
  have suits : ∀ e, (Executor.fresh (Store.new () none none) wideModule.sourcePc).pushParams [] = some e →
      Suits wideModule wideHost e [List.replicate 20 (.i64 7)] := by
    rintro _ ⟨⟩
    constructor
    · intro e' r rest e₁ func entity st _ call found
      obtain ⟨k, lt, reached⟩ := st.run_lt answered
      interval_cases k <;> cases reached <;> rcases call with call | call <;> cases call
      cases found
      rfl
    · intro e' rest st
      obtain ⟨k, lt, reached⟩ := st.run_lt answered
      interval_cases k <;> cases reached <;> decide
  have resumed : ∃ first, Execute wideModule wideHost (.new () none none) []
      (List.replicate 20 (.i64 0)) first ∧
        Resumes wideHost (List.replicate 20 (.i64 0)) [List.replicate 20 (.i64 7)] first
          (.ok (List.replicate 20 (.i64 7)) (.new () none none)) :=
    ⟨_, ⟨_, Machine.halts_of_run (n := 4) rfl, rfl⟩,
      .resume ⟨_, Machine.halts_of_run (n := 1) rfl, rfl⟩ .done⟩
  obtain ⟨exit, halts, out_eq⟩ := (all wideModule wideHost (.new () none none) [] _ _ _ free suits
    fun _ _ h => by cases h).mp resumed
  cases halts.unique (Machine.halts_of_run answered)
  cases out_eq

end Rwasm
