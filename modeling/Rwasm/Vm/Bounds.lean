import Rwasm.Vm.Engine
import Rwasm.Vm.Step

/-!
# The reserved slots

The value stack writes through a pointer (`ValueStackPtr::push`), and compares it with nothing: only
`ValueStack::reserve` makes room, and it is up to the code to have reserved enough. A write behind the
reserved slots is undefined. This is the machine in which it is, and what a state needs for its next step
to be the one of `vm`.
-/

namespace Rwasm

/-- The slots an instruction leaves on the stack beyond those it finds there. What a call to the host
leaves depends on the host. -/
def Opcode.growth : Opcode → Nat
  | .localGet _ | .refFunc _ | .i32Const _ | .globalGet _ | .memorySize | .tableSize _ => 1
  | .bulkConst locals => locals
  | _ => 0

section Stack

variable {vs : List Value} {ts : List ValType} {stack stack' : List UntypedValue}

/-- The stack a list of values is pushed on grows by their slots. -/
lemma length_pushValues (vs : List Value) (stack : List UntypedValue) :
    (pushValues vs stack).length = stack.length + slotCount (vs.map Value.ty) := by
  induction vs generalizing stack with
  | nil => rfl
  | cons v vs ih =>
    calc (pushValues vs (pushValue v stack)).length
      _ = (pushValue v stack).length + slotCount (vs.map Value.ty) := ih _
      _ = stack.length + slotCount ((v :: vs).map Value.ty) := by
        cases v <;> simp [pushValue, slotCount, Value.ty, ValType.slots] <;> omega

/-- A popped value was on the stack. -/
lemma length_popValue {t v} (h : popValue t stack = some (v, stack')) :
    stack'.length ≤ stack.length := by
  unfold popValue at h
  split at h <;> cases h
  all_goals
    simp only [List.length_cons]
    omega

/-- So were the values of a list of types. -/
lemma length_popValues (h : popValues ts stack = some (vs, stack')) :
    stack'.length ≤ stack.length := by
  induction ts generalizing stack vs with
  | nil =>
    cases h
    exact Nat.le_refl _
  | cons t ts ih =>
    simp only [popValues, Option.bind_eq_bind, Option.bind_eq_some_iff, Prod.exists] at h
    obtain ⟨v, st, popped, ws, st', rest, h⟩ := h
    cases h
    exact (ih rest).trans (length_popValue popped)

end Stack

namespace Executor

variable {T : Type} {m : RwasmModule} {host : Host T} {e e' : Executor T} {op : Opcode}

/-- The live slots lie inside the reserved ones. -/
def InBounds (e : Executor T) : Prop :=
  e.valueStack.length ≤ e.capacity

/-- Whether the stack is within its slots is decided by its length. -/
instance : DecidablePred (InBounds (T := T)) := fun _ => Nat.decLe _ _

/-- Every slot that a turn writes lies inside the reserved ones. -/
def WritesInside : Turn (Executor T) (Exit T) → Prop
  | .next e | .halt (.returned e) | .halt (.trapped _ e) => e.InBounds
  | .halt .undefined => True

/-- Whether a turn wrote inside is decided by the state it ends in. -/
instance : DecidablePred (WritesInside (T := T))
  | .next e | .halt (.returned e) | .halt (.trapped _ e) => inferInstanceAs (Decidable e.InBounds)
  | .halt .undefined => inferInstanceAs (Decidable True)

/-- The slots that are reserved once `additional` more fit. -/
def grownCapacity (e : Executor T) (additional : Nat) : Nat :=
  if e.capacity < e.valueStack.length + additional then
    e.capacity + (e.valueStack.length + additional)
  else
    e.capacity

/-- What `reserve` makes room for fits. -/
lemma le_grownCapacity (e : Executor T) (n : Nat) : e.valueStack.length + n ≤ e.grownCapacity n := by
  unfold grownCapacity
  split <;> omega

/-- A reservation grows the reserved slots and changes nothing else. -/
lemma reserve_eq {n} (h : e.reserve n = some e') : e' = { e with capacity := e.grownCapacity n } := by
  unfold reserve at h
  split at h
  · cases h
    rfl
  · cases h

/-- A reservation that is granted stays below the greatest stack. -/
lemma le_of_reserve {n} (h : e.reserve n = some e') : e.valueStack.length + n ≤ N_MAX_STACK_SIZE := by
  unfold reserve at h
  split at h
  · assumption
  · cases h

/-- The parameters of a run are pushed into reserved slots. -/
lemma pushParams_inBounds {params} (h : e.pushParams params = some e') : e'.InBounds := by
  obtain ⟨e₁, room, rfl⟩ := Option.map_eq_some_iff.mp h
  rw [reserve_eq room, InBounds, length_pushValues]
  exact le_grownCapacity e _

/-- The results of a call to the host fit into the slots it has reserved, if it pushes them. -/
def ResultsFit (host : Host T) (e : Executor T) (func : Nat) : Prop :=
  ∀ entity params stack result, host.importLinker.resolveByFuncIdx func = some entity →
    popValues entity.params e.valueStack = some (params, stack) →
    entity.result.mapM Value.default = some result →
    let reply := host.syscallHandler.invoke e.store.caller func params result
    reply.status = .ok () ∨ reply.status = .error .executionHalted →
      stack.length + slotCount (reply.result.map Value.ty) ≤
        e.grownCapacity (max entity.params.length entity.result.length)

/-- The next instruction finds reserved slots for all that it pushes. -/
def Room (m : RwasmModule) (host : Host T) (e : Executor T) : Prop :=
  ∀ op, m.codeSection[e.ip]? = some op →
    match op with
    | .call func | .returnCall func => e.ResultsFit host func
    | op => e.valueStack.length + op.growth ≤ e.capacity

/-- A call to the host whose results fit writes inside the reserved slots. -/
lemma invokeSyscall_writesInside {func} (inside : e.InBounds) (fit : e.ResultsFit host func) :
    WritesInside (e.invokeSyscall host func) := by
  cases hr : host.importLinker.resolveByFuncIdx func with
  | none =>
    simp only [invokeSyscall, hr]
    trivial
  | some entity =>
    cases room : e.reserve (max entity.params.length entity.result.length) with
    | none =>
      simp only [invokeSyscall, hr, room]
      exact inside
    | some e' =>
      have grown := reserve_eq room
      have live : e'.valueStack = e.valueStack := by rw [grown]
      cases hp : popValues entity.params e.valueStack with
      | none =>
        simp only [invokeSyscall, hr, room, live, hp]
        trivial
      | some r =>
        obtain ⟨params, stack⟩ := r
        cases hd : entity.result.mapM Value.default with
        | none =>
          simp only [invokeSyscall, hr, room, live, hp, hd]
          trivial
        | some result =>
          have fit := fit entity params stack result hr hp hd
          have below : stack.length ≤ e'.capacity := by
            rw [grown]
            exact (length_popValues hp).trans ((Nat.le_add_right _ _).trans (le_grownCapacity e _))
          rw [invokeSyscall_eq host hr room hp hd]
          simp only [afterSyscall]
          split
          next status =>
            rw [WritesInside, InBounds, length_pushValues, grown]
            exact fit (.inl status)
          next status =>
            rw [WritesInside, InBounds, length_pushValues, grown]
            exact fit (.inr status)
          · exact below

/-- Looking up a callee takes its number off the stack. -/
lemma resolveIndirect_length {signature r} (h : e.resolveIndirect m signature = some (r, e')) :
    e'.valueStack.length ≤ e.valueStack.length := by
  unfold resolveIndirect at h
  split at h
  next table index stack _ live =>
    have less : stack.length ≤ e.valueStack.length := by simp [live]
    dsimp only at h
    repeat' split at h
    all_goals cases h
    all_goals exact less
  · cases h

/-- An operation on the stack that succeeds leaves its value on what is below its operands. -/
lemma tryAdvance_length {r : Except TrapCode UntypedValue} {stack : List UntypedValue}
    (h : e.tryAdvance (r.map (· :: stack)) = .next e') : e'.valueStack.length = stack.length + 1 := by
  cases r with
  | ok v =>
    cases h
    rfl
  | error code => cases h

/-- The stack grows by no more than an instruction pushes. -/
lemma step_length (h : e.step m host op = .next e') (internal : ¬ op.IsSyscall) :
    e'.valueStack.length ≤ e.valueStack.length + op.growth := by
  cases op
  case call | returnCall => exact absurd trivial internal
  case localGet | tableSize =>
    simp only [step, visitLocalGet, visitTableSize] at h
    repeat' split at h
    all_goals cases h
    all_goals exact Nat.le_refl _
  case globalGet | refFunc | i32Const | memorySize =>
    cases h
    exact Nat.le_refl _
  case bulkConst locals =>
    cases h
    rw [List.length_append, List.length_replicate, Nat.add_comm]
    exact Nat.le_refl _
  all_goals refine Nat.le_trans ?_ (Nat.le_add_right _ _)
  case callIndirect | returnCallIndirect =>
    simp only [step, visitCallIndirect, visitReturnCallIndirect] at h
    split at h
    · cases h
    · cases h
    next found =>
      have less := resolveIndirect_length found
      repeat' split at h
      all_goals cases h
      all_goals exact less
  case consumeFuelStack =>
    simp only [step, visitConsumeFuelStack] at h
    split at h
    next fuel stack live =>
      rw [visitConsumeFuel_frame h, live]
      exact Nat.le_succ _
    · cases h
  case consumeFuel =>
    rw [visitConsumeFuel_frame h]
  case stackCheck =>
    simp only [step, visitStackCheck] at h
    split at h
    next reserved =>
      cases h
      rw [reserve_eq reserved]
      exact Nat.le_refl _
    · cases h
  case load | fallible =>
    simp only [step, visitLoad, visitFallible] at h
    split at h
    next live =>
      rw [tryAdvance_length h, live]
      simp only [List.length_cons]
      omega
    · cases h
  all_goals
    simp only [step, visitLocalSet, visitLocalTee, jump, visitBrIf, visitBrIfNez,
      visitBrTable, visitReturn, visitReturnCallInternal, visitCallInternal, visitSignatureCheck,
      visitSelect, visitGlobalSet, visitStore, visitMemoryGrow, visitMemoryFill,
      visitMemoryCopy, visitMemoryInit, visitDataDrop, visitTableGrow, visitTableFill, visitTableGet,
      visitTableSet, visitTableCopy, visitTableInit, visitElementDrop, visitUnary, visitBinary,
      visitWide, visitBulkDrop, tryTable] at h
    repeat' split at h
    all_goals cases h
  all_goals
    simp only [advance, setData, setTable, pushValue, List.length_cons, List.length_set,
      List.length_drop, *]
    omega

/-- An instruction that traps has pushed nothing. -/
lemma step_trapped_length {code} (h : e.step m host op = .halt (.trapped code e'))
    (internal : ¬ op.IsSyscall) : e'.valueStack.length ≤ e.valueStack.length := by
  cases op
  case call | returnCall => exact absurd trivial internal
  case callIndirect | returnCallIndirect =>
    simp only [step, visitCallIndirect, visitReturnCallIndirect] at h
    split at h
    · cases h
    next found =>
      cases h
      exact resolveIndirect_length found
    next found =>
      have less := resolveIndirect_length found
      repeat' split at h
      all_goals cases h
      all_goals exact less
  all_goals
    simp only [step, visitLocalGet, visitLocalSet, visitLocalTee, jump, visitBrIf, visitBrIfNez,
      visitBrTable, visitConsumeFuel, visitConsumeFuelStack, visitReturn, visitReturnCallInternal,
      visitCallInternal, visitSignatureCheck, visitStackCheck, visitSelect, visitGlobalGet,
      visitGlobalSet, visitLoad, visitStore, visitMemorySize, visitMemoryGrow, visitMemoryFill,
      visitMemoryCopy, visitMemoryInit, visitDataDrop, visitTableSize, visitTableGrow, visitTableFill,
      visitTableGet, visitTableSet, visitTableCopy, visitTableInit, visitElementDrop, visitUnary,
      visitBinary, visitFallible, visitWide, visitBulkDrop, tryTable, tryAdvance] at h
    repeat' split at h
    all_goals cases h
  all_goals first
    | exact Nat.le_refl _
    | simp only [List.length_cons, *]
      omega

/-- Only calls to the host and reservations change the reserved slots. -/
lemma step_capacity (h : e.step m host op = .next e') (internal : ¬ op.IsSyscall) :
    e.capacity ≤ e'.capacity := by
  have frame := step_frame h
  cases op
  case call | returnCall => exact absurd trivial internal
  case stackCheck height =>
    simp only [step, visitStackCheck] at h
    split at h
    next reserved =>
      cases h
      rw [reserve_eq reserved, grownCapacity]
      simp only [advance]
      split <;> omega
    · cases h
  all_goals
    simp only [Frame] at frame
    rw [frame]

/-- An instruction that finds reserved slots for what it pushes writes inside them. -/
lemma step_writesInside (inside : e.InBounds) (internal : ¬ op.IsSyscall)
    (room : e.valueStack.length + op.growth ≤ e.capacity) : WritesInside (e.step m host op) := by
  cases h : e.step m host op with
  | next e' =>
    calc e'.valueStack.length
      _ ≤ e.valueStack.length + op.growth := step_length h internal
      _ ≤ e.capacity := room
      _ ≤ e'.capacity := step_capacity h internal
  | halt exit =>
    have stop := step_stop h
    cases exit with
    | undefined => trivial
    | returned e' =>
      obtain ⟨-, rfl⟩ := stop
      exact inside
    | trapped code e' =>
      have same : e'.capacity = e.capacity := by
        cases op
        case call | returnCall => exact absurd trivial internal
        all_goals
          simp only [StopFrame] at stop
          rw [stop]
      calc e'.valueStack.length
        _ ≤ e.valueStack.length := step_trapped_length h internal
        _ ≤ e.capacity := inside
        _ = e'.capacity := same.symm

end Executor

/-- The machine of a module, in which a write behind the reserved slots of the value stack is
undefined. -/
def boundedVm {T : Type} (m : RwasmModule) (host : Host T) : Machine (Executor T) (Exit T) :=
  (vm m host).guarded Executor.WritesInside .undefined

variable {T : Type} {m : RwasmModule} {host : Host T} {e e' : Executor T} {exit : Exit T}

/-- With room for the next instruction the two machines do the same. -/
lemma boundedVm_step (inside : e.InBounds) (room : e.Room m host) :
    (boundedVm m host).step e = (vm m host).step e := by
  refine Machine.guarded_step ?_
  simp only [vm]
  split
  next op found =>
    have room := room op found
    by_cases syscall : op.IsSyscall
    · cases op
      case call func | returnCall func => exact Executor.invokeSyscall_writesInside inside room
      all_goals exact absurd syscall id
    · refine Executor.step_writesInside inside syscall ?_
      cases op
      case call | returnCall => exact absurd trivial syscall
      all_goals exact room
  · trivial

/-- A step that goes on has written inside the reserved slots. -/
lemma boundedVm_next (h : (boundedVm m host).step e = .next e') :
    (vm m host).step e = .next e' ∧ e'.InBounds :=
  Machine.guarded_next_iff.mp h

/-- A return pushes nothing. -/
lemma boundedVm_return (code : m.codeSection[e.ip]? = some .ret) (inside : e.InBounds) :
    (boundedVm m host).step e = e.visitReturn := by
  refine (boundedVm_step inside fun op found => ?_).trans ?_
  · rw [code] at found
    cases found
    exact inside
  · simp only [vm, code]
    rfl

/-- This machine inside the code from address `lo` to address `hi`. -/
def boundedWithin (m : RwasmModule) (host : Host T) (lo hi : Nat) :
    Machine (Executor T) (Turn (Executor T) (Exit T)) :=
  (boundedVm m host).within fun e => lo ≤ e.ip ∧ e.ip < hi

section Within

variable {lo hi : Nat} {op : Opcode} {e'' : Executor T}

/-- A run that starts with a known instruction of the code, which finds room for what it pushes. -/
lemma boundedWithin_next (inside : lo ≤ e.ip ∧ e.ip < hi) (code : m.codeSection[e.ip]? = some op)
    (h : e.step m host op = .next e') (fits : e'.InBounds)
    (rest : (boundedWithin m host lo hi).Steps e' e'') : (boundedWithin m host lo hi).Steps e e'' := by
  refine .head (Machine.within_next inside (Machine.guarded_next_iff.mpr ⟨?_, fits⟩)) rest
  simp only [vm, code, h]

/-- An instruction of the code that stops the machine. -/
lemma boundedWithin_halt (inside : lo ≤ e.ip ∧ e.ip < hi) (code : m.codeSection[e.ip]? = some op)
    (h : e.step m host op = .halt exit) (fits : Executor.WritesInside (.halt exit)) :
    (boundedWithin m host lo hi).Halts e (.halt exit) := by
  have same : (vm m host).step e = .halt exit := by simp only [vm, code, h]
  refine Machine.within_halt inside ((Machine.guarded_step ?_).trans same)
  rw [same]
  exact fits

/-- An instruction of the code that finds no room for what it pushes. -/
lemma boundedWithin_cramped (inside : lo ≤ e.ip ∧ e.ip < hi) (code : m.codeSection[e.ip]? = some op)
    (h : e.step m host op = .next e') (cramped : ¬ e'.InBounds) :
    (boundedWithin m host lo hi).Halts e (.halt .undefined) := by
  refine Machine.within_halt inside (Machine.guarded_bad ?_)
  simp only [vm, code, h]
  exact cramped

end Within

/-- `RwasmExecutor::run`, where a write behind the reserved slots is undefined. -/
def Executor.BoundedRun (m : RwasmModule) (host : Host T) (e : Executor T)
    (params result : List Value) (out : Outcome T) : Prop :=
  match e.pushParams params with
  | none => out = .err .stackOverflow e.store
  | some e => ∃ exit, (boundedVm m host).Halts e exit ∧ out = settle m exit result

/-- `ExecutionEngine::execute`. -/
def Execute (m : RwasmModule) (host : Host T) (store : Store T) (params result : List Value)
    (out : Outcome T) : Prop :=
  (Executor.fresh store m.sourcePc).BoundedRun m host params result out

/-- `ExecutionEngine::resume`. -/
def Resume (host : Host T) (store : Store T) (context : ReusableContext)
    (params result : List Value) (out : Outcome T) : Prop :=
  (context.executor store).BoundedRun context.module host params result out

end Rwasm
