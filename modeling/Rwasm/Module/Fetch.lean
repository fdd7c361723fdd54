import Rwasm.Module.Verification
import Rwasm.Vm.Operands

/-!
# Where a verified module fetches

The loop reads the instruction at its pointer unchecked. Branches, branch tables and calls of a
verified module stay within its code, and so do the `TableGet`s that some instructions read behind
themselves. What is not checked are the operands on the stack, an instruction that goes on behind itself,
a return address, and the entries of a table: a run stays within the code exactly when none of these goes
wrong.
-/

namespace Rwasm

variable {T : Type} {m : RwasmModule} {host : Host T}

/-- The target of a branch that passes its check. -/
lemma verifyBranchTarget_ok {codeLen pc : Nat} {offset : Int}
    (h : verifyBranchTarget codeLen pc offset = .ok ()) :
    0 ≤ (pc : Int) + offset ∧ (pc : Int) + offset < codeLen := by
  unfold verifyBranchTarget at h
  split_ifs at h
  omega

/-- The instructions that name a table by the `TableGet` behind them. -/
def Opcode.ReadsNext : Opcode → Prop
  | .callIndirect _ | .returnCallIndirect _ | .tableInit _ => True
  | _ => False

/-- A verified instruction that names a table so has one behind it. -/
lemma fetchTableIndex_of_verified {e : Executor T} (op : Opcode) (reads : op.ReadsNext)
    (ok : verifyOpcode m.codeSection e.ip op = .ok ()) : ∃ table, e.fetchTableIndex m = some table := by
  have payload : verifyTableIndexPayload m.codeSection e.ip = .ok () := by
    cases op
    case callIndirect | returnCallIndirect => exact ok
    case tableInit segment =>
      rw [verifyOpcode] at ok
      split_ifs at ok
      exact ok
    all_goals exact absurd reads id
  unfold verifyTableIndexPayload at payload
  split at payload
  · cases payload
  next table code => exact ⟨table, by rw [Executor.fetchTableIndex, code]⟩
  · cases payload

/-- A table that is named so is named inside the code. -/
lemma next_lt {e : Executor T} {table : Nat} (next : e.fetchTableIndex m = some table) :
    e.ip + 1 < m.codeSection.length := by
  unfold Executor.fetchTableIndex at next
  split at next
  next code => exact (List.getElem?_eq_some_iff.mp code).1
  · cases next

namespace Executor

variable {e e' : Executor T} {op : Opcode}

/-- How far the pointer advances after an instruction that goes on behind itself. -/
def fallthrough (op : Opcode) (e : Executor T) : Option Nat :=
  match op with
  | .br _ | .brTable _ | .ret | .returnCallInternal _ | .returnCallIndirect _ | .callInternal _
  | .callIndirect _ => none
  | .brIfEqz _ =>
    match e.valueStack with
    | c :: _ => if c.toBool then some 1 else none
    | [] => none
  | .brIfNez _ =>
    match e.valueStack with
    | c :: _ => if c.toBool then none else some 1
    | [] => none
  | .tableInit _ => some 2
  | _ => some 1

/-- The instruction pointers an instruction can move to. -/
inductive Moves (m : RwasmModule) (e : Executor T) : Opcode → Nat → Prop
  | falls {op n} :
    e.fallthrough op = some n →
    Moves m e op (e.ip + n)
  | branches {op offset} {pc : Nat} :
    op = .br offset ∨ op = .brIfEqz offset ∨ op = .brIfNez offset →
    e.fallthrough op = none →
    (pc : Int) = e.ip + offset →
    Moves m e op pc
  | selects {targets i} :
    i < targets →
    Moves m e (.brTable targets) (e.ip + (2 * i + 1))
  | calls {op func} :
    op = .callInternal func ∨ op = .returnCallInternal func →
    Moves m e op func
  | returns {pc rest} :
    e.callStack = pc :: rest →
    Moves m e .ret pc
  | callsIndirect {op signature func e₁} :
    op = .callIndirect signature ∨ op = .returnCallIndirect signature →
    e.resolveIndirect m signature = some (.ok func, e₁) →
    Moves m e op func.toNat

/-- A branch moves by its offset. -/
lemma moves_jump {stack offset} (h : ({ e with valueStack := stack } : Executor T).jump offset = .next e')
    (branch : op = .br offset ∨ op = .brIfEqz offset ∨ op = .brIfNez offset)
    (taken : e.fallthrough op = none) : Moves m e op e'.ip := by
  unfold jump at h
  split at h
  · cases h
    exact .branches branch taken (Int.toNat_of_nonneg ‹_›)
  · cases h

/-- A step moves the instruction pointer as its instruction does. -/
theorem step_moves (h : e.step m host op = .next e') : Moves m e op e'.ip := by
  cases op
  case br offset => exact moves_jump h (.inl rfl) rfl
  case brIfEqz offset =>
    simp only [step, visitBrIf] at h
    split at h
    next c stack hs =>
      split at h
      next hc =>
        cases h
        exact .falls (by simp [fallthrough, hs, hc])
      next hc => exact moves_jump h (.inr (.inl rfl)) (by simp [fallthrough, hs, hc])
    · cases h
  case brIfNez offset =>
    simp only [step, visitBrIfNez] at h
    split at h
    next c stack hs =>
      split at h
      next hc => exact moves_jump h (.inr (.inr rfl)) (by simp [fallthrough, hs, hc])
      next hc =>
        cases h
        exact .falls (by simp [fallthrough, hs, hc])
    · cases h
  case brTable targets =>
    simp only [step, visitBrTable] at h
    split at h
    next maxIndex index stack =>
      cases h
      exact .selects (Nat.lt_succ_of_le (Nat.min_le_right _ _))
    · cases h
  case ret =>
    simp only [step, visitReturn] at h
    split at h
    next hs =>
      cases h
      exact .returns hs
    · cases h
  case returnCallInternal func =>
    cases h
    exact .calls (.inr rfl)
  case callInternal func =>
    simp only [step, visitCallInternal] at h
    split at h
    · cases h
    · cases h
      exact .calls (.inl rfl)
  case returnCallIndirect signature =>
    simp only [step, visitReturnCallIndirect] at h
    split at h
    · cases h
    · cases h
    next hr =>
      cases h
      exact .callsIndirect (.inr rfl) hr
  case callIndirect signature =>
    simp only [step, visitCallIndirect] at h
    split at h
    · cases h
    · cases h
    next hr =>
      split at h
      · cases h
      · cases h
        exact .callsIndirect (.inl rfl) hr
  case call func | returnCall func =>
    have hf := invokeSyscall_frame h
    rw [hf]
    exact .falls rfl
  case consumeFuel fuel =>
    rw [visitConsumeFuel_frame h]
    exact .falls rfl
  case consumeFuelStack =>
    simp only [step, visitConsumeFuelStack] at h
    split at h
    · rw [visitConsumeFuel_frame h]
      exact .falls rfl
    · cases h
  case stackCheck height =>
    simp only [step, visitStackCheck] at h
    split at h
    next hr =>
      cases h
      rw [reserve_frame hr]
      exact .falls rfl
    · cases h
  all_goals
    simp only [step, visitLocalGet, visitLocalSet, visitLocalTee, visitSignatureCheck, visitSelect,
      visitGlobalGet, visitGlobalSet, visitLoad, visitStore, visitMemorySize, visitMemoryGrow,
      visitMemoryFill, visitMemoryCopy, visitMemoryInit, visitDataDrop, visitTableSize,
      visitTableGrow, visitTableFill, visitTableGet, visitTableSet, visitTableCopy, visitTableInit,
      visitElementDrop, visitUnary, visitBinary, visitFallible, visitWide, visitBulkDrop, tryTable,
      tryAdvance] at h
    repeat' split at h
    all_goals cases h
  all_goals exact .falls rfl

/-- A verified instruction is undefined exactly where the source panics or an operand is missing. -/
theorem step_undefined_iff (ok : verifyOpcode m.codeSection e.ip op = .ok ()) :
    e.step m host op = .halt .undefined ↔ e.Panics m host op ∨ e.Underflows host op := by
  cases op
  case call func | returnCall func => exact invokeSyscall_undefined_iff m (e := e.advance 1)
  case br offset | brIfEqz offset | brIfNez offset =>
    have target := (verifyBranchTarget_ok ok).1
    obtain ⟨_ | ⟨c, stack⟩, capacity, callStack, ip, store⟩ := e
    all_goals
      simp only [Panics, Underflows, Opcode.reach, step, visitBrIf, visitBrIfNez, jump, if_pos target]
      repeat' split
    all_goals simp
  case callIndirect signature | returnCallIndirect signature =>
    obtain ⟨table, next⟩ := fetchTableIndex_of_verified (.callIndirect signature) trivial ok
    have asked : (∀ table, e.fetchTableIndex m = some table → e.store.tables table = none) ↔
        e.store.tables table = none := by
      simp [next]
    simp only [Panics, Underflows, Opcode.reach]
    rw [asked, ← resolveIndirect_eq_none_iff signature next]
    simp only [step, visitCallIndirect, visitReturnCallIndirect]
    repeat' split
    all_goals simp [*]
  case tableInit segment =>
    obtain ⟨table, next⟩ := fetchTableIndex_of_verified (.tableInit segment) trivial ok
    obtain ⟨stack, capacity, callStack, ip, store⟩ := e
    rcases stack with _ | ⟨a, _ | ⟨b, _ | ⟨c, stack⟩⟩⟩
    all_goals cases found : store.tables table
    all_goals
      simp only [Panics, Underflows, Opcode.reach, step, visitTableInit, tryTable, next, found]
      repeat' split
    all_goals simp_all
  case tableFill table | tableGet table | tableSet table =>
    obtain ⟨stack, capacity, callStack, ip, store⟩ := e
    rcases stack with _ | ⟨a, _ | ⟨b, _ | ⟨c, stack⟩⟩⟩
    all_goals cases found : store.tables table
    all_goals
      simp only [Panics, Underflows, Opcode.reach, step, visitTableFill, visitTableGet,
        visitTableSet, tryTable, found]
      repeat' split
    all_goals simp
  case tableCopy dst src =>
    obtain ⟨stack, capacity, callStack, ip, store⟩ := e
    rcases stack with _ | ⟨a, _ | ⟨b, _ | ⟨c, stack⟩⟩⟩
    all_goals cases found : store.tables dst
    all_goals cases found' : store.tables src
    all_goals
      simp only [Panics, Underflows, Opcode.reach, step, visitTableCopy, tryTable, found, found']
      repeat' split
    all_goals simp
  case localGet depth =>
    obtain _ | n := depth
    · cases ok
    simp only [Panics, Underflows, Opcode.reach, step, visitLocalGet]
    split
    next live =>
      have lt := (List.getElem?_eq_some_iff.mp live).1
      simp
      omega
    next live =>
      have le := List.getElem?_eq_none_iff.mp live
      simp
      omega
  case localTee depth | localSet depth =>
    obtain _ | n := depth
    · cases ok
    obtain ⟨_ | ⟨a, stack⟩, capacity, callStack, ip, store⟩ := e
    all_goals
      simp only [Panics, Underflows, Opcode.reach, step, visitLocalTee, visitLocalSet]
      repeat' split
    all_goals simp_all
  case brTable targets =>
    obtain _ | n := targets
    · cases ok
    obtain ⟨_ | ⟨a, stack⟩, capacity, callStack, ip, store⟩ := e
    all_goals simp [Panics, Underflows, Opcode.reach, step, visitBrTable]
  case bulkDrop locals =>
    simp only [Panics, Underflows, Opcode.reach, step, visitBulkDrop]
    split <;> simp <;> omega
  all_goals
    obtain ⟨stack, capacity, callStack, ip, store⟩ := e
    rcases stack with _ | ⟨a, _ | ⟨b, _ | ⟨c, stack⟩⟩⟩
  all_goals
    simp only [Panics, Underflows, Opcode.reach, step, visitConsumeFuel, visitConsumeFuelStack,
      visitReturn, visitReturnCallInternal, visitCallInternal, visitSignatureCheck, visitStackCheck,
      visitSelect, visitGlobalGet, visitGlobalSet, visitLoad, visitStore, visitMemorySize,
      visitMemoryGrow, visitMemoryFill, visitMemoryCopy, visitMemoryInit, visitDataDrop,
      visitTableSize, visitTableGrow, visitElementDrop, visitUnary, visitBinary, visitFallible,
      visitWide, visitBulkDrop, tryAdvance]
    repeat' split
  all_goals simp_all

/-- An instruction that falls through moves nowhere else. -/
lemma Moves.ip_eq {pc n : Nat} (moves : Moves m e op pc) (h : e.fallthrough op = some n) :
    pc = e.ip + n := by
  cases moves with
  | falls h' =>
    cases h.symm.trans h'
    rfl
  | branches _ none _ => cases h.symm.trans none
  | selects => cases h
  | calls call => rcases call with rfl | rfl <;> cases h
  | returns => cases h
  | callsIndirect call => rcases call with rfl | rfl <;> cases h

/-- An indirect call that goes on has found room on the call stack. -/
lemma depth_of_callIndirect {signature : Nat} (h : e.step m host (.callIndirect signature) = .next e') :
    e.callStack.length < N_MAX_RECURSION_DEPTH := by
  simp only [step, visitCallIndirect] at h
  split at h
  · cases h
  · cases h
  next found =>
    split at h
    · cases h
    next room =>
      rw [resolveIndirect_frame found] at room
      exact Nat.lt_of_not_le room

/-- A return address is an old one, or lies behind a call. -/
lemma mem_callStack_of_step {pc : Nat} (h : e.step m host op = .next e') (mem : pc ∈ e'.callStack) :
    pc ∈ e.callStack ∨ (∃ func, op = .callInternal func) ∧ pc = e.ip + 1 ∨
      (∃ signature, op = .callIndirect signature) ∧ pc = e.ip + 2 := by
  have frame := step_frame h
  cases op
  case ret =>
    simp only [step, visitReturn] at h
    split at h
    next top =>
      cases h
      rw [top]
      exact .inl (List.mem_cons_of_mem _ mem)
    · cases h
  case callInternal func =>
    simp only [step, visitCallInternal] at h
    split at h
    · cases h
    · cases h
      rcases List.mem_cons.mp mem with rfl | old
      · exact .inr (.inl ⟨⟨func, rfl⟩, rfl⟩)
      · exact .inl old
  case callIndirect signature =>
    simp only [step, visitCallIndirect] at h
    split at h
    · cases h
    · cases h
    next found =>
      split at h
      · cases h
      · cases h
        rw [resolveIndirect_frame found] at mem
        rcases List.mem_cons.mp mem with rfl | old
        · exact .inr (.inr ⟨⟨signature, rfl⟩, rfl⟩)
        · exact .inl old
  case returnCallIndirect signature =>
    simp only [step, visitReturnCallIndirect] at h
    split at h
    · cases h
    · cases h
    next found =>
      cases h
      rw [resolveIndirect_frame found] at mem
      exact .inl mem
  all_goals
    simp only [Frame] at frame
    rw [frame] at mem
    exact .inl mem

end Executor

/-- The positions a run reads instructions at. After a step that the source leaves undefined without a
panic, one that reads slots below the stack or writes them behind the reserved ones, nothing is known of
what it reads. -/
inductive Fetches (m : RwasmModule) (host : Host T) (e : Executor T) : Nat → Prop
  | instruction {e'} :
    (boundedVm m host).Steps e e' →
    Fetches m host e e'.ip
  | next {e' op} :
    (boundedVm m host).Steps e e' →
    m.codeSection[e'.ip]? = some op →
    op.ReadsNext →
    Fetches m host e (e'.ip + 1)
  | undefined {e' op i} :
    (boundedVm m host).Steps e e' →
    m.codeSection[e'.ip]? = some op →
    e'.step m host op = .halt .undefined →
    ¬ e'.Panics m host op →
    Fetches m host e i
  | overflows {e' op e'' i} :
    (boundedVm m host).Steps e e' →
    m.codeSection[e'.ip]? = some op →
    e'.step m host op = .next e'' →
    ¬ e''.InBounds →
    Fetches m host e i

/-- All instructions a run fetches lie in the code. -/
def FetchesInside (m : RwasmModule) (host : Host T) (e : Executor T) : Prop :=
  ∀ i, Fetches m host e i → i < m.codeSection.length

/-- What a verified module can still go wrong at, with an instruction about to be executed: its operands
are not on the stack, what it pushes does not fit into the reserved slots, it is the last one of the code
and goes on behind itself, it returns to a call that was, or it finds a callee outside of the code in a
table. -/
inductive Defect (m : RwasmModule) (host : Host T) (e : Executor T) : Opcode → Prop
  | underflows {op} :
    ¬ e.Panics m host op →
    e.Underflows host op →
    Defect m host e op
  | overflows {op} :
    ¬ e.Panics m host op →
    e.Overflows host op →
    Defect m host e op
  | runsOff {op n e'} :
    e.fallthrough op = some n →
    e.ip + n = m.codeSection.length →
    e.step m host op = .next e' →
    Defect m host e op
  | returnsBehind {callStack} :
    e.callStack = m.codeSection.length :: callStack →
    Defect m host e .ret
  | calls {signature func e'} :
    e.resolveIndirect m signature = some (.ok func, e') →
    e.callStack.length < N_MAX_RECURSION_DEPTH →
    m.codeSection.length ≤ func.toNat →
    Defect m host e (.callIndirect signature)
  | returnCalls {signature func e'} :
    e.resolveIndirect m signature = some (.ok func, e') →
    m.codeSection.length ≤ func.toNat →
    Defect m host e (.returnCallIndirect signature)

/-- A run about to start at the first instruction or at the source entry, with its parameters pushed. -/
structure Starts (m : RwasmModule) (e : Executor T) : Prop where
  ip : e.ip = 0 ∨ e.ip = m.sourcePc
  callStack : e.callStack = []
  inside : e.InBounds

/-- `run` starts so on a fresh stack. -/
lemma starts_of_pushParams {store : Store T} {ip : Nat} {params : List Value} {e : Executor T}
    (h : (Executor.fresh store ip).pushParams params = some e) (start : ip = 0 ∨ ip = m.sourcePc) :
    Starts m e := by
  have inside := Executor.pushParams_inBounds h
  obtain ⟨e₁, room, rfl⟩ := Option.map_eq_some_iff.mp h
  rw [Executor.reserve_eq room] at inside ⊢
  exact ⟨start, rfl, inside⟩

/-- The instruction pointer lies in the code, return addresses at most behind its last instruction, and
the stack in its reserved slots. -/
structure Inside (m : RwasmModule) (e : Executor T) : Prop where
  ip : e.ip < m.codeSection.length
  callStack : ∀ pc ∈ e.callStack, pc ≤ m.codeSection.length
  stack : e.InBounds

section Run

variable {e e' : Executor T} {op : Opcode}

/-- What an instruction goes on with is read. -/
lemma Fetches.step (st : (boundedVm m host).Steps e e') (code : m.codeSection[e'.ip]? = some op)
    {e''} (h : e'.step m host op = .next e'') : Fetches m host e e''.ip := by
  by_cases inside : e''.InBounds
  · have next : (vm m host).step e' = .next e'' := by simp only [vm, code, h]
    exact .instruction (st.trans (.single (Machine.guarded_next_iff.mpr ⟨next, inside⟩)))
  · exact .overflows st code h inside

/-- A run that stays inside meets no defect. -/
lemma FetchesInside.no_defect (inside : FetchesInside m host e) (st : (boundedVm m host).Steps e e')
    (start : e.InBounds) (code : m.codeSection[e'.ip]? = some op)
    (ok : verifyOpcode m.codeSection e'.ip op = .ok ()) : ¬ Defect m host e' op := by
  have behind : ¬ Fetches m host e m.codeSection.length := fun h => Nat.lt_irrefl _ (inside _ h)
  have stack : e'.InBounds := by
    refine st.preserves ?_ start
    exact fun e₁ e₂ _ next => (boundedVm_next next).2
  intro defect
  cases defect with
  | underflows calm missing =>
    exact behind (.undefined st code (Executor.step_undefined_iff ok |>.mpr (.inr missing)) calm)
  | overflows calm full =>
    by_cases defined : e'.step m host op = .halt .undefined
    · exact behind (.undefined st code defined calm)
    · obtain ⟨e'', next, out⟩ := Executor.step_of_overflows stack defined full
      exact behind (.overflows st code next out)
  | runsOff falls last next =>
    have eq := (Executor.step_moves next).ip_eq falls
    exact behind (last ▸ eq ▸ .step st code next)
  | @returnsBehind callStack top =>
    have next : e'.step m host .ret =
        .next { e' with ip := m.codeSection.length, callStack := callStack } := by
      simp only [Executor.step, Executor.visitReturn, top]
    exact behind (.step st code next)
  | @calls signature func e₁ found depth outside =>
    have next : e'.step m host (.callIndirect signature) =
        .next { e₁ with ip := func.toNat, callStack := (e₁.ip + 2) :: e₁.callStack } := by
      have same : e₁.callStack = e'.callStack := by rw [Executor.resolveIndirect_frame found]
      simp only [Executor.step, Executor.visitCallIndirect, found]
      rw [same, if_neg (Nat.not_le.mpr depth)]
    exact absurd (inside _ (.step st code next)) (Nat.not_lt.mpr outside)
  | @returnCalls signature func e₁ found outside =>
    have next : e'.step m host (.returnCallIndirect signature) = .next { e₁ with ip := func.toNat } := by
      simp only [Executor.step, Executor.visitReturnCallIndirect, found]
    exact absurd (inside _ (.step st code next)) (Nat.not_lt.mpr outside)

/-- An instruction that goes on behind itself does so at most behind the code. -/
lemma fallthrough_le {n : Nat} (falls : e.fallthrough op = some n)
    (code : m.codeSection[e.ip]? = some op) (ok : verifyOpcode m.codeSection e.ip op = .ok ()) :
    e.ip + n ≤ m.codeSection.length := by
  have here := (List.getElem?_eq_some_iff.mp code).1
  have one : n = 1 ∨ op.ReadsNext ∧ n = 2 := by
    unfold Executor.fallthrough at falls
    split at falls
    all_goals repeat' split at falls
    all_goals cases falls
    all_goals first
      | exact .inl rfl
      | exact .inr ⟨trivial, rfl⟩
  rcases one with rfl | ⟨reads, rfl⟩
  · exact here
  · obtain ⟨table, next⟩ := fetchTableIndex_of_verified op reads ok
    exact next_lt next

/-- Where an instruction without a defect moves to. -/
lemma Executor.Moves.inside {pc : Nat} (moves : e.Moves m op pc) (inside : Inside m e)
    (code : m.codeSection[e.ip]? = some op) (ok : verifyOpcode m.codeSection e.ip op = .ok ())
    (calm : ¬ Defect m host e op) (next : e.step m host op = .next e') :
    pc < m.codeSection.length := by
  cases moves with
  | falls falls =>
    refine lt_of_le_of_ne (fallthrough_le falls code ok) fun last => calm ?_
    exact .runsOff falls last next
  | @branches _ offset _ branch _ eq =>
    have target : verifyBranchTarget m.codeSection.length e.ip offset = .ok () := by
      rcases branch with rfl | rfl | rfl <;> exact ok
    have := verifyBranchTarget_ok target
    omega
  | @selects targets i lt =>
    simp only [verifyOpcode, verifyBranchTable] at ok
    split_ifs at ok
    omega
  | calls call =>
    have target : verifyCodeTarget m.codeSection.length e.ip pc = .ok () := by
      rcases call with rfl | rfl <;> exact ok
    unfold verifyCodeTarget at target
    split_ifs at target
    omega
  | returns top =>
    refine lt_of_le_of_ne (inside.callStack _ (top ▸ List.mem_cons_self)) ?_
    rintro rfl
    exact calm (.returnsBehind top)
  | callsIndirect call found =>
    refine Nat.lt_of_not_le fun outside => calm ?_
    rcases call with rfl | rfl
    · exact .calls found (Executor.depth_of_callIndirect next) outside
    · exact .returnCalls found outside

/-- A step without a defect stays inside. -/
lemma Inside.step (inside : Inside m e) (code : m.codeSection[e.ip]? = some op)
    (ok : verifyOpcode m.codeSection e.ip op = .ok ()) (calm : ¬ Defect m host e op)
    (h : (boundedVm m host).step e = .next e') : Inside m e' := by
  obtain ⟨next, stack⟩ := boundedVm_next h
  have next : e.step m host op = .next e' := by simpa only [vm, code] using next
  refine ⟨(Executor.step_moves next).inside inside code ok calm next, fun pc mem => ?_, stack⟩
  have here := inside.ip
  rcases Executor.mem_callStack_of_step next mem with kept | ⟨⟨func, rfl⟩, rfl⟩ | ⟨⟨signature, rfl⟩, rfl⟩
  · exact inside.callStack pc kept
  · exact here
  · obtain ⟨table, next⟩ := fetchTableIndex_of_verified (.callIndirect signature) trivial ok
    exact next_lt next

end Run

/-- A run of a verified module, started at its first instruction or at its source entry, reads only
instructions of its code exactly when it meets no defect. -/
theorem fetchesInside_iff (m : RwasmModule) (host : Host T) (e : Executor T)
    (verified : m.verify = .ok ()) (starts : Starts m e) :
    FetchesInside m host e ↔
      ∀ e' op, (boundedVm m host).Steps e e' → m.codeSection[e'.ip]? = some op →
        ¬ Defect m host e' op := by
  obtain ⟨sourcePc, -, opcodes⟩ := (m.verify_ok_iff).mp verified
  constructor
  · exact fun inside e' op st code => inside.no_defect st starts.inside code (opcodes _ _ code)
  · intro calm
    have inside : ∀ e', (boundedVm m host).Steps e e' → Inside m e' := by
      intro e' st
      induction st with
      | refl =>
        refine ⟨?_, ?_, starts.inside⟩
        · rcases starts.ip with zero | source <;> omega
        · rw [starts.callStack]
          exact nofun
      | @tail e₁ e₂ st next ih =>
        obtain ⟨op, code⟩ : ∃ op, m.codeSection[e₁.ip]? = some op :=
          ⟨_, List.getElem?_eq_getElem ih.ip⟩
        exact ih.step code (opcodes _ _ code) (calm _ _ st code) next
    intro i fetched
    cases fetched with
    | instruction st => exact (inside _ st).ip
    | next st code reads =>
      obtain ⟨table, next⟩ := fetchTableIndex_of_verified _ reads (opcodes _ _ code)
      exact next_lt next
    | undefined st code undefined noPanic =>
      refine absurd ?_ (calm _ _ st code)
      refine .underflows noPanic (Or.resolve_left ?_ noPanic)
      exact (Executor.step_undefined_iff (opcodes _ _ code)).mp undefined
    | @overflows e₁ op e₂ _ st code next out =>
      refine absurd ?_ (calm _ _ st code)
      refine .overflows (fun panics => ?_) (Executor.overflows_of_step next out)
      have undefined : e₁.step m host op = .halt .undefined :=
        (Executor.step_undefined_iff (opcodes _ _ code)).mpr (.inl panics)
      cases undefined.symm.trans next

/-- A module that runs off its end. -/
def endlessModule : RwasmModule where
  codeSection := [.i32Const 1]

/-- A module that takes a slot from below the stack. -/
def drainedModule : RwasmModule where
  codeSection := [.drop]

/-- A verified module reads behind its last instruction, and one whose stack underflows may. -/
theorem not_fetchesInside :
    (endlessModule.verify = .ok () ∧
      ¬ FetchesInside endlessModule .empty (.fresh (.new () none none) 0)) ∧
    drainedModule.verify = .ok () ∧
      ¬ FetchesInside drainedModule .empty (.fresh (.new () none none) 0) := by
  refine ⟨⟨rfl, fun inside => ?_⟩, rfl, fun inside => ?_⟩
  · have pushed : (boundedVm endlessModule .empty).step (.fresh (.new () none none) 0) =
        .next ⟨[1], 32, [], 1, .new () none none⟩ := rfl
    exact absurd (inside _ (.instruction (.single pushed))) (Nat.lt_irrefl 1)
  · have read : Fetches drainedModule .empty (.fresh (.new () none none) 0) 1 :=
      .undefined .refl rfl rfl id
    exact absurd (inside 1 read) (Nat.lt_irrefl 1)

/-- A verified module that returns at once reads inside. -/
theorem fetchesInside_iff_return :
    FetchesInside ⟨[.ret], [], [], [], 0⟩ .empty (.fresh (.new () none none) 0) := by
  have pushed : (Executor.fresh (.new () none none) 0).pushParams [] =
      some (.fresh (.new () none none) 0) := rfl
  have starts : Starts ⟨[.ret], [], [], [], 0⟩ (.fresh (.new () none none) 0) :=
    starts_of_pushParams pushed (.inl rfl)
  refine (fetchesInside_iff _ _ _ rfl starts).mpr fun e' op st code defect => ?_
  have stop : (boundedVm ⟨[.ret], [], [], [], 0⟩ .empty).step (.fresh (.new () none none) 0) =
      .halt (.returned (.fresh (.new () none none) 0)) := rfl
  rcases st.cases with rfl | ⟨_, next, -⟩
  · cases code
    cases defect with
    | underflows _ missing => exact absurd missing (Nat.not_lt_zero 0)
    | overflows _ full => exact absurd full (by decide : ¬ 32 < 0)
    | runsOff falls => cases falls
    | returnsBehind top => cases top
  · cases stop.symm.trans next

end Rwasm
