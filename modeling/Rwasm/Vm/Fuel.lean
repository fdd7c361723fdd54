import Rwasm.Library.Budget
import Rwasm.Vm.Engine
import Rwasm.Vm.Step

/-!
# Fuel limits

A fuel limit is an exact budget (`try_consume_fuel`). Only the instructions that charge fuel and the calls to
the host look at the limit, so a run under a limit does what the run without one does for as long as its
counter stays within the limit, and ends with `OutOfFuel` where the counter would pass it.
-/

namespace Rwasm

variable {T : Type}

/-- A caller under a fuel limit. -/
def Caller.limited (c : Caller T) (limit : Nat) : Caller T :=
  { c with fuelLimit := some limit }

/-- A handler that only spends fuel, and that gives up with `OutOfFuel` where it would pass the limit: it
looks at the limit through `try_consume_fuel` only, and does not reset the fuel. The counter is a 64-bit
number. -/
structure SyscallHandler.Metered (handler : SyscallHandler T) : Prop where
  unlimited : ∀ c f ps rs, c.fuelLimit = none → (handler.invoke c f ps rs).caller.fuelLimit = none
  counts : ∀ c f ps rs, c.fuelLimit = none → c.consumedFuel < 2 ^ 64 →
    c.consumedFuel ≤ (handler.invoke c f ps rs).caller.consumedFuel ∧
      (handler.invoke c f ps rs).caller.consumedFuel < 2 ^ 64
  within_ : ∀ c f ps rs limit, c.fuelLimit = none →
    (handler.invoke c f ps rs).caller.consumedFuel ≤ limit →
    handler.invoke (c.limited limit) f ps rs =
      { handler.invoke c f ps rs with caller := (handler.invoke c f ps rs).caller.limited limit }
  exceeds : ∀ c f ps rs limit, c.fuelLimit = none → c.consumedFuel ≤ limit →
    limit < (handler.invoke c f ps rs).caller.consumedFuel →
    (handler.invoke (c.limited limit) f ps rs).status = .error .outOfFuel ∧
      (handler.invoke (c.limited limit) f ps rs).caller.consumedFuel ≤ limit

/-- The instructions that look at the fuel limit. -/
def Opcode.Spends : Opcode → Prop
  | .consumeFuel _ | .consumeFuelStack | .call _ | .returnCall _ => True
  | _ => False

/-- A store under a fuel limit. -/
def Store.limited (store : Store T) (limit : Nat) : Store T :=
  { store with fuelLimit := some limit }

/-- Without a limit every charge is met. -/
lemma Store.tryConsumeFuel_free {store : Store T} {delta : Nat} (free : store.fuelLimit = none) :
    store.tryConsumeFuel delta =
      some { store with consumedFuel := min (store.consumedFuel + delta) (2 ^ 64 - 1) } := by
  unfold tryConsumeFuel
  dsimp only
  split
  next limit found =>
    rw [free] at found
    cases found
  · rfl

/-- An executor under a fuel limit. -/
def Executor.limited (e : Executor T) (limit : Nat) : Executor T :=
  { e with store := e.store.limited limit }

/-- An end of the loop under a fuel limit. -/
def Exit.limited (exit : Exit T) (limit : Nat) : Exit T :=
  match exit with
  | .returned e => .returned (e.limited limit)
  | .trapped code e => .trapped code (e.limited limit)
  | .undefined => .undefined

/-- A turn under a fuel limit. -/
def Turn.limited (turn : Turn (Executor T) (Exit T)) (limit : Nat) : Turn (Executor T) (Exit T) :=
  match turn with
  | .next e => .next (e.limited limit)
  | .halt exit => .halt (exit.limited limit)

namespace Executor

variable {m : RwasmModule} {host : Host T} {e e' : Executor T} {op : Opcode} {limit : Nat}

/-- A table operation does not look at the limit. -/
lemma tryTable_limited (n table : Nat) (r : Except TrapCode TableEntity) :
    (e.limited limit).tryTable n table r = Turn.limited (e.tryTable n table r) limit := by
  cases r <;> rfl

/-- Nor does the lookup of a callee. -/
lemma resolveIndirect_limited (signature : Nat) :
    (e.limited limit).resolveIndirect m signature =
      (e.resolveIndirect m signature).map fun (r, e) => (r, e.limited limit) := by
  simp only [resolveIndirect, fetchTableIndex, limited, Store.limited]
  repeat' split
  all_goals rfl

/-- Nor does a reservation. -/
lemma reserve_limited (n : Nat) :
    (e.limited limit).reserve n = (e.reserve n).map fun e => e.limited limit := by
  show (if e.valueStack.length + n ≤ N_MAX_STACK_SIZE then _ else _) = _
  unfold reserve
  split <;> rfl

/-- An instruction that does not charge fuel does the same under every limit. -/
lemma step_limited (other : ¬ op.Spends) :
    (e.limited limit).step m host op = Turn.limited (e.step m host op) limit := by
  cases op
  case consumeFuel | consumeFuelStack | call | returnCall => exact absurd trivial other
  case callIndirect signature | returnCallIndirect signature =>
    simp only [step, visitCallIndirect, visitReturnCallIndirect, resolveIndirect_limited]
    rcases e.resolveIndirect m signature with _ | ⟨_ | func, e₁⟩
    · rfl
    · rfl
    · dsimp only [Option.map_some]
      first
      | rfl
      | show (if N_MAX_RECURSION_DEPTH ≤ e₁.callStack.length then _ else _) = _
        split <;> rfl
  case stackCheck height =>
    simp only [step, visitStackCheck, reserve_limited]
    cases e.reserve height <;> rfl
  case memoryInit segment =>
    simp only [step, visitMemoryInit, data, limited, Store.limited]
    split
    next n s d stack _ =>
      by_cases dropped : e.store.emptyDataSegments.isEmpty segment = true
      all_goals
        simp only [dropped, if_true]
        generalize e.store.globalMemory.sharedMemory.getSlice? d.asI32Usize n.asI32Usize = dst
        generalize List.getSlice? _ s.asI32Usize n.asI32Usize = src
        cases dst <;> cases src <;> rfl
    · rfl
  case tableInit segment =>
    simp only [step, visitTableInit, fetchTableIndex, limited, Store.limited]
    split
    next table n s d stack _ _ =>
      cases e.store.tables table with
      | none => rfl
      | some entity => exact @tryTable_limited _ { e with valueStack := stack } _ 2 table _
    · rfl
  all_goals
    simp only [step, visitLocalGet, visitLocalSet, visitLocalTee, jump, visitBrIf, visitBrIfNez,
      visitBrTable, visitReturn, visitReturnCallInternal, visitCallInternal, visitSignatureCheck,
      visitSelect, visitGlobalGet, visitGlobalSet, visitLoad, visitStore, visitMemorySize,
      visitMemoryGrow, visitMemoryFill, visitMemoryCopy, visitDataDrop, visitTableSize, visitTableGrow,
      visitTableFill, visitTableGet, visitTableSet, visitTableCopy, visitElementDrop, visitUnary,
      visitBinary, visitFallible, visitWide, visitBulkDrop, tryTable, tryAdvance, data, limited,
      Store.limited]
    repeat' split
    all_goals first
      | rfl
      | exact if_pos ‹_›
      | exact if_neg ‹_›

/-- What has been spent of the fuel. -/
def spent (e : Executor T) : Nat :=
  e.store.consumedFuel

/-- An instruction that does not spend leaves the counter and the limit. -/
lemma step_spent (other : ¬ op.Spends) (h : e.step m host op = .next e') :
    e'.spent = e.spent ∧ e'.store.fuelLimit = e.store.fuelLimit := by
  have frame := step_frame h
  cases op
  case consumeFuel | consumeFuelStack | call | returnCall => exact absurd trivial other
  all_goals
    simp only [Frame] at frame
    rw [frame]
    exact ⟨rfl, rfl⟩

/-- So it does when it ends the run. -/
lemma step_halt_spent {exit : Exit T} {store : Store T} (other : ¬ op.Spends)
    (h : e.step m host op = .halt exit) (hs : exit.store = some store) :
    store.consumedFuel = e.spent ∧ store.fuelLimit = e.store.fuelLimit := by
  have internal : ¬ op.IsSyscall := by
    cases op
    case call | returnCall => exact absurd trivial other
    all_goals exact not_false
  rw [step_halt_frame_internal h hs internal]
  exact ⟨rfl, rfl⟩

/-- No limit is set, and the counter is a 64-bit number. -/
def Free (e : Executor T) : Prop :=
  e.store.fuelLimit = none ∧ e.spent < 2 ^ 64

/-- The trap of a run that has no fuel left. -/
def OutOfFuel (limit : Nat) (exit : Exit T) : Prop :=
  ∃ e, exit = .trapped .outOfFuel e ∧ e.spent ≤ limit

/-- An end of the loop within a limit. -/
def WithinLimit (limit : Nat) (exit : Exit T) : Prop :=
  ∃ store, exit.store = some store ∧ store.consumedFuel ≤ limit

/-- What becomes of a turn under a limit: the turn itself, or the trap where it passes the limit. -/
def Meters (limit : Nat) : Turn (Executor T) (Exit T) → Turn (Executor T) (Exit T) → Prop
  | .next e, turn =>
    if e.spent ≤ limit then turn = .next (e.limited limit)
    else ∃ exit, turn = .halt exit ∧ OutOfFuel limit exit
  | .halt exit, turn =>
    ∃ exit', turn = .halt exit' ∧
      ((exit' = exit.limited limit ∧ ∀ store, exit.store = some store → store.consumedFuel ≤ limit) ∨
        ¬ WithinLimit limit exit ∧ OutOfFuel limit exit')

/-- What a turn without a limit leaves: still no limit, and at least as much is spent. -/
def Spends (e : Executor T) : Turn (Executor T) (Exit T) → Prop
  | .next e' => e'.Free ∧ e.spent ≤ e'.spent
  | .halt exit => ∀ store, exit.store = some store → store.fuelLimit = none ∧ e.spent ≤ store.consumedFuel

/-- A turn within the limit is the same under it. -/
lemma meters_self {turn : Turn (Executor T) (Exit T)}
    (next : ∀ e', turn = .next e' → e'.spent ≤ limit)
    (halt : ∀ exit store, turn = .halt exit → exit.store = some store → store.consumedFuel ≤ limit) :
    Meters limit turn (Turn.limited turn limit) := by
  cases turn with
  | next e' => exact (if_pos (next e' rfl)).mpr rfl
  | halt exit => exact ⟨_, rfl, .inl ⟨rfl, fun store hs => halt exit store rfl hs⟩⟩

/-- A charge traps exactly where it exceeds the limit. -/
lemma visitConsumeFuel_meters {fuel : Nat} (free : e.Free) (fits : e.spent ≤ limit) :
    Meters limit (e.visitConsumeFuel fuel) ((e.limited limit).visitConsumeFuel fuel) := by
  unfold visitConsumeFuel
  rw [Store.tryConsumeFuel_free free.1]
  dsimp only [Meters]
  by_cases over_ : limit < min (e.store.consumedFuel + fuel) (2 ^ 64 - 1)
  · have charged : (e.limited limit).store.tryConsumeFuel fuel = none := if_pos over_
    rw [charged]
    exact (if_neg (Nat.not_le.mpr over_)).mpr ⟨_, rfl, _, rfl, fits⟩
  · have charged : (e.limited limit).store.tryConsumeFuel fuel = some (Store.limited
        { e.store with consumedFuel := min (e.store.consumedFuel + fuel) (2 ^ 64 - 1) } limit) :=
      if_neg over_
    rw [charged]
    exact (if_pos (Nat.not_lt.mp over_)).mpr rfl

/-- A charge only raises the counter. -/
lemma visitConsumeFuel_spends {fuel : Nat} (free : e.Free) : Spends e (e.visitConsumeFuel fuel) := by
  have bound : e.store.consumedFuel < 2 ^ 64 := free.2
  unfold visitConsumeFuel
  rw [Store.tryConsumeFuel_free free.1]
  refine ⟨⟨free.1, ?_⟩, ?_⟩
  · show min (e.store.consumedFuel + fuel) (2 ^ 64 - 1) < 2 ^ 64
    omega
  · show e.store.consumedFuel ≤ min (e.store.consumedFuel + fuel) (2 ^ 64 - 1)
    omega

/-- What follows a call to a metered host, given the replies without and with the limit. -/
lemma afterSyscall_meters {reply reply' : HostReply T} {stack : List UntypedValue}
    (fits : reply.caller.consumedFuel ≤ limit →
      reply' = { reply with caller := reply.caller.limited limit })
    (exceeds : limit < reply.caller.consumedFuel →
      reply'.status = .error .outOfFuel ∧ reply'.caller.consumedFuel ≤ limit) :
    Meters limit (e.afterSyscall reply stack (pushValues reply.result stack))
      ((e.limited limit).afterSyscall reply' stack (pushValues reply'.result stack)) := by
  by_cases spent : reply.caller.consumedFuel ≤ limit
  · obtain rfl := fits spent
    have same : (e.limited limit).afterSyscall { reply with caller := reply.caller.limited limit } stack
        (pushValues reply.result stack) =
          Turn.limited (e.afterSyscall reply stack (pushValues reply.result stack)) limit := by
      unfold afterSyscall
      dsimp only
      split <;> rfl
    refine same ▸ meters_self ?_ ?_
    · intro e' next
      unfold afterSyscall at next
      dsimp only at next
      split at next <;> cases next
      exact spent
    · intro exit store halt hs
      unfold afterSyscall at halt
      dsimp only at halt
      split at halt <;> cases halt <;> cases hs <;> exact spent
  · obtain ⟨status, left⟩ := exceeds (Nat.not_le.mp spent)
    have trap : (e.limited limit).afterSyscall reply' stack (pushValues reply'.result stack) =
        .halt (.trapped .outOfFuel
          { e with valueStack := stack, store := (e.limited limit).store.setCaller reply'.caller }) := by
      unfold afterSyscall
      dsimp only
      rw [status]
      rfl
    have out : OutOfFuel limit (.trapped .outOfFuel
        { e with valueStack := stack, store := (e.limited limit).store.setCaller reply'.caller }) :=
      ⟨_, rfl, left⟩
    rw [trap]
    unfold afterSyscall
    dsimp only
    split
    · exact (if_neg spent).mpr ⟨_, rfl, out⟩
    all_goals
      refine ⟨_, rfl, .inr ⟨?_, out⟩⟩
      rintro ⟨store, ⟨⟩, le⟩
      exact spent le

/-- What follows a syscall keeps the counter the host left. -/
lemma afterSyscall_spends {reply : HostReply T} {stack : List UntypedValue}
    (free : reply.caller.fuelLimit = none)
    (counts : e.spent ≤ reply.caller.consumedFuel ∧ reply.caller.consumedFuel < 2 ^ 64) :
    Spends e (e.afterSyscall reply stack (pushValues reply.result stack)) := by
  unfold afterSyscall
  dsimp only
  split
  · exact ⟨⟨free, counts.2⟩, counts.1⟩
  all_goals
    rintro store ⟨⟩
    exact ⟨free, counts.1⟩

/-- A call to a metered host. -/
lemma invokeSyscall_meters {func : Nat} (metered : host.syscallHandler.Metered) (free : e.Free)
    (fits : e.spent ≤ limit) :
    Meters limit (e.invokeSyscall host func) ((e.limited limit).invokeSyscall host func) ∧
      Spends e (e.invokeSyscall host func) := by
  have undefined : ∀ {turn turn' : Turn (Executor T) (Exit T)}, turn = .halt .undefined →
      turn' = .halt .undefined → Meters limit turn turn' ∧ Spends e turn := by
    rintro _ _ rfl rfl
    exact ⟨⟨_, rfl, .inl ⟨rfl, by rintro _ ⟨⟩⟩⟩, by rintro _ ⟨⟩⟩
  cases hr : host.importLinker.resolveByFuncIdx func with
  | none => exact undefined (by simp only [invokeSyscall, hr]) (by simp only [invokeSyscall, hr])
  | some entity =>
    have room' := @reserve_limited _ e limit (max entity.params.length entity.result.length)
    cases room : e.reserve (max entity.params.length entity.result.length) with
    | none =>
      rw [room] at room'
      have full : (e.limited limit).invokeSyscall host func =
          .halt (.trapped .stackOverflow (e.limited limit)) := by
        simp only [invokeSyscall, hr, room', Option.map_none]
      have full' : e.invokeSyscall host func = .halt (.trapped .stackOverflow e) := by
        simp only [invokeSyscall, hr, room]
      rw [full, full']
      refine ⟨⟨_, rfl, .inl ⟨rfl, ?_⟩⟩, ?_⟩
      · rintro store ⟨⟩
        exact fits
      · rintro store ⟨⟩
        exact ⟨free.1, Nat.le_refl _⟩
    | some e₁ =>
      obtain ⟨cap, rfl⟩ : ∃ cap, e₁ = { e with capacity := cap } := ⟨_, reserve_frame room⟩
      rw [room, Option.map_some] at room'
      have same : (({ e with capacity := cap } : Executor T).limited limit).valueStack = e.valueStack :=
        rfl
      cases hp : popValues entity.params e.valueStack with
      | none =>
        refine undefined ?_ ?_
        · simp only [invokeSyscall, hr, room, hp]
        · simp only [invokeSyscall, hr, room', same, hp]
      | some r =>
        obtain ⟨params, stack⟩ := r
        cases hd : entity.result.mapM Value.default with
        | none =>
          refine undefined ?_ ?_
          · simp only [invokeSyscall, hr, room, hp, hd]
          · simp only [invokeSyscall, hr, room', same, hp, hd]
        | some result =>
          rw [invokeSyscall_eq host hr room hp hd, invokeSyscall_eq host hr room' hp hd]
          have counts := metered.counts e.store.caller func params result free.1 free.2
          constructor
          · exact afterSyscall_meters (metered.within_ e.store.caller func params result limit free.1)
              (metered.exceeds e.store.caller func params result limit free.1 fits)
          · exact @afterSyscall_spends T { e with capacity := cap } _ stack
              (metered.unlimited e.store.caller func params result free.1) counts

/-- A step under a limit does what the step without one does, or is out of fuel. -/
theorem step_meters (metered : host.syscallHandler.Metered) (free : e.Free) (fits : e.spent ≤ limit) :
    Meters limit (e.step m host op) ((e.limited limit).step m host op) ∧
      Spends e (e.step m host op) := by
  by_cases other : op.Spends
  · cases op
    case call func | returnCall func => exact @invokeSyscall_meters _ _ (e.advance 1) _ _ metered free fits
    case consumeFuel fuel => exact ⟨visitConsumeFuel_meters free fits, visitConsumeFuel_spends free⟩
    case consumeFuelStack =>
      simp only [step, visitConsumeFuelStack]
      cases stack : e.valueStack with
      | nil =>
        have stack' : (e.limited limit).valueStack = [] := stack
        simp only [stack']
        exact ⟨⟨_, rfl, .inl ⟨rfl, by rintro _ ⟨⟩⟩⟩, by rintro _ ⟨⟩⟩
      | cons fuel rest =>
        have stack' : (e.limited limit).valueStack = fuel :: rest := stack
        simp only [stack']
        have free' : Free { e with valueStack := rest } := free
        exact ⟨visitConsumeFuel_meters free' fits, visitConsumeFuel_spends free'⟩
    all_goals exact absurd other not_false
  · rw [step_limited other]
    constructor
    · refine meters_self ?_ ?_
      · intro e' next
        rw [(step_spent other next).1]
        exact fits
      · intro exit store halt hs
        rw [(step_halt_spent other halt hs).1]
        exact fits
    · cases turn : e.step m host op with
      | next e' =>
        obtain ⟨spent, unlimited⟩ := step_spent other turn
        exact ⟨⟨unlimited.trans free.1, spent ▸ free.2⟩, spent.ge⟩
      | halt exit =>
        intro store hs
        obtain ⟨spent, unlimited⟩ := step_halt_spent other turn hs
        exact ⟨unlimited.trans free.1, spent.ge⟩

/-- The same for a step of the machine. -/
lemma vm_step_meters (metered : host.syscallHandler.Metered) (free : e.Free) (fits : e.spent ≤ limit) :
    Meters limit ((vm m host).step e) ((vm m host).step (e.limited limit)) ∧
      Spends e ((vm m host).step e) := by
  simp only [vm]
  rw [show (e.limited limit).ip = e.ip from rfl]
  cases m.codeSection[e.ip]? with
  | none => exact ⟨⟨_, rfl, .inl ⟨rfl, by rintro _ ⟨⟩⟩⟩, by rintro _ ⟨⟩⟩
  | some op => exact step_meters metered free fits

/-- What a turn without a limit has spent does not depend on the limit. -/
lemma vm_step_spends (metered : host.syscallHandler.Metered) (free : e.Free) :
    Spends e ((vm m host).step e) :=
  (@vm_step_meters T m host e e.spent metered free (Nat.le_refl _)).2

/-- The machine under a limit follows the machine without one. -/
theorem vm_follows (metered : host.syscallHandler.Metered) :
    (vm m host).Follows (vm m host) Free (fun e => e.spent ≤ limit) (WithinLimit limit)
      (fun e t => t = e.limited limit ∧ e.Free ∧ e.spent ≤ limit)
      (fun exit exit' => exit' = exit.limited limit ∧
        ∀ store, exit.store = some store → store.consumedFuel ≤ limit)
      (OutOfFuel limit) where
  invariant _ _ related := related.2.1
  keep e e' free step := by
    have spends := @vm_step_spends T m host e metered free
    rw [step] at spends
    exact spends.1
  spent e e' free step fits := by
    have spends := @vm_step_spends T m host e metered free
    rw [step] at spends
    exact Nat.le_trans spends.2 fits
  spent_halt e exit free step fits := by
    have spends := @vm_step_spends T m host e metered free
    rw [step] at spends
    obtain ⟨store, hs, le⟩ := fits
    exact Nat.le_trans (spends store hs).2 le
  next e t e' related step fits := by
    obtain ⟨rfl, free, spent⟩ := related
    obtain ⟨meters, spends⟩ := @vm_step_meters T m host e limit metered free spent
    rw [step] at meters spends
    exact ⟨_, (if_pos fits).mp meters, rfl, spends.1, fits⟩
  exhausted e t e' related step over_ := by
    obtain ⟨rfl, free, spent⟩ := related
    obtain ⟨meters, -⟩ := @vm_step_meters T m host e limit metered free spent
    rw [step] at meters
    exact (if_neg over_).mp meters
  halt e t exit related step := by
    obtain ⟨rfl, free, spent⟩ := related
    obtain ⟨meters, -⟩ := @vm_step_meters T m host e limit metered free spent
    rw [step] at meters
    exact meters

/-- Pushing the parameters does not look at the limit. -/
lemma pushParams_limited {params : List Value} :
    (e.limited limit).pushParams params = (e.pushParams params).map fun e => e.limited limit := by
  unfold pushParams
  rw [reserve_limited]
  cases e.reserve (slotCount (params.map Value.ty)) <;> rfl

end Executor

/-- An outcome under a fuel limit. -/
def Outcome.limited (out : Outcome T) (limit : Nat) : Outcome T :=
  match out with
  | .ok result store => .ok result (store.limited limit)
  | .interrupted store context => .interrupted (store.limited limit) context
  | .err code store => .err code (store.limited limit)
  | .undefined => .undefined

/-- The store an outcome leaves. -/
def Outcome.store : Outcome T → Option (Store T)
  | .ok _ store | .interrupted store _ | .err _ store => some store
  | .undefined => none

namespace Executor

variable {m : RwasmModule} {host : Host T} {e : Executor T} {limit : Nat}

/-- Nor does what follows the end of a run. -/
lemma settle_limited {exit : Exit T} {result : List Value} :
    settle m (exit.limited limit) result = (settle m exit result).limited limit := by
  cases exit with
  | returned e =>
    simp only [Exit.limited, settle]
    rw [show (e.limited limit).valueStack = e.valueStack from rfl]
    cases popValues (result.map Value.ty).reverse e.valueStack <;> rfl
  | trapped code e => cases code <;> rfl
  | undefined => rfl

/-- What an outcome has spent is what the loop has. -/
lemma settle_spent {exit : Exit T} {result : List Value} {store : Store T}
    (hs : (settle m exit result).store = some store) :
    ∃ store', exit.store = some store' ∧ store'.consumedFuel = store.consumedFuel := by
  cases exit with
  | returned e =>
    simp only [settle] at hs
    split at hs <;> cases hs
    exact ⟨_, rfl, rfl⟩
  | trapped code e =>
    refine ⟨_, rfl, ?_⟩
    cases code <;> cases hs <;> rfl
  | undefined => cases hs

/-- A fuel limit is an exact budget. A run that spends no more than the limit has the same outcome under it;
a run that spends more ends with `OutOfFuel`, and has not passed the limit; and a run under the limit that
does not end so has the outcome of the run without it. -/
theorem run_limited {params result : List Value} (metered : host.syscallHandler.Metered)
    (free : e.Free) (fits : e.spent ≤ limit) :
    (∀ out store, e.Run m host params result out → out.store = some store →
      (store.consumedFuel ≤ limit → (e.limited limit).Run m host params result (out.limited limit)) ∧
      (limit < store.consumedFuel → ∃ store', (e.limited limit).Run m host params result
        (.err .outOfFuel store') ∧ store'.consumedFuel ≤ limit)) ∧
    ∀ out', (e.limited limit).Run m host params result out' →
      (∃ store', out' = .err .outOfFuel store' ∧ store'.consumedFuel ≤ limit) ∨
        ∃ out, e.Run m host params result out ∧ out' = out.limited limit ∧
          ∀ store, out.store = some store → store.consumedFuel ≤ limit := by
  unfold Run
  rw [pushParams_limited]
  cases pushed : e.pushParams params with
  | none =>
    simp only [Option.map_none]
    constructor
    · rintro _ _ rfl ⟨⟩
      exact ⟨fun _ => rfl, fun over_ => absurd fits (Nat.not_le.mpr over_)⟩
    · rintro _ rfl
      refine .inr ⟨_, rfl, rfl, ?_⟩
      rintro _ ⟨⟩
      exact fits
  | some e₁ =>
    simp only [Option.map_some]
    have store₁ : e₁.store = e.store := by
      unfold pushParams at pushed
      obtain ⟨e₂, room, rfl⟩ := Option.map_eq_some_iff.mp pushed
      show e₂.store = e.store
      rw [reserve_frame room]
    have free₁ : e₁.Free := by
      rw [Free, spent, store₁]
      exact free
    have fits₁ : e₁.spent ≤ limit := by
      rw [spent, store₁]
      exact fits
    have follows := @vm_follows T m host limit metered
    constructor
    · rintro _ store ⟨exit, halts, rfl⟩ hs
      obtain ⟨store', hs', same⟩ := settle_spent hs
      constructor
      · intro le
        obtain ⟨exit', halts', rfl, -⟩ := follows.halts_within ⟨rfl, free₁, fits₁⟩ halts
          ⟨store', hs', same.trans_le le⟩
        exact ⟨_, halts', settle_limited.symm⟩
      · intro over_
        obtain ⟨exit', halts', ⟨-, le⟩ | ⟨e', rfl, le⟩⟩ :=
          follows.halts_or_exhausted ⟨rfl, free₁, fits₁⟩ halts
        · exact absurd (le store' hs') (Nat.not_le.mpr (same ▸ over_))
        · exact ⟨_, ⟨_, halts', rfl⟩, le⟩
    · rintro _ ⟨exit', halts', rfl⟩
      rcases follows.exhausted_or_halts ⟨rfl, free₁, fits₁⟩ halts' with
        ⟨e', rfl, le⟩ | ⟨exit, halts, rfl, le⟩
      · exact .inl ⟨_, rfl, le⟩
      · refine .inr ⟨_, ⟨exit, halts, rfl⟩, settle_limited, ?_⟩
        intro store hs
        obtain ⟨store', hs', same⟩ := settle_spent hs
        exact same ▸ le store' hs'

end Executor

/-- `RwasmCaller::try_consume_fuel`. -/
def Caller.tryConsumeFuel (c : Caller T) (delta : Nat) : Option (Caller T) :=
  let consumed := min (c.consumedFuel + delta) (2 ^ 64 - 1)
  match c.fuelLimit with
  | some limit => if limit < consumed then none else some { c with consumedFuel := consumed }
  | none => some { c with consumedFuel := consumed }

/-- A charge by the host changes the counter only. -/
lemma Caller.tryConsumeFuel_frame {c c' : Caller T} {delta : Nat} (h : c.tryConsumeFuel delta = some c') :
    c' = { c with consumedFuel := min (c.consumedFuel + delta) (2 ^ 64 - 1) } := by
  unfold tryConsumeFuel at h
  dsimp only at h
  repeat' split at h
  all_goals cases h
  all_goals rfl

/-- A handler that charges for a call, and returns nothing. -/
def chargingHandler (cost : Nat) : SyscallHandler Unit where
  invoke c _ _ rs :=
    match c.tryConsumeFuel cost with
    | some c => ⟨c, rs, .ok ()⟩
    | none => ⟨c, rs, .error .outOfFuel⟩
  length_result c _ _ rs := by split <;> rfl
  length_memory c _ _ rs := by
    split
    next charged => rw [Caller.tryConsumeFuel_frame charged]
    · rfl
  currentPages_eq c _ _ rs := by
    split
    next charged => rw [Caller.tryConsumeFuel_frame charged]
    · rfl
  maxPages_eq c _ _ rs := by
    split
    next charged => rw [Caller.tryConsumeFuel_frame charged]
    · rfl

/-- Such a handler is metered. -/
lemma metered_chargingHandler (cost : Nat) : (chargingHandler cost).Metered where
  unlimited c f ps rs free := by
    simp only [chargingHandler, Caller.tryConsumeFuel, free]
  counts c f ps rs free bound := by
    simp only [chargingHandler, Caller.tryConsumeFuel, free]
    omega
  within_ c f ps rs limit free fits := by
    simp only [chargingHandler, Caller.tryConsumeFuel, free] at fits ⊢
    have charged : (c.limited limit).tryConsumeFuel cost =
        some { c.limited limit with consumedFuel := min (c.consumedFuel + cost) (2 ^ 64 - 1) } :=
      if_neg (Nat.not_lt.mpr fits)
    rw [Caller.tryConsumeFuel] at charged
    rw [charged]
    rfl
  exceeds c f ps rs limit free fits over_ := by
    simp only [chargingHandler, Caller.tryConsumeFuel, free] at over_
    have charged : (c.limited limit).tryConsumeFuel cost = none := if_pos over_
    simp only [chargingHandler, charged]
    exact ⟨trivial, fits⟩

/-- A host with a function that charges. -/
def chargingHost (cost : Nat) : Host Unit where
  importLinker :=
    { entities := [(⟨"env", "charge"⟩, ⟨1, .none, [], [], none⟩)]
      names_nodup := by decide
      indices_nodup := by decide }
  syscallHandler := chargingHandler cost

/-- A module that charges three units itself, and calls that function. -/
def chargingModule : RwasmModule where
  codeSection := [.consumeFuel 3, .call 1, .i32Const 7, .ret]

/-- A run that spends eight units has the same outcome under a limit of eight, and is out of fuel under a limit
of seven. -/
theorem run_limited_charging :
    let e := Executor.fresh (.new () none none) 0
    let store : Store Unit := { Store.new () none none with consumedFuel := 8 }
    e.Run chargingModule (chargingHost 5) [] [.i32 0] (.ok [.i32 7] store) ∧
      (e.limited 8).Run chargingModule (chargingHost 5) [] [.i32 0]
        (Outcome.limited (.ok [.i32 7] store) 8) ∧
      ∃ store', (e.limited 7).Run chargingModule (chargingHost 5) [] [.i32 0]
        (.err .outOfFuel store') ∧ store'.consumedFuel ≤ 7 := by
  intro e store
  have run : e.Run chargingModule (chargingHost 5) [] [.i32 0] (.ok [.i32 7] store) :=
    ⟨_, Machine.halts_of_run (n := 4) rfl, rfl⟩
  have metered : (chargingHost 5).syscallHandler.Metered := metered_chargingHandler 5
  have free : e.Free := ⟨rfl, by decide⟩
  have enough := (@Executor.run_limited _ chargingModule _ e 8 [] [.i32 0] metered free (by decide)).1
  have short := (@Executor.run_limited _ chargingModule _ e 7 [] [.i32 0] metered free (by decide)).1
  exact ⟨run, (enough _ _ run rfl).1 (by decide), (short _ _ run rfl).2 (by decide)⟩

end Rwasm
