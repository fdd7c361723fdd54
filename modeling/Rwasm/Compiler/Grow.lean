import Rwasm.Compiler.Translator
import Rwasm.Segments.Init
import Rwasm.Vm.History

/-!
# `memory.grow` and `table.grow`

The compiled growth of memories and tables. Wasm grows as long as the size and the delta together stay
within the limit, and gives -1 otherwise. The emitted code compares their wrapped sum as a signed
number with the declared limit, charges for the growth, and leaves the rest to the executor, which has
a limit of its own. `GrowSite.Defect` names the operands on which this differs.
-/

namespace Rwasm

open InstructionSet

/-- A store whose fuel counter is a 64-bit number within its limit. Every history keeps this
(`History.fueled`). -/
structure Store.Fueled {T : Type} (store : Store T) : Prop where
  counter : store.consumedFuel < 2 ^ 64
  within : ∀ limit ∈ store.fuelLimit, store.consumedFuel ≤ limit

/-- A handler that keeps the fuel counter so. -/
def SyscallHandler.KeepsFuel {T : Type} (handler : SyscallHandler T) : Prop :=
  ∀ (store : Store T) (f : Nat) (ps rs : List Value), store.Fueled →
    (store.setCaller (handler.invoke store.caller f ps rs).caller).Fueled

namespace Executor

variable {T : Type} {m : RwasmModule} {host : Host T} {e e' : Executor T} {op : Opcode}

/-- A charge that is met leaves the counter within the limit. -/
lemma tryConsumeFuel_fueled {store store' : Store T} {fuel : Nat}
    (h : store.tryConsumeFuel fuel = some store') : store'.Fueled := by
  unfold Store.tryConsumeFuel at h
  dsimp only at h
  have counter : min (store.consumedFuel + fuel) (2 ^ 64 - 1) < 2 ^ 64 :=
    (Nat.min_le_right _ _).trans_lt (by norm_num)
  split at h
  next limit limited =>
    split at h
    · cases h
    next within_ =>
      cases h
      refine ⟨counter, fun limit' mem => ?_⟩
      cases limited.symm.trans mem
      exact Nat.not_lt.mp within_
  next unlimited =>
    cases h
    refine ⟨counter, fun limit mem => ?_⟩
    cases unlimited.symm.trans mem

/-- A step keeps the fuel counter within its limit. -/
lemma step_fueled (keeps : host.syscallHandler.KeepsFuel) (fueled : e.store.Fueled)
    (hs : e.step m host op = .next e') : e'.store.Fueled := by
  have frame := step_frame hs
  cases op
  case consumeFuel fuel =>
    simp only [step, visitConsumeFuel] at hs
    split at hs
    next charged =>
      cases hs
      exact tryConsumeFuel_fueled charged
    · cases hs
  case consumeFuelStack =>
    simp only [step, visitConsumeFuelStack] at hs
    split at hs
    · simp only [visitConsumeFuel] at hs
      split at hs
      next charged =>
        cases hs
        exact tryConsumeFuel_fueled charged
      · cases hs
    · cases hs
  case call func | returnCall func =>
    rcases invokeSyscall_cases host (e.advance 1) func with eq | eq | ⟨params, result, stack, cap, eq⟩
    · cases eq.symm.trans hs
    · cases eq.symm.trans hs
    · have hs := eq.symm.trans hs
      unfold afterSyscall at hs
      dsimp only at hs
      split at hs <;> cases hs
      exact keeps e.store _ _ _ fueled
  all_goals
    simp only [Frame] at frame
    rw [frame]
    exact ⟨fueled.counter, fueled.within⟩

/-- So does a step that stops. -/
lemma step_halt_fueled {exit store} (keeps : host.syscallHandler.KeepsFuel) (fueled : e.store.Fueled)
    (hs : e.step m host op = .halt exit) (he : exit.store = some store) : store.Fueled := by
  cases op
  case call func | returnCall func =>
    rcases invokeSyscall_cases host (e.advance 1) func with eq | eq | ⟨params, result, stack, cap, eq⟩
    · cases eq.symm.trans hs
      cases he
    · cases eq.symm.trans hs
      cases he
      exact fueled
    · have hs := eq.symm.trans hs
      unfold afterSyscall at hs
      dsimp only at hs
      split at hs <;> cases hs <;> cases he <;> exact keeps e.store _ _ _ fueled
  all_goals
    rw [step_halt_frame_internal hs he not_false]
    exact ⟨fueled.counter, fueled.within⟩

end Executor

/-- Every history keeps the fuel counter within its limit, where the host does. -/
lemma History.fueled {T : Type} {host : Host T} {s t : Store T} {ops : List Opcode}
    (keeps : host.syscallHandler.KeepsFuel) (hist : History host s ops t) (h : s.Fueled) : t.Fueled := by
  induction hist with
  | start => exact h
  | step _ _ hs ih => exact Executor.step_fueled keeps ih hs
  | stop _ _ hs he ih => exact Executor.step_halt_fueled keeps ih hs he
  | settle _ ih => exact ⟨ih.counter, ih.within⟩
  | reset _ _ => exact ⟨Nat.two_pow_pos 64, fun _ _ => Nat.zero_le _⟩

/-- A compiled growth in the state before it is executed. -/
structure GrowSite where
  /-- The size before it. -/
  size : Nat
  /-- The size it may reach. -/
  bound : Nat
  /-- The limit the emitted check compares with. -/
  limit : UntypedValue
  /-- Whether the growth is charged for. -/
  inject : Bool
  /-- The units the emitted code charges. -/
  units : UntypedValue → Nat

namespace GrowSite

variable (site : GrowSite) (delta : UntypedValue)

/-- Wasm grows. -/
def Fits : Prop :=
  site.size + delta.toNat ≤ site.bound

/-- Whether a site fits is decided by its arithmetic. -/
instance : Decidable (site.Fits delta) :=
  inferInstanceAs (Decidable (_ ≤ _))

/-- The emitted check lets the growth pass. -/
def Passes : Prop :=
  ¬ site.limit.slt (delta + BitVec.ofNat 32 site.size)

/-- The operands on which the compiled code and Wasm disagree, when the fuel counter stands at the
given number. -/
inductive Defect (consumed : Nat) : Prop
  /-- The limit is negative as a signed number, or the sum is. -/
  | turnedAway :
    site.Fits delta →
    ¬ site.Passes delta →
    Defect consumed
  /-- A growth that fails passes the check and is charged for, on a counter that is not full. -/
  | charged :
    ¬ site.Fits delta →
    site.Passes delta →
    site.inject = true →
    site.units delta ≠ 0 →
    consumed ≠ 2 ^ 64 - 1 →
    Defect consumed

end GrowSite

variable {T : Type} {m : RwasmModule} {host : Host T} {lo hi p : Nat} {cap : Nat} {calls : List Nat}
  {store store' : Store T} {v size : UntypedValue} {stack below : List UntypedValue}

/-- The store after a charge, if there is one and the fuel suffices. -/
def chargeUnits (store : Store T) (inject : Bool) (units : Nat) : Option (Store T) :=
  if inject then store.tryConsumeFuel units else some store

/-- A charge changes nothing but the counter. -/
lemma chargeUnits_frame {inject : Bool} {units : Nat}
    (charged : chargeUnits store inject units = some store') :
    store' = { store with consumedFuel := store'.consumedFuel } := by
  cases inject with
  | false =>
    cases charged
    rfl
  | true => exact Store.tryConsumeFuel_frame charged

/-- A charge goes unnoticed exactly when it is nothing, or the counter is full. -/
lemma chargeUnits_eq_self (fueled : store.Fueled) (inject : Bool) (units : Nat) :
    chargeUnits store inject units = some store ↔
      inject = false ∨ units = 0 ∨ store.consumedFuel = 2 ^ 64 - 1 := by
  obtain ⟨counter, within⟩ := fueled
  cases inject with
  | false => exact iff_of_true rfl (.inl rfl)
  | true =>
    have same : { store with consumedFuel := min (store.consumedFuel + units) (2 ^ 64 - 1) } = store ↔
        min (store.consumedFuel + units) (2 ^ 64 - 1) = store.consumedFuel :=
      ⟨fun eq => congrArg Store.consumedFuel eq, fun eq => by rw [eq]⟩
    simp only [chargeUnits, if_true, Store.tryConsumeFuel, Bool.true_eq_false, false_or]
    cases limited : store.fuelLimit with
    | none =>
      rw [Option.some.injEq, ← limited, same]
      omega
    | some limit =>
      have le := within limit limited
      dsimp only
      split_ifs with out
      · refine iff_of_false nofun ?_
        omega
      · rw [Option.some.injEq, ← limited, same]
        omega

/-! ## The parts of the code -/

/-- The check in front of a growth, on a stack with the delta and `drops - 1` operands more. -/
def opGrowCheck (sizeOp : Opcode) (drops : Nat) (limit : UntypedValue) (skip : Int) : List Opcode :=
  [.localGet 1, sizeOp, .i32Add, .i32Const limit, .i32GtS, .brIfEqz (drops + 3 : Nat)] ++
    List.replicate drops .drop ++ [.i32Const (-1), .br skip]

/-- The length of the check. -/
lemma length_opGrowCheck {sizeOp drops limit skip} :
    (opGrowCheck sizeOp drops limit skip).length = drops + 8 := by
  simp [opGrowCheck]

section Check

variable {sizeOp : Opcode} {drops : Nat} {limit : UntypedValue} {skip : Int}

/-- The check compares the wrapped sum with the limit. -/
lemma growCheck_compared (placed : CodeAt m.codeSection p (opGrowCheck sizeOp drops limit skip))
    (hlo : lo ≤ p) (hhi : p + (drops + 8) ≤ hi)
    (sizes : ∀ stack p, (⟨stack, cap, calls, p, store⟩ : Executor T).step m host sizeOp =
      .next ⟨size :: stack, cap, calls, p + 1, store⟩) :
    (vmWithin m host lo hi).Steps ⟨v :: stack, cap, calls, p, store⟩
      ⟨UntypedValue.ofBool (limit.slt (v + size)) :: v :: stack, cap, calls, p + 5, store⟩ := by
  simp only [opGrowCheck, List.append_assoc, List.cons_append, CodeAt.cons_iff, Nat.add_assoc,
    Nat.reduceAdd] at placed
  obtain ⟨h0, h1, h2, h3, h4, -⟩ := placed
  refine vmWithin_next (by simp; omega) h0 rfl ?_
  refine vmWithin_next (by simp [Executor.advance]; omega) h1 (sizes _ _) ?_
  refine vmWithin_next (by simp [Executor.advance]; omega) h2 rfl ?_
  refine vmWithin_next (by simp [Executor.advance]; omega) h3 rfl ?_
  exact vmWithin_next (by simp [Executor.advance]; omega) h4 rfl .refl

/-- A growth that passes the check goes on behind it. -/
lemma growCheck_pass (placed : CodeAt m.codeSection p (opGrowCheck sizeOp drops limit skip))
    (hlo : lo ≤ p) (hhi : p + (drops + 8) ≤ hi)
    (sizes : ∀ stack p, (⟨stack, cap, calls, p, store⟩ : Executor T).step m host sizeOp =
      .next ⟨size :: stack, cap, calls, p + 1, store⟩)
    (passes : ¬ limit.slt (v + size)) :
    (vmWithin m host lo hi).Steps ⟨v :: stack, cap, calls, p, store⟩
      ⟨v :: stack, cap, calls, p + (drops + 8), store⟩ := by
  have compared : (vmWithin m host lo hi).Steps ⟨v :: stack, cap, calls, p, store⟩ _ :=
    growCheck_compared placed hlo hhi sizes
  refine compared.trans ?_
  have found : m.codeSection[p + 5]? = some (.brIfEqz (drops + 3 : Nat)) := placed.getElem? rfl
  rw [Bool.eq_false_of_not_eq_true passes]
  refine vmWithin_next (by simp; omega) found ?_ .refl
  have taken := Executor.jump_forward (drops + 3) (e := (⟨v :: stack, cap, calls, p + 5, store⟩ : Executor T))
  rw [Nat.add_assoc, show 5 + (drops + 3) = drops + 8 by omega] at taken
  exact taken

/-- The drops remove the operands. -/
lemma drops_run {operands : List UntypedValue}
    (placed : CodeAt m.codeSection p (List.replicate operands.length .drop)) (hlo : lo ≤ p)
    (hhi : p + operands.length ≤ hi) :
    (vmWithin m host lo hi).Steps ⟨operands ++ below, cap, calls, p, store⟩
      ⟨below, cap, calls, p + operands.length, store⟩ := by
  induction operands generalizing p with
  | nil => exact .refl
  | cons v operands ih =>
    rw [List.length_cons] at placed hhi ⊢
    obtain ⟨here, rest⟩ := CodeAt.cons_iff.mp placed
    have dropped : (⟨v :: operands ++ below, cap, calls, p, store⟩ : Executor T).step m host .drop =
        .next ⟨operands ++ below, cap, calls, p + 1, store⟩ := by
      simp [Executor.step, Executor.visitBulkDrop, Executor.advance]
    refine vmWithin_next (by simp; omega) here dropped ?_
    rw [Nat.add_comm operands.length 1, ← Nat.add_assoc]
    exact ih rest (by omega) (by omega)

/-- One that does not drops the operands and gives -1. -/
lemma growCheck_refuse {k : Nat} {operands : List UntypedValue}
    (placed : CodeAt m.codeSection p (opGrowCheck sizeOp drops limit (k + 1 : Nat)))
    (hlo : lo ≤ p) (hhi : p + (drops + 8) ≤ hi) (len : (v :: operands).length = drops)
    (sizes : ∀ stack p, (⟨stack, cap, calls, p, store⟩ : Executor T).step m host sizeOp =
      .next ⟨size :: stack, cap, calls, p + 1, store⟩)
    (refused : limit.slt (v + size)) :
    (vmWithin m host lo hi).Steps ⟨v :: operands ++ below, cap, calls, p, store⟩
      ⟨-1 :: below, cap, calls, p + (drops + 8 + k), store⟩ := by
  have compared : (vmWithin m host lo hi).Steps ⟨v :: operands ++ below, cap, calls, p, store⟩ _ :=
    growCheck_compared placed hlo hhi sizes
  rw [refused] at compared
  subst len
  set n := (v :: operands).length
  rw [opGrowCheck, CodeAt.append_iff, CodeAt.append_iff, List.length_append,
    List.length_replicate, ← Nat.add_assoc] at placed
  obtain ⟨⟨check, drops⟩, const, leave, -⟩ := placed
  have found : m.codeSection[p + 5]? = some (.brIfEqz (n + 3 : Nat)) := check.getElem? rfl
  have passed : (vmWithin m host lo hi).Steps
      ⟨UntypedValue.ofBool true :: (v :: operands ++ below), cap, calls, p + 5, store⟩
      ⟨v :: operands ++ below, cap, calls, p + 6, store⟩ :=
    vmWithin_next (by simp; omega) found rfl .refl
  have dropped : (vmWithin m host lo hi).Steps ⟨v :: operands ++ below, cap, calls, p + 6, store⟩
      ⟨below, cap, calls, p + 6 + n, store⟩ :=
    drops_run drops (by omega) (by omega)
  have left : (⟨-1 :: below, cap, calls, p + 6 + n + 1, store⟩ : Executor T).step m host
      (.br (k + 1 : Nat)) = .next ⟨-1 :: below, cap, calls, p + (n + 8 + k), store⟩ := by
    show Executor.jump _ _ = _
    rw [Executor.jump_forward]
    congr 2
    show p + 6 + n + 1 + (k + 1) = p + (n + 8 + k)
    omega
  refine compared.trans (passed.trans (dropped.trans ?_))
  refine vmWithin_next (by simp; omega) const rfl ?_
  exact vmWithin_next (by simp [Executor.advance]; omega) leave left .refl

end Check

/-! ## The whole code -/

/-- The code of a growth: the check, the charge and the instruction itself. -/
def opGrow (sizeOp growOp : Opcode) (drops : Nat) (limit : UntypedValue) (charge : List Opcode) :
    List Opcode :=
  opGrowCheck sizeOp drops limit (charge.length + 2 : Nat) ++ charge ++ [growOp]

/-- The length of the whole code, charge included. -/
lemma length_opGrow (sizeOp growOp : Opcode) (drops : Nat) (limit : UntypedValue)
    (charge : List Opcode) :
    (opGrow sizeOp growOp drops limit charge).length = drops + 9 + charge.length := by
  rw [opGrow, List.length_append, List.length_append, length_opGrowCheck, List.length_singleton]
  omega

/-- The charge in front of a growth. -/
lemma chargeUnits_run {inject : Bool} {op factor log2}
    (placed : CodeAt m.codeSection p (if inject then opCharge op factor log2 else [])) (hlo : lo ≤ p)
    (hhi : p + (if inject then opCharge op factor log2 else []).length ≤ hi)
    (charged : chargeUnits store inject (chargedUnits op factor log2 v) = some store') :
    (vmWithin m host lo hi).Steps ⟨v :: stack, cap, calls, p, store⟩
      ⟨v :: stack, cap, calls, p + (if inject then opCharge op factor log2 else []).length,
        store'⟩ := by
  cases inject with
  | false =>
    cases charged
    exact .refl
  | true => exact charge_run placed hlo hhi charged

section Whole

variable {site : GrowSite} {sizeOp growOp : Opcode} {op : UntypedValue.BinaryOp}
  {factor log2 delta : UntypedValue} {operands : List UntypedValue} {charge : List Opcode}
  (placed : CodeAt m.codeSection p (opGrow sizeOp growOp (delta :: operands).length site.limit charge))
  (sizes : ∀ stack p, (⟨stack, cap, calls, p, store⟩ : Executor T).step m host sizeOp =
    .next ⟨BitVec.ofNat 32 site.size :: stack, cap, calls, p + 1, store⟩)
  (end_eq : hi = p + ((delta :: operands).length + 9 + charge.length))
include placed sizes end_eq

/-- A growth that does not pass the check. -/
lemma opGrow_denied (refused : ¬ site.Passes delta) :
    (vmWithin m host p hi).Halts ⟨delta :: operands ++ below, cap, calls, p, store⟩
      (.next ⟨-1 :: below, cap, calls, hi, store⟩) := by
  set drops := (delta :: operands).length
  rw [opGrow, CodeAt.append_iff, CodeAt.append_iff] at placed
  have st : (vmWithin m host p hi).Steps ⟨delta :: operands ++ below, cap, calls, p, store⟩
      ⟨-1 :: below, cap, calls, p + (drops + 8 + (charge.length + 1)), store⟩ :=
    growCheck_refuse placed.1.1 (Nat.le_refl p) (by omega) rfl sizes (not_not.mp refused)
  rw [show p + (drops + 8 + (charge.length + 1)) = hi by omega] at st
  exact st.halts (Machine.within_exit (by simp))

/-- One that passes comes to the charge. -/
lemma opGrow_checked (passes : site.Passes delta) :
    (vmWithin m host p hi).Steps ⟨delta :: operands ++ below, cap, calls, p, store⟩
      ⟨delta :: operands ++ below, cap, calls, p + ((delta :: operands).length + 8), store⟩ := by
  rw [opGrow, CodeAt.append_iff, CodeAt.append_iff] at placed
  exact growCheck_pass placed.1.1 (Nat.le_refl p) (by omega) sizes passes

/-- One that is paid for is executed. -/
lemma opGrow_executed {result : Executor T}
    (charge_eq : charge = if site.inject then opCharge op factor log2 else [])
    (passes : site.Passes delta)
    (paid : chargeUnits store site.inject (chargedUnits op factor log2 delta) = some store')
    (grows : (⟨delta :: operands ++ below, cap, calls,
      p + ((delta :: operands).length + 8) + charge.length, store'⟩ : Executor T).step m host growOp =
        .next result)
    (ends : result.ip = hi) :
    (vmWithin m host p hi).Halts ⟨delta :: operands ++ below, cap, calls, p, store⟩
      (.next result) := by
  have checked : (vmWithin m host p hi).Steps ⟨delta :: operands ++ below, cap, calls, p, store⟩ _ :=
    opGrow_checked placed sizes end_eq passes
  set drops := (delta :: operands).length
  rw [opGrow, CodeAt.append_iff, CodeAt.append_iff, List.length_append, length_opGrowCheck] at placed
  obtain ⟨⟨-, charges⟩, last, -⟩ := placed
  subst charge_eq
  have charged : (vmWithin m host p hi).Steps
      ⟨delta :: operands ++ below, cap, calls, p + (drops + 8), store⟩
      ⟨delta :: operands ++ below, cap, calls, _, store'⟩ :=
    chargeUnits_run charges (Nat.le_add_right p _) (by omega) paid
  refine checked.halts (charged.halts ?_)
  rw [← Nat.add_assoc] at last
  refine (Machine.Steps.head (Machine.within_next (by simp; omega) ((vm_step last).trans grows))
    .refl).halts (Machine.within_exit ?_)
  rw [ends]
  exact fun inside => Nat.lt_irrefl _ inside.2

/-- One that is not runs out of fuel. -/
lemma opGrow_out (charge_eq : charge = opCharge op factor log2) (passes : site.Passes delta)
    (unpaid : chargeUnits store true (chargedUnits op factor log2 delta) = none) :
    ∃ e', (vmWithin m host p hi).Halts ⟨delta :: operands ++ below, cap, calls, p, store⟩
      (.halt (.trapped .outOfFuel e')) := by
  have checked : (vmWithin m host p hi).Steps ⟨delta :: operands ++ below, cap, calls, p, store⟩ _ :=
    opGrow_checked placed sizes end_eq passes
  set drops := (delta :: operands).length
  rw [opGrow, CodeAt.append_iff, CodeAt.append_iff, length_opGrowCheck] at placed
  subst charge_eq
  have six : (opCharge op factor log2).length = 6 := rfl
  have trapped : ∃ e', (vmWithin m host p hi).Halts
      ⟨delta :: operands ++ below, cap, calls, p + (drops + 8), store⟩
      (.halt (.trapped .outOfFuel e')) :=
    charge_out placed.1.2 (Nat.le_add_right p _) (by omega) unpaid
  exact trapped.imp fun _ trapped => checked.halts trapped

end Whole

/-- The code does what Wasm does, except for the operands that `Defect` names. What the two
instructions themselves do is given. -/
lemma opGrow_exact_iff (site : GrowSite) {sizeOp growOp : Opcode} {op factor log2}
    {delta : UntypedValue} (operands : List UntypedValue) {grown : Store T → Store T}
    (placed : CodeAt m.codeSection p (opGrow sizeOp growOp (delta :: operands).length site.limit
      (if site.inject then opCharge op factor log2 else [])))
    (units : site.units delta = chargedUnits op factor log2 delta)
    (sizes : ∀ stack p, (⟨stack, cap, calls, p, store⟩ : Executor T).step m host sizeOp =
      .next ⟨BitVec.ofNat 32 site.size :: stack, cap, calls, p + 1, store⟩)
    (grows : ∀ p store', site.Passes delta →
      chargeUnits store site.inject (site.units delta) = some store' →
      (⟨delta :: operands ++ below, cap, calls, p, store'⟩ : Executor T).step m host growOp =
        .next (if site.Fits delta then
          ⟨BitVec.ofNat 32 site.size :: below, cap, calls, p + 1, grown store'⟩
        else ⟨-1 :: below, cap, calls, p + 1, store'⟩))
    (size_ne : site.Fits delta → BitVec.ofNat 32 site.size ≠ (-1 : UntypedValue))
    (fueled : store.Fueled) {hi : Nat}
    (end_eq : hi = p + (opGrow sizeOp growOp (delta :: operands).length site.limit
      (if site.inject then opCharge op factor log2 else [])).length)
    (enough : site.Fits delta → chargeUnits store site.inject (site.units delta) = some store') :
    (vmWithin m host p hi).Halts ⟨delta :: operands ++ below, cap, calls, p, store⟩
        (.next (if site.Fits delta then
          ⟨BitVec.ofNat 32 site.size :: below, cap, calls, hi, grown store'⟩
        else ⟨-1 :: below, cap, calls, hi, store⟩)) ↔
      ¬ site.Defect delta store.consumedFuel := by
  rw [length_opGrow] at end_eq
  obtain ⟨charge, charge_eq⟩ : ∃ charge, charge = if site.inject then opCharge op factor log2 else [] :=
    ⟨_, rfl⟩
  rw [← charge_eq] at placed end_eq
  have denied : ¬ site.Passes delta → (vmWithin m host p hi).Halts
      ⟨delta :: operands ++ below, cap, calls, p, store⟩
      (.next ⟨-1 :: below, cap, calls, hi, store⟩) := opGrow_denied placed sizes end_eq
  have executed : ∀ store₁, site.Passes delta →
      chargeUnits store site.inject (site.units delta) = some store₁ →
      (vmWithin m host p hi).Halts ⟨delta :: operands ++ below, cap, calls, p, store⟩
        (.next (if site.Fits delta then
          ⟨BitVec.ofNat 32 site.size :: below, cap, calls, hi, grown store₁⟩
        else ⟨-1 :: below, cap, calls, hi, store₁⟩)) := by
    intro store₁ passes charged
    have step := grows (p + ((delta :: operands).length + 8) + charge.length) store₁ passes charged
    have next : p + ((delta :: operands).length + 8) + charge.length + 1 = hi := by omega
    rw [next] at step
    rw [units] at charged
    exact opGrow_executed placed sizes end_eq charge_eq passes charged step (by split <;> rfl)
  constructor
  · intro ok defect
    cases defect with
    | turnedAway fits refused =>
      rw [if_pos fits] at ok
      have same := (denied refused).unique ok
      injection same with same
      injection same with same
      injection same with same
      exact size_ne fits same.symm
    | charged unfit passes inject units_ne counts =>
      rw [if_neg unfit] at ok
      cases paid : chargeUnits store site.inject (site.units delta) with
      | none =>
        rw [units, inject] at paid
        obtain ⟨e', trapped⟩ : ∃ e', (vmWithin m host p hi).Halts
            ⟨delta :: operands ++ below, cap, calls, p, store⟩ (.halt (.trapped .outOfFuel e')) :=
          opGrow_out placed sizes end_eq (charge_eq.trans (if_pos inject)) passes paid
        cases trapped.unique ok
      | some store₁ =>
        have run := executed store₁ passes paid
        rw [if_neg unfit] at run
        have same := run.unique ok
        injection same with same
        injection same with _ _ _ _ same
        rw [same, chargeUnits_eq_self fueled, inject] at paid
        exact paid.elim nofun fun h => h.elim units_ne counts
  · intro no
    by_cases passes : site.Passes delta
    · by_cases fits : site.Fits delta
      · have run := executed _ passes (enough fits)
        rwa [if_pos fits] at run ⊢
      · -- What is not noticed is not charged.
        have unnoticed : chargeUnits store site.inject (site.units delta) = some store := by
          rw [chargeUnits_eq_self fueled]
          by_contra noticed
          rw [not_or, not_or, Bool.not_eq_false] at noticed
          exact no (.charged fits passes noticed.1 noticed.2.1 noticed.2.2)
        have run := executed store passes unnoticed
        rwa [if_neg fits] at run ⊢
    · rw [if_neg fun fits => no (.turnedAway fits passes)]
      exact denied passes

/-! ## `memory.grow` -/

/-- The pages Wasm lets a memory have: the declared maximum and what the store allows. -/
def MemoryType.mostPages (type : MemoryType) (memory : GlobalMemory) : Nat :=
  match type.maximum with
  | some declared => min declared memory.maxAllowedMemoryPages
  | none => memory.maxAllowedMemoryPages

/-- The compiled `memory.grow` of a memory. -/
def memoryGrowSite (cx : Context) (type : MemoryType) (memory : GlobalMemory) : GrowSite where
  size := memory.currentPages
  bound := type.mostPages memory
  limit := BitVec.ofNat 32 (type.maxPages cx)
  inject := cx.injectFuelCheck
  units := chargedUnits .i32Mul 65536 MEMORY_BYTES_PER_FUEL_LOG2

/-- The code of `memory.grow` is the common one at the operators of memories. -/
lemma opMemoryGrowChecked_eq (maxPages : UntypedValue) (inject : Bool) :
    opMemoryGrowChecked (some maxPages) inject = opGrow .memorySize .memoryGrow 1 maxPages
      (if inject then opCharge .i32Mul 65536 MEMORY_BYTES_PER_FUEL_LOG2 else []) := by
  cases inject <;> rfl

section Memory

variable {cx : Context} {type : MemoryType} {memory : GlobalMemory} {delta : UntypedValue}

/-- The compiler and Wasm take the same limit. -/
lemma maxPages_eq (allowed : cx.maxAllowedMemoryPages = memory.maxAllowedMemoryPages) :
    type.maxPages cx = type.mostPages memory := by
  unfold MemoryType.maxPages MemoryType.mostPages
  rw [allowed]
  cases type.maximum with
  | none => rfl
  | some declared =>
    dsimp only
    split_ifs <;> omega

/-- A memory never grows beyond half of the address space. -/
lemma mostPages_le (type : MemoryType) (paged : memory.Paged) : type.mostPages memory ≤ 32768 := by
  have le : memory.maxAllowedMemoryPages ≤ 32768 := paged.pages_le
  unfold MemoryType.mostPages
  split <;> omega

/-- Nor does it hold more pages than that. -/
lemma currentPages_le (paged : memory.Paged) : memory.currentPages ≤ 32768 := by
  have len := paged.length_le_two_pow
  rw [paged.length_eq, N_BYTES_PER_MEMORY_PAGE] at len
  omega

/-- The emitted charge for a number of pages. -/
lemma memoryGrowSite_units (cx : Context) (type : MemoryType) (memory : GlobalMemory)
    (delta : UntypedValue) :
    (memoryGrowSite cx type memory).units delta = delta.toNat % 65536 * 1024 := by
  have lt := delta.isLt
  have shift : (MEMORY_BYTES_PER_FUEL_LOG2 &&& 0x1F).toNat = 6 := rfl
  have factor : (65536 : UntypedValue).toNat = 65536 := rfl
  show ((delta * 65536) >>> (MEMORY_BYTES_PER_FUEL_LOG2 &&& 0x1F).toNat).toNat = _
  rw [shift, BitVec.toNat_ushiftRight, BitVec.toNat_mul, Nat.shiftRight_eq_div_pow, factor]
  omega

/-- A growth within the limit passes the check. -/
lemma memoryGrowSite_passes (allowed : cx.maxAllowedMemoryPages = memory.maxAllowedMemoryPages)
    (paged : memory.Paged) (fits : (memoryGrowSite cx type memory).Fits delta) :
    (memoryGrowSite cx type memory).Passes delta := by
  have fits : memory.currentPages + delta.toNat ≤ type.mostPages memory := fits
  have most := mostPages_le type paged
  show ¬ (BitVec.ofNat 32 (type.maxPages cx)).slt (delta + BitVec.ofNat 32 memory.currentPages)
  have sum : (delta + BitVec.ofNat 32 memory.currentPages).toNat =
      memory.currentPages + delta.toNat := by
    rw [BitVec.toNat_add, BitVec.toNat_ofNat]
    omega
  have limit : (BitVec.ofNat 32 (type.maxPages cx)).toNat = type.mostPages memory := by
    rw [maxPages_eq allowed, BitVec.toNat_ofNat]
    omega
  rw [InitSite.slt_iff_of_small (by omega) (by omega)]
  omega

/-- One beyond it that passes has a delta that is no number of pages. -/
lemma memoryGrowSite_slips (allowed : cx.maxAllowedMemoryPages = memory.maxAllowedMemoryPages)
    (paged : memory.Paged) (unfit : ¬ (memoryGrowSite cx type memory).Fits delta)
    (passes : (memoryGrowSite cx type memory).Passes delta) : 65536 < delta.toNat := by
  have unfit : ¬ memory.currentPages + delta.toNat ≤ type.mostPages memory := unfit
  have most := mostPages_le type paged
  have current := currentPages_le paged
  by_contra small
  refine passes ?_
  show (BitVec.ofNat 32 (type.maxPages cx)).slt (delta + BitVec.ofNat 32 memory.currentPages)
  have sum : (delta + BitVec.ofNat 32 memory.currentPages).toNat =
      memory.currentPages + delta.toNat := by
    rw [BitVec.toNat_add, BitVec.toNat_ofNat]
    omega
  have limit : (BitVec.ofNat 32 (type.maxPages cx)).toNat = type.mostPages memory := by
    rw [maxPages_eq allowed, BitVec.toNat_ofNat]
    omega
  rw [InitSite.slt_iff_of_small (by omega) (by omega)]
  omega

/-- The memory after a growth that succeeds. -/
def GlobalMemory.grown (memory : GlobalMemory) (delta : Nat) : GlobalMemory :=
  { memory with
    sharedMemory := memory.sharedMemory ++ List.replicate (delta * N_BYTES_PER_MEMORY_PAGE) 0
    currentPages := memory.currentPages + delta }

/-- What the source's growth does to whole pages. -/
lemma grow_eq (paged : memory.Paged)
    (fits : memory.currentPages + delta.toNat ≤ memory.maxAllowedMemoryPages) :
    (Pages.new delta.toNat).bind memory.grow =
      some (memory.currentPages, memory.grown delta.toNat) := by
  have most : memory.maxAllowedMemoryPages ≤ 32768 := paged.pages_le
  rw [Pages.new, if_pos (by omega), Option.bind_some, GlobalMemory.grow]
  have len := paged.length_eq
  unfold N_BYTES_PER_MEMORY_PAGE at len
  split_ifs with zero
  · rw [GlobalMemory.grown, zero]
    simp
  · simp only [Pages.new, if_pos (show memory.currentPages + delta.toNat ≤ 65536 by omega)]
    have room : ¬ memory.maxAllowedMemoryPages < memory.currentPages + delta.toNat := by omega
    have more : ¬ (memory.currentPages + delta.toNat) * N_BYTES_PER_MEMORY_PAGE <
        memory.sharedMemory.length := by
      rw [N_BYTES_PER_MEMORY_PAGE]
      omega
    have added : (memory.currentPages + delta.toNat) * N_BYTES_PER_MEMORY_PAGE -
        memory.sharedMemory.length = delta.toNat * N_BYTES_PER_MEMORY_PAGE := by
      rw [N_BYTES_PER_MEMORY_PAGE]
      omega
    rw [if_neg room, if_neg more, GlobalMemory.grown, added]

/-- The instruction itself, after the check. -/
lemma visitMemoryGrow_eq (allowed : cx.maxAllowedMemoryPages = store.globalMemory.maxAllowedMemoryPages)
    (paged : store.globalMemory.Paged)
    (passes : (memoryGrowSite cx type store.globalMemory).Passes delta) :
    (⟨delta :: below, cap, calls, p, store⟩ : Executor T).visitMemoryGrow =
      .next (if (memoryGrowSite cx type store.globalMemory).Fits delta then
        ⟨BitVec.ofNat 32 store.globalMemory.currentPages :: below, cap, calls, p + 1,
          { store with globalMemory := store.globalMemory.grown delta.toNat }⟩
      else ⟨-1 :: below, cap, calls, p + 1, store⟩) := by
  unfold Executor.visitMemoryGrow
  dsimp only
  split_ifs with fits
  · have most : type.mostPages store.globalMemory ≤ store.globalMemory.maxAllowedMemoryPages := by
      unfold MemoryType.mostPages
      split <;> omega
    have fits : store.globalMemory.currentPages + delta.toNat ≤ type.mostPages store.globalMemory :=
      fits
    rw [grow_eq paged (by omega)]
    rfl
  · have large := memoryGrowSite_slips allowed paged fits passes
    rw [Pages.new, if_neg (by omega)]
    rfl

end Memory

/-- What Wasm makes of an executor at a `memory.grow`, where the code ends at `hi` and the store after
the charge for a growth that succeeds is given. -/
def memoryGrowOutcome (type : MemoryType) (e : Executor T) (delta : UntypedValue)
    (below : List UntypedValue) (charged : Store T) (hi : Nat) : Executor T :=
  if e.store.globalMemory.currentPages + delta.toNat ≤ type.mostPages e.store.globalMemory then
    { e with
      valueStack := BitVec.ofNat 32 e.store.globalMemory.currentPages :: below
      ip := hi
      store := { charged with globalMemory := e.store.globalMemory.grown delta.toNat } }
  else
    { e with valueStack := -1 :: below, ip := hi }

/-- The compiled `memory.grow` does what Wasm does, with fuel for what a growth that succeeds costs,
except for the operands that `Defect` names. -/
theorem memoryGrow_exact_iff (cx : Context) (type : MemoryType) {e : Executor T} {delta : UntypedValue}
    (placed : CodeAt m.codeSection e.ip
      (opMemoryGrowChecked (some (BitVec.ofNat 32 (type.maxPages cx))) cx.injectFuelCheck))
    (allowed : cx.maxAllowedMemoryPages = e.store.globalMemory.maxAllowedMemoryPages)
    (paged : e.store.globalMemory.Paged) (fueled : e.store.Fueled)
    (pushed : e.valueStack = delta :: below)
    (enough : e.store.globalMemory.currentPages + delta.toNat ≤ type.mostPages e.store.globalMemory →
      chargeUnits e.store cx.injectFuelCheck (delta.toNat * 65536 / 64) = some store')
    (end_eq : hi = e.ip + (opMemoryGrowChecked (some (BitVec.ofNat 32 (type.maxPages cx)))
      cx.injectFuelCheck).length) :
    (vmWithin m host e.ip hi).Halts e (.next (memoryGrowOutcome type e delta below store' hi)) ↔
      ¬ (memoryGrowSite cx type e.store.globalMemory).Defect delta e.store.consumedFuel := by
  obtain ⟨valueStack, cap, calls, p, store⟩ := e
  subst pushed
  dsimp only at placed allowed paged fueled enough end_eq ⊢
  rw [opMemoryGrowChecked_eq] at placed end_eq
  have charge : (memoryGrowSite cx type store.globalMemory).Fits delta →
      chargeUnits store cx.injectFuelCheck
        ((memoryGrowSite cx type store.globalMemory).units delta) = some store' := by
    intro fits
    have le : store.globalMemory.currentPages + delta.toNat ≤ type.mostPages store.globalMemory := fits
    have most := mostPages_le type paged
    rw [memoryGrowSite_units, ← enough le]
    congr 1
    omega
  have grows : ∀ p store₁, (memoryGrowSite cx type store.globalMemory).Passes delta →
      chargeUnits store cx.injectFuelCheck
        ((memoryGrowSite cx type store.globalMemory).units delta) = some store₁ →
      (⟨delta :: [] ++ below, cap, calls, p, store₁⟩ : Executor T).step m host .memoryGrow =
        .next (if (memoryGrowSite cx type store.globalMemory).Fits delta then
          ⟨BitVec.ofNat 32 store.globalMemory.currentPages :: below, cap, calls, p + 1,
            { store₁ with globalMemory := store.globalMemory.grown delta.toNat }⟩
        else ⟨-1 :: below, cap, calls, p + 1, store₁⟩) := by
    intro p store₁ passes charged
    have kept : store₁.globalMemory = store.globalMemory := by rw [chargeUnits_frame charged]
    rw [← kept] at allowed paged passes ⊢
    exact visitMemoryGrow_eq allowed paged passes
  have size_ne : BitVec.ofNat 32 store.globalMemory.currentPages ≠ (-1 : UntypedValue) := by
    intro eq
    have current := currentPages_le paged
    have eq := congrArg BitVec.toNat eq
    rw [BitVec.toNat_ofNat] at eq
    have : (-1 : UntypedValue).toNat = 2 ^ 32 - 1 := rfl
    omega
  exact opGrow_exact_iff (memoryGrowSite cx type store.globalMemory) [] placed rfl
    (fun _ _ => rfl) grows (fun _ => size_ne) fueled end_eq charge

/-- The growths that fail and are charged for: their sum with the current pages is at least `2 ^ 31`. -/
lemma memoryGrowSite_defect_iff {cx : Context} {type : MemoryType} {memory : GlobalMemory}
    {delta : UntypedValue} {consumed : Nat}
    (allowed : cx.maxAllowedMemoryPages = memory.maxAllowedMemoryPages) (paged : memory.Paged) :
    (memoryGrowSite cx type memory).Defect delta consumed ↔
      cx.injectFuelCheck = true ∧ type.mostPages memory < memory.currentPages + delta.toNat ∧
        (memoryGrowSite cx type memory).Passes delta ∧ delta.toNat % 65536 ≠ 0 ∧
          consumed ≠ 2 ^ 64 - 1 := by
  have units := memoryGrowSite_units cx type memory delta
  constructor
  · intro defect
    cases defect with
    | turnedAway fits refused => exact absurd (memoryGrowSite_passes allowed paged fits) refused
    | charged unfit passes inject units_ne counts =>
      exact ⟨inject, Nat.lt_of_not_le unfit, passes, by omega, counts⟩
  · rintro ⟨inject, beyond, passes, rest, counts⟩
    exact .charged (Nat.not_le.mpr beyond) passes inject (by omega) counts

/-- A translation that charges for bulk instructions. -/
def metering : Context where
  costs := ⟨1, 1, 1, 1, 1, fun _ => 0⟩
  withConsumeFuel := true
  consumeFuelForBulkOps := true
  funcTypeRegistry := {}

/-- An executor on a new store with some fuel. -/
def fueledWith (fuel : Nat) (stack : List UntypedValue) : Executor Unit :=
  ⟨stack, N_DEFAULT_STACK_SIZE, [], 0, .new () (some fuel) none⟩

/-- A new store has consumed nothing. -/
lemma fueled_new (fuel : Nat) : (Store.new () (some fuel) none).Fueled :=
  ⟨Nat.two_pow_pos 64, fun _ _ => Nat.zero_le _⟩

/-- A module with the code of a `memory.grow` that is charged for. -/
def memoryGrowModule : RwasmModule where
  codeSection := opMemoryGrowChecked (some 1024) true

/-- A growth by one page. -/
theorem memoryGrow_exact_iff_page :
    (vmWithin memoryGrowModule Host.empty 0 16).Halts (fueledWith 5000 [1])
      (.next ⟨[0], N_DEFAULT_STACK_SIZE, [], 16,
        { Store.new () (some 5000) none with
          consumedFuel := 1024
          globalMemory := GlobalMemory.grown ⟨[], 0, 1024⟩ 1 }⟩) := by
  have paged : (fueledWith 5000 [1]).store.globalMemory.Paged := Store.paged_new () (some 5000) none
  have fueled := fueled_new 5000
  have run : (vmWithin memoryGrowModule Host.empty 0 16).Halts (fueledWith 5000 [1])
      (.next (memoryGrowOutcome ⟨0, none⟩ (fueledWith 5000 [1]) 1 []
        { Store.new () (some 5000) none with consumedFuel := 1024 } 16)) := by
    refine (memoryGrow_exact_iff metering ⟨0, none⟩ (e := fueledWith 5000 [1]) .self rfl paged
      fueled rfl ?_ rfl).mpr ?_
    · exact fun _ => by simp [chargeUnits, Store.tryConsumeFuel, fueledWith, Store.new, metering,
        Context.injectFuelCheck]
    · have allowed : metering.maxAllowedMemoryPages =
          (fueledWith 5000 [1]).store.globalMemory.maxAllowedMemoryPages := rfl
      rw [memoryGrowSite_defect_iff allowed paged]
      exact fun defect => absurd defect.2.1 (by decide)
  exact run

/-- A growth by `2 ^ 32 - 1` pages passes the check, and traps when it is charged for. -/
theorem not_memoryGrow_exact :
    ¬ ∀ (cx : Context) (type : MemoryType) (m : RwasmModule) (host : Host Unit) (e : Executor Unit)
      (delta : UntypedValue) (below : List UntypedValue) (store' : Store Unit) (hi : Nat),
      CodeAt m.codeSection e.ip
        (opMemoryGrowChecked (some (BitVec.ofNat 32 (type.maxPages cx))) cx.injectFuelCheck) →
      cx.maxAllowedMemoryPages = e.store.globalMemory.maxAllowedMemoryPages →
      e.store.globalMemory.Paged → e.store.Fueled → e.valueStack = delta :: below →
      (e.store.globalMemory.currentPages + delta.toNat ≤ type.mostPages e.store.globalMemory →
        chargeUnits e.store cx.injectFuelCheck (delta.toNat * 65536 / 64) = some store') →
      hi = e.ip + (opMemoryGrowChecked (some (BitVec.ofNat 32 (type.maxPages cx)))
        cx.injectFuelCheck).length →
      (vmWithin m host e.ip hi).Halts e (.next (memoryGrowOutcome type e delta below store' hi)) := by
  intro all
  have paged := Store.paged_new () (some 5000) none
  have fueled := fueled_new 5000
  have beyond : ¬ (0 + (-1 : UntypedValue).toNat ≤ 1024) := by decide
  have run := all metering ⟨0, none⟩ memoryGrowModule Host.empty (fueledWith 5000 [-1]) (-1) []
    (.new () none none) 16 .self rfl paged fueled rfl (fun fits => absurd fits beyond) rfl
  have trapped : ∃ e', (vmWithin memoryGrowModule Host.empty 0 16).Halts (fueledWith 5000 [-1])
      (.halt (.trapped .outOfFuel e')) := ⟨_, Machine.halts_of_run (n := 20) rfl⟩
  obtain ⟨e', trapped⟩ := trapped
  cases trapped.unique run

/-! ## `table.grow` -/

/-- The elements Wasm lets a table have: the declared maximum and what the machine allows. -/
def TableType.mostElements (type : TableType) : Nat :=
  min (type.maximum.getD N_MAX_TABLE_SIZE) N_MAX_TABLE_SIZE

/-- The compiled `table.grow` of a table. -/
def tableGrowSite (cx : Context) (type : TableType) (entity : TableEntity) : GrowSite where
  size := entity.size
  bound := type.mostElements
  limit := BitVec.ofNat 32 (type.maximum.getD N_MAX_TABLE_SIZE)
  inject := cx.injectFuelCheck
  units := chargedUnits .i32Add (BitVec.ofNat 32 (TABLE_ELEMS_PER_FUEL - 1)) TABLE_ELEMS_PER_FUEL_LOG2

/-- The code of `table.grow` is the common one at the operators of tables. -/
lemma opTableGrowChecked_eq (table : Nat) (limit : UntypedValue) (inject : Bool) :
    opTableGrowChecked table (some limit) inject =
      opGrow (.tableSize table) (.tableGrow table) 2 limit
        (if inject then
          opCharge .i32Add (BitVec.ofNat 32 (TABLE_ELEMS_PER_FUEL - 1)) TABLE_ELEMS_PER_FUEL_LOG2
        else []) := by
  cases inject <;> rfl

section Table

variable {cx : Context} {type : TableType} {entity : TableEntity} {delta init : UntypedValue}
  {table : Nat}

/-- The emitted charge for a number of elements. -/
lemma tableGrowSite_units (cx : Context) (type : TableType) (entity : TableEntity)
    (delta : UntypedValue) :
    (tableGrowSite cx type entity).units delta = (delta.toNat + 15) % 2 ^ 32 / 16 := by
  have shift : (TABLE_ELEMS_PER_FUEL_LOG2 &&& 0x1F).toNat = 4 := rfl
  have factor : (BitVec.ofNat 32 (TABLE_ELEMS_PER_FUEL - 1) : UntypedValue).toNat = 15 := rfl
  show ((delta + BitVec.ofNat 32 (TABLE_ELEMS_PER_FUEL - 1)) >>>
    (TABLE_ELEMS_PER_FUEL_LOG2 &&& 0x1F).toNat).toNat = _
  rw [shift, BitVec.toNat_ushiftRight, BitVec.toNat_add, Nat.shiftRight_eq_div_pow, factor]

/-- One beyond the limit that passes the check is beyond what the machine allows. -/
lemma tableGrowSite_slips (unfit : ¬ (tableGrowSite cx type entity).Fits delta)
    (passes : (tableGrowSite cx type entity).Passes delta) :
    N_MAX_TABLE_SIZE < entity.size + delta.toNat := by
  have unfit : ¬ entity.size + delta.toNat ≤ type.mostElements := unfit
  by_contra allowed
  refine passes ?_
  show (BitVec.ofNat 32 (type.maximum.getD N_MAX_TABLE_SIZE)).slt (delta + BitVec.ofNat 32 entity.size)
  unfold TableType.mostElements N_MAX_TABLE_SIZE at unfit
  unfold N_MAX_TABLE_SIZE at allowed
  have sum : (delta + BitVec.ofNat 32 entity.size).toNat = entity.size + delta.toNat := by
    rw [BitVec.toNat_add, BitVec.toNat_ofNat]
    omega
  have limit : (BitVec.ofNat 32 (type.maximum.getD N_MAX_TABLE_SIZE)).toNat =
      type.maximum.getD 1024 := by
    rw [BitVec.toNat_ofNat, N_MAX_TABLE_SIZE]
    omega
  rw [InitSite.slt_iff_of_small (by omega) (by omega)]
  omega

/-- The table after a growth that succeeds. -/
def TableEntity.grown (entity : TableEntity) (delta : Nat) (init : UntypedValue) : TableEntity :=
  ⟨entity.elements ++ List.replicate delta init⟩

/-- The instruction itself, after the check. -/
lemma visitTableGrow_eq (found : store.tables table = some entity)
    (passes : (tableGrowSite cx type entity).Passes delta) :
    (⟨delta :: init :: below, cap, calls, p, store⟩ : Executor T).visitTableGrow table =
      .next (if (tableGrowSite cx type entity).Fits delta then
        ⟨BitVec.ofNat 32 entity.size :: below, cap, calls, p + 1,
          { store with
            tables := Function.update store.tables table (entity.grown delta.toNat init) }⟩
      else ⟨-1 :: below, cap, calls, p + 1, store⟩) := by
  unfold Executor.visitTableGrow
  dsimp only
  rw [found, Option.getD_some]
  split_ifs with fits
  · have fits : entity.size + delta.toNat ≤ type.mostElements := fits
    unfold TableType.mostElements at fits
    rw [TableEntity.growUntyped, if_neg (by omega)]
    rfl
  · rw [TableEntity.growUntyped, if_pos (tableGrowSite_slips fits passes)]
    -- The table is written back as it was.
    have same : Function.update store.tables table (some entity) = store.tables := by
      rw [← found]
      exact Function.update_eq_self table store.tables
    simp only [Executor.setTable, same]
    rfl

end Table

/-- What Wasm makes of an executor at a `table.grow`, where the code ends at `hi` and the store after
the charge for a growth that succeeds is given. -/
def tableGrowOutcome (type : TableType) (table : Nat) (entity : TableEntity) (e : Executor T)
    (delta init : UntypedValue) (below : List UntypedValue) (charged : Store T) (hi : Nat) :
    Executor T :=
  if entity.size + delta.toNat ≤ type.mostElements then
    { e with
      valueStack := BitVec.ofNat 32 entity.size :: below
      ip := hi
      store := { charged with
        tables := Function.update e.store.tables table (entity.grown delta.toNat init) } }
  else
    { e with valueStack := -1 :: below, ip := hi }

/-- The compiled `table.grow` does what Wasm does, with fuel for what a growth that succeeds costs,
except for the operands that `Defect` names. -/
theorem tableGrow_exact_iff (cx : Context) (type : TableType) {table : Nat} {entity : TableEntity}
    {e : Executor T} {delta init : UntypedValue}
    (placed : CodeAt m.codeSection e.ip (opTableGrowChecked table
      (some (BitVec.ofNat 32 (type.maximum.getD N_MAX_TABLE_SIZE))) cx.injectFuelCheck))
    (found : e.store.tables table = some entity) (fueled : e.store.Fueled)
    (pushed : e.valueStack = delta :: init :: below)
    (enough : entity.size + delta.toNat ≤ type.mostElements →
      chargeUnits e.store cx.injectFuelCheck ((delta.toNat + 15) / 16) = some store')
    (end_eq : hi = e.ip + (opTableGrowChecked table
      (some (BitVec.ofNat 32 (type.maximum.getD N_MAX_TABLE_SIZE))) cx.injectFuelCheck).length) :
    (vmWithin m host e.ip hi).Halts e
        (.next (tableGrowOutcome type table entity e delta init below store' hi)) ↔
      ¬ (tableGrowSite cx type entity).Defect delta e.store.consumedFuel := by
  obtain ⟨valueStack, cap, calls, p, store⟩ := e
  subst pushed
  dsimp only at placed found fueled enough end_eq ⊢
  rw [opTableGrowChecked_eq] at placed end_eq
  have charge : (tableGrowSite cx type entity).Fits delta →
      chargeUnits store cx.injectFuelCheck ((tableGrowSite cx type entity).units delta) =
        some store' := by
    intro fits
    have le : entity.size + delta.toNat ≤ type.mostElements := fits
    have most : type.mostElements ≤ 1024 := Nat.min_le_right _ _
    rw [tableGrowSite_units, ← enough le]
    congr 1
    omega
  have sizes : ∀ stack p, (⟨stack, cap, calls, p, store⟩ : Executor T).step m host (.tableSize table) =
      .next ⟨BitVec.ofNat 32 entity.size :: stack, cap, calls, p + 1, store⟩ := by
    intro stack p
    simp only [Executor.step, Executor.visitTableSize, found]
    rfl
  have grows : ∀ p store₁, (tableGrowSite cx type entity).Passes delta →
      chargeUnits store cx.injectFuelCheck ((tableGrowSite cx type entity).units delta) =
        some store₁ →
      (⟨delta :: [init] ++ below, cap, calls, p, store₁⟩ : Executor T).step m host
          (.tableGrow table) =
        .next (if (tableGrowSite cx type entity).Fits delta then
          ⟨BitVec.ofNat 32 entity.size :: below, cap, calls, p + 1, { store₁ with
            tables := Function.update store.tables table (entity.grown delta.toNat init) }⟩
        else ⟨-1 :: below, cap, calls, p + 1, store₁⟩) := by
    intro p store₁ passes charged
    have kept : store₁.tables = store.tables := by rw [chargeUnits_frame charged]
    rw [← kept] at found ⊢
    exact visitTableGrow_eq found passes
  have size_ne : (tableGrowSite cx type entity).Fits delta →
      BitVec.ofNat 32 entity.size ≠ (-1 : UntypedValue) := by
    intro fits eq
    have le : entity.size + delta.toNat ≤ type.mostElements := fits
    have most : type.mostElements ≤ 1024 := Nat.min_le_right _ _
    have eq := congrArg BitVec.toNat eq
    rw [BitVec.toNat_ofNat] at eq
    have : (-1 : UntypedValue).toNat = 2 ^ 32 - 1 := rfl
    omega
  exact opGrow_exact_iff (tableGrowSite cx type entity) [init] placed rfl sizes grows
    size_ne fueled end_eq charge

/-- The growths that are turned away are those under a declared maximum from `2 ^ 31` on; those that are
charged for though they fail lie beyond the limit, and pass the check. -/
lemma tableGrowSite_defect_iff {cx : Context} {type : TableType} {entity : TableEntity}
    {delta : UntypedValue} {consumed : Nat} (declared : type.maximum.getD N_MAX_TABLE_SIZE < 2 ^ 32) :
    (tableGrowSite cx type entity).Defect delta consumed ↔
      entity.size + delta.toNat ≤ type.mostElements ∧
          2 ^ 31 ≤ type.maximum.getD N_MAX_TABLE_SIZE ∨
        cx.injectFuelCheck = true ∧ type.mostElements < entity.size + delta.toNat ∧
          (tableGrowSite cx type entity).Passes delta ∧ 16 ≤ (delta.toNat + 15) % 2 ^ 32 ∧
            consumed ≠ 2 ^ 64 - 1 := by
  have units := tableGrowSite_units cx type entity delta
  have limit : (BitVec.ofNat 32 (type.maximum.getD N_MAX_TABLE_SIZE)).toNat =
      type.maximum.getD N_MAX_TABLE_SIZE := by
    rw [BitVec.toNat_ofNat]
    exact Nat.mod_eq_of_lt declared
  -- Within the limit the sum does not wrap, so that only the sign of the maximum matters.
  have turned : entity.size + delta.toNat ≤ type.mostElements →
      (¬ (tableGrowSite cx type entity).Passes delta ↔
        2 ^ 31 ≤ type.maximum.getD N_MAX_TABLE_SIZE) := by
    intro fits
    have most : type.mostElements ≤ 1024 := Nat.min_le_right _ _
    have least : type.mostElements ≤ type.maximum.getD N_MAX_TABLE_SIZE := Nat.min_le_left _ _
    have sum : (delta + BitVec.ofNat 32 entity.size).toNat = entity.size + delta.toNat := by
      rw [BitVec.toNat_add, BitVec.toNat_ofNat]
      omega
    show ¬ ¬ (BitVec.ofNat 32 (type.maximum.getD N_MAX_TABLE_SIZE)).slt
      (delta + BitVec.ofNat 32 entity.size) ↔ _
    rw [not_not, BitVec.slt_iff_toInt_lt, BitVec.toInt_eq_toNat_cond, BitVec.toInt_eq_toNat_cond,
      limit, sum]
    split_ifs <;> omega
  constructor
  · intro defect
    cases defect with
    | turnedAway fits refused => exact .inl ⟨fits, (turned fits).mp refused⟩
    | charged unfit passes inject units_ne counts =>
      exact .inr ⟨inject, Nat.lt_of_not_le unfit, passes, by omega, counts⟩
  · rintro (⟨fits, negative⟩ | ⟨inject, beyond, passes, rest, counts⟩)
    · exact .turnedAway fits ((turned fits).mpr negative)
    · exact .charged (Nat.not_le.mpr beyond) passes inject (by omega) counts

/-- An executor on a store with one empty table. -/
def withTable (stack : List UntypedValue) : Executor Unit :=
  ⟨stack, N_DEFAULT_STACK_SIZE, [], 0,
    { Store.new () (some 5000) none with tables := Function.update (fun _ => none) 0 (some {}) }⟩

/-- A growth by two elements of a table without a declared maximum. -/
theorem tableGrow_exact_iff_two :
    (vmWithin ⟨opTableGrowChecked 0 (some 1024) true, [], [], [], 0⟩ Host.empty 0 17).Halts
      (withTable [2, 7])
      (.next (tableGrowOutcome ⟨.funcRef, 0, none⟩ 0 {} (withTable [2, 7]) 2 7 []
        { (withTable []).store with consumedFuel := 1 } 17)) := by
  have fueled : (withTable [2, 7]).store.Fueled := ⟨Nat.two_pow_pos 64, fun _ _ => Nat.zero_le _⟩
  refine (tableGrow_exact_iff metering ⟨.funcRef, 0, none⟩ (e := withTable [2, 7]) .self rfl fueled
    rfl ?_ rfl).mpr ?_
  · exact fun _ => by simp [chargeUnits, Store.tryConsumeFuel, withTable, Store.new, metering,
      Context.injectFuelCheck]
  · rw [tableGrowSite_defect_iff (by decide)]
    rintro (⟨-, negative⟩ | ⟨-, beyond, -⟩)
    · exact absurd negative (by decide)
    · exact absurd beyond (by decide)

/-- Under a declared maximum of `2 ^ 32 - 1` even the growth by one element fails. -/
theorem not_tableGrow_exact :
    ¬ ∀ (cx : Context) (type : TableType) (m : RwasmModule) (host : Host Unit) (e : Executor Unit)
      (table : Nat) (entity : TableEntity) (delta init : UntypedValue) (below : List UntypedValue)
      (store' : Store Unit) (hi : Nat),
      CodeAt m.codeSection e.ip (opTableGrowChecked table
        (some (BitVec.ofNat 32 (type.maximum.getD N_MAX_TABLE_SIZE))) cx.injectFuelCheck) →
      e.store.tables table = some entity → e.store.Fueled → e.valueStack = delta :: init :: below →
      (entity.size + delta.toNat ≤ type.mostElements →
        chargeUnits e.store cx.injectFuelCheck ((delta.toNat + 15) / 16) = some store') →
      hi = e.ip + (opTableGrowChecked table
        (some (BitVec.ofNat 32 (type.maximum.getD N_MAX_TABLE_SIZE))) cx.injectFuelCheck).length →
      (vmWithin m host e.ip hi).Halts e
        (.next (tableGrowOutcome type table entity e delta init below store' hi)) := by
  intro all
  have fueled : (withTable [1, 7]).store.Fueled := ⟨Nat.two_pow_pos 64, fun _ _ => Nat.zero_le _⟩
  have run := all { metering with withConsumeFuel := false } ⟨.funcRef, 0, some (2 ^ 32 - 1)⟩
    ⟨opTableGrowChecked 0 (some (BitVec.ofNat 32 (2 ^ 32 - 1))) false, [], [], [], 0⟩ Host.empty
    (withTable [1, 7]) 0 {} 1 7 [] (withTable [1, 7]).store 11 .self rfl fueled rfl (fun _ => rfl) rfl
  have refused : (vmWithin ⟨opTableGrowChecked 0 (some (BitVec.ofNat 32 (2 ^ 32 - 1))) false, [], [], [], 0⟩
      Host.empty 0 11).Halts (withTable [1, 7]) (.next { withTable [-1] with ip := 11 }) :=
    Machine.halts_of_run (n := 20) rfl
  have same := refused.unique run
  rw [tableGrowOutcome, if_pos (by decide)] at same
  injection same with same
  injection same with same
  cases same

end Rwasm
