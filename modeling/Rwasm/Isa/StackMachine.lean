import Rwasm.Library.Code
import Rwasm.Vm.Executor

/-!
# Code that only works on the stack

The expansions of the 64-bit operators read and write nothing but the value stack, and jump within
themselves. Here they are run on a machine of their own, whose states are a position in the code and a
stack; wherever the code stands, the executor follows that machine.
-/

namespace Rwasm

open UntypedValue

/-- Replaces the slot at a depth. -/
def replaceSlot : List UntypedValue → Nat → UntypedValue → Option (List UntypedValue)
  | [], _, _ => none
  | _ :: stack, 0, v => some (v :: stack)
  | w :: stack, n + 1, v => (replaceSlot stack n v).map (w :: ·)

/-- A slot that is replaced is there. -/
lemma replaceSlot_eq {stack stack' : List UntypedValue} {n v} (h : replaceSlot stack n v = some stack') :
    n < stack.length ∧ stack' = stack.set n v := by
  induction stack generalizing n stack' with
  | nil => cases h
  | cons w stack ih =>
    cases n with
    | zero =>
      cases h
      exact ⟨Nat.zero_lt_succ _, rfl⟩
    | succ n =>
      obtain ⟨rest, hr, rfl⟩ := Option.map_eq_some_iff.mp h
      obtain ⟨lt, rfl⟩ := ih hr
      exact ⟨Nat.succ_lt_succ lt, rfl⟩

/-- What an instruction makes of the stack, if that is all it works on and it cannot trap. -/
def Opcode.onStack (op : Opcode) (stack : List UntypedValue) : Option (List UntypedValue) :=
  match op, stack with
  | .localGet (n + 1), stack => (stack[n]?).map (· :: stack)
  | .localSet (n + 1), v :: stack => replaceSlot stack n v
  | .localTee (n + 1), v :: stack => replaceSlot (v :: stack) n v
  | .i32Const v, stack => some (v :: stack)
  | .drop, _ :: stack => some stack
  | .select, c :: e2 :: e1 :: stack => some ((if c.toBool then e1 else e2) :: stack)
  | .unary op, v :: stack => some (op.eval v :: stack)
  | .binary op, rhs :: lhs :: stack => some (op.eval lhs rhs :: stack)
  | .i32Mul64, rhs :: lhs :: stack =>
    some (pushValue (.i64 (lhs.setWidth 64 * rhs.setWidth 64)) stack)
  | .i32Add64, rhs :: lhs :: stack =>
    some (pushValue (.i64 (lhs.setWidth 64 + rhs.setWidth 64)) stack)
  | _, _ => none

/-- A position in a piece of code and a value stack. -/
structure Cursor where
  pc : Nat
  stack : List UntypedValue

/-- A jump within the code. -/
def Cursor.jump (pc : Nat) (offset : Int) (stack : List UntypedValue) : Turn Cursor (Option TrapCode) :=
  if 0 ≤ (pc : Int) + offset then .next ⟨((pc : Int) + offset).toNat, stack⟩ else .halt none

/-- The machine of a piece of code. It stops with a trap, or with nothing at an instruction that
needs more than the stack. -/
def stackMachine (code : List Opcode) : Machine Cursor (Option TrapCode) where
  step c :=
    match code[c.pc]? with
    | some (.br offset) => Cursor.jump c.pc offset c.stack
    | some (.brIfEqz offset) =>
      match c.stack with
      | v :: stack => if v.toBool then .next ⟨c.pc + 1, stack⟩ else Cursor.jump c.pc offset stack
      | [] => .halt none
    | some (.brIfNez offset) =>
      match c.stack with
      | v :: stack => if v.toBool then Cursor.jump c.pc offset stack else .next ⟨c.pc + 1, stack⟩
      | [] => .halt none
    | some (.trap code) => .halt (some code)
    | some op =>
      match op.onStack c.stack with
      | some stack => .next ⟨c.pc + 1, stack⟩
      | none => .halt none
    | none => .halt none

variable {T : Type} {m : RwasmModule} {host : Host T} {code : List Opcode} {op : Opcode} {p i : Nat}
  {stack stack' : List UntypedValue} {cap : Nat} {calls : List Nat} {store : Store T}

/-- The executor does what an instruction does on the stack. -/
lemma step_onStack (h : op.onStack stack = some stack') :
    (⟨stack, cap, calls, p, store⟩ : Executor T).step m host op =
      .next ⟨stack', cap, calls, p + 1, store⟩ := by
  cases op
  case localGet depth =>
    cases depth with
    | zero => cases h
    | succ n =>
      obtain ⟨v, hv, rfl⟩ := Option.map_eq_some_iff.mp h
      simp only [Executor.step, Executor.visitLocalGet, hv]
      rfl
  case localSet depth =>
    rcases depth with _ | n <;> rcases stack with _ | ⟨v, stack⟩ <;> try cases h
    obtain ⟨lt, rfl⟩ := replaceSlot_eq h
    simp only [Executor.step, Executor.visitLocalSet, if_pos lt]
    rfl
  case localTee depth =>
    rcases depth with _ | n <;> rcases stack with _ | ⟨v, stack⟩ <;> try cases h
    obtain ⟨lt, rfl⟩ := replaceSlot_eq h
    simp only [Executor.step, Executor.visitLocalTee, if_pos lt]
    rfl
  case i32Const v =>
    cases h
    rfl
  case drop =>
    rcases stack with _ | ⟨v, stack⟩ <;> cases h
    simp [Executor.step, Executor.visitBulkDrop, Executor.advance]
  case select =>
    rcases stack with _ | ⟨c, _ | ⟨e2, _ | ⟨e1, stack⟩⟩⟩ <;> cases h
    rfl
  case unary op =>
    rcases stack with _ | ⟨v, stack⟩ <;> cases h
    rfl
  case binary op =>
    rcases stack with _ | ⟨rhs, _ | ⟨lhs, stack⟩⟩ <;> cases h
    rfl
  case i32Mul64 | i32Add64 =>
    rcases stack with _ | ⟨rhs, _ | ⟨lhs, stack⟩⟩ <;> cases h
    rfl
  all_goals cases h

/-- A jump within the code is a jump of the executor. -/
lemma jump_onStack {offset : Int} {c : Cursor} (h : Cursor.jump i offset stack = .next c) :
    (⟨stack, cap, calls, p + i, store⟩ : Executor T).jump offset =
      .next ⟨c.stack, cap, calls, p + c.pc, store⟩ := by
  unfold Cursor.jump at h
  split at h
  next le =>
    cases h
    have lands : 0 ≤ ((p + i : Nat) : Int) + offset := by omega
    have eq : (((p + i : Nat) : Int) + offset).toNat = p + ((i : Int) + offset).toNat := by omega
    simp only [Executor.jump, if_pos lands, eq]
  · cases h

/-- A step of the code is a step of the executor. -/
lemma vm_onStack {c c' : Cursor} (at' : CodeAt m.codeSection p code)
    (h : (stackMachine code).step c = .next c') :
    (vm m host).step ⟨c.stack, cap, calls, p + c.pc, store⟩ =
      .next ⟨c'.stack, cap, calls, p + c'.pc, store⟩ := by
  obtain ⟨pc, stack⟩ := c
  unfold stackMachine at h
  dsimp only at h ⊢
  cases fetch : code[pc]? with
  | none =>
    rw [fetch] at h
    cases h
  | some op =>
    rw [fetch] at h
    have found := at'.getElem? fetch
    have eq : (vm m host).step ⟨stack, cap, calls, p + pc, store⟩ =
        (⟨stack, cap, calls, p + pc, store⟩ : Executor T).step m host op := by
      simp only [vm, found]
    rw [eq]
    split at h
    next offset eq =>
      cases eq
      exact jump_onStack h
    next offset eq =>
      cases eq
      rcases stack with _ | ⟨v, stack⟩
      · cases h
      · simp only [Executor.step, Executor.visitBrIf]
        dsimp only at h
        split at h
        next hv =>
          cases h
          rw [if_pos hv]
          rfl
        next hv =>
          rw [if_neg hv]
          exact jump_onStack h
    next offset eq =>
      cases eq
      rcases stack with _ | ⟨v, stack⟩
      · cases h
      · simp only [Executor.step, Executor.visitBrIfNez]
        dsimp only at h
        split at h
        next hv =>
          rw [if_pos hv]
          exact jump_onStack h
        next hv =>
          cases h
          rw [if_neg hv]
          rfl
    · cases h
    next op' _ _ _ _ eq =>
      cases eq
      split at h
      next hs =>
        cases h
        exact step_onStack hs
      · cases h
    next eq => cases eq

/-- A run of the code is a run of the executor. -/
theorem vm_steps_onStack {c c' : Cursor} (at' : CodeAt m.codeSection p code)
    (st : (stackMachine code).Steps c c') :
    (vm m host).Steps ⟨c.stack, cap, calls, p + c.pc, store⟩
      ⟨c'.stack, cap, calls, p + c'.pc, store⟩ := by
  induction st with
  | refl => exact .refl
  | tail _ h ih => exact ih.trans (.single (vm_onStack at' h))

/-- A trap of the code is a trap of the executor. -/
theorem vm_traps_onStack {c : Cursor} {trap : TrapCode} (at' : CodeAt m.codeSection p code)
    (halts : (stackMachine code).Halts c (some trap)) :
    ∃ e, (vm m host).Halts ⟨c.stack, cap, calls, p + c.pc, store⟩ (.trapped trap e) ∧
      e.callStack = calls ∧ e.store = store := by
  obtain ⟨c', st, h⟩ := halts
  have run : (vm m host).Steps ⟨c.stack, cap, calls, p + c.pc, store⟩
      ⟨c'.stack, cap, calls, p + c'.pc, store⟩ := vm_steps_onStack at' st
  refine ⟨⟨c'.stack, cap, calls, p + c'.pc, store⟩, run.halts (.now ?_), rfl, rfl⟩
  unfold stackMachine Cursor.jump at h
  dsimp only at h
  repeat' split at h
  all_goals cases h
  rename_i fetch
  simp only [vm, at'.getElem? fetch]
  rfl

/-- Wherever the code stands in a module, it replaces the two 64-bit numbers on top of the stack by the
value of an operator and goes on behind itself, or traps as the operator does. -/
def Implements (code : List Opcode) (op : BitVec 64 → BitVec 64 → Except TrapCode (BitVec 64)) : Prop :=
  ∀ {T : Type} (m : RwasmModule) (host : Host T) (p : Nat), CodeAt m.codeSection p code →
    ∀ lhs rhs below cap calls (store : Store T),
      let s : Executor T := ⟨pushValue (.i64 rhs) (pushValue (.i64 lhs) below), cap, calls, p, store⟩
      match op lhs rhs with
      | .ok v =>
        (vm m host).Steps s ⟨pushValue (.i64 v) below, cap, calls, p + code.length, store⟩
      | .error trap =>
        ∃ e, (vm m host).Halts s (.trapped trap e) ∧ e.callStack = calls ∧ e.store = store

/-- It does if it does so on the stack alone. -/
lemma implements_of_stackMachine {op : BitVec 64 → BitVec 64 → Except TrapCode (BitVec 64)}
    (ok : ∀ lhs rhs v below, op lhs rhs = .ok v →
      (stackMachine code).Steps ⟨0, pushValue (.i64 rhs) (pushValue (.i64 lhs) below)⟩
        ⟨code.length, pushValue (.i64 v) below⟩)
    (traps : ∀ lhs rhs trap below, op lhs rhs = .error trap →
      (stackMachine code).Halts ⟨0, pushValue (.i64 rhs) (pushValue (.i64 lhs) below)⟩ (some trap)) :
    Implements code op := by
  intro T m host p at' lhs rhs below cap calls store
  dsimp only
  cases e : op lhs rhs with
  | ok v => exact vm_steps_onStack at' (ok lhs rhs v below e)
  | error trap => exact vm_traps_onStack at' (traps lhs rhs trap below e)

section Branches

variable {offset : Int} {v : UntypedValue}

/-- A stretch of code without branches that depend on the stack is run by evaluation. -/
lemma straight {c : Cursor} (n : Nat) (h : (stackMachine code).run n ⟨i, stack⟩ = .next c) :
    (stackMachine code).Steps ⟨i, stack⟩ c :=
  Machine.steps_of_run h

/-- A branch on a value that is not zero. -/
lemma brIfNez_taken (fetch : code[i]? = some (.brIfNez offset)) (hv : v.toBool = true) {j : Nat}
    (target : (i : Int) + offset = j) :
    (stackMachine code).Steps ⟨i, v :: stack⟩ ⟨j, stack⟩ := by
  refine .single ?_
  have lands : 0 ≤ (i : Int) + offset := by omega
  simp [stackMachine, fetch, hv, Cursor.jump, target]

/-- The same branch on zero. -/
lemma brIfNez_passed (fetch : code[i]? = some (.brIfNez offset)) (hv : v.toBool = false) :
    (stackMachine code).Steps ⟨i, v :: stack⟩ ⟨i + 1, stack⟩ := by
  refine .single ?_
  simp [stackMachine, fetch, hv]

/-- A branch on zero. -/
lemma brIfEqz_taken (fetch : code[i]? = some (.brIfEqz offset)) (hv : v.toBool = false) {j : Nat}
    (target : (i : Int) + offset = j) :
    (stackMachine code).Steps ⟨i, v :: stack⟩ ⟨j, stack⟩ := by
  refine .single ?_
  have lands : 0 ≤ (i : Int) + offset := by omega
  simp [stackMachine, fetch, hv, Cursor.jump, target]

/-- The same branch on a value that is not zero. -/
lemma brIfEqz_passed (fetch : code[i]? = some (.brIfEqz offset)) (hv : v.toBool = true) :
    (stackMachine code).Steps ⟨i, v :: stack⟩ ⟨i + 1, stack⟩ := by
  refine .single ?_
  simp [stackMachine, fetch, hv]

/-- A branch on a condition that holds. -/
lemma brIfNez_holds {P : Prop} [Decidable P] (fetch : code[i]? = some (.brIfNez offset)) (h : P) {j : Nat}
    (target : (i : Int) + offset = j) :
    (stackMachine code).Steps ⟨i, ofBool (decide P) :: stack⟩ ⟨j, stack⟩ := by
  rw [decide_eq_true h]
  exact brIfNez_taken fetch rfl target

/-- A branch on a condition that fails. -/
lemma brIfNez_fails {P : Prop} [Decidable P] (fetch : code[i]? = some (.brIfNez offset)) (h : ¬ P) :
    (stackMachine code).Steps ⟨i, ofBool (decide P) :: stack⟩ ⟨i + 1, stack⟩ := by
  rw [decide_eq_false h]
  exact brIfNez_passed fetch rfl

/-- The branch at the end of a loop that goes on while turns are left. -/
lemma brIfNez_more {k head exit : Nat} (fetch : code[i]? = some (.brIfNez offset))
    (target : (i : Int) + offset = head) (next : i + 1 = exit) :
    (stackMachine code).Steps ⟨i, ofBool (decide (k ≠ 0)) :: stack⟩
      ⟨if k = 0 then exit else head, stack⟩ := by
  split
  next zero =>
    rw [← next]
    exact brIfNez_fails fetch (not_not.mpr zero)
  next ne => exact brIfNez_holds fetch ne target

/-- A loop whose turns count something down to zero is left. -/
lemma countdown {P : Nat → List UntypedValue → Prop} {head exit k : Nat}
    (turn : ∀ k stack, P (k + 1) stack → ∃ stack', P k stack' ∧
      (stackMachine code).Steps ⟨head, stack⟩ ⟨if k = 0 then exit else head, stack'⟩)
    (h : P (k + 1) stack) :
    ∃ stack', P 0 stack' ∧ (stackMachine code).Steps ⟨head, stack⟩ ⟨exit, stack'⟩ := by
  induction k generalizing stack with
  | zero => exact turn 0 stack h
  | succ k ih =>
    obtain ⟨stack₁, h₁, st⟩ := turn (k + 1) stack h
    obtain ⟨stack', h', st'⟩ := ih h₁
    exact ⟨stack', h', st.trans st'⟩

end Branches

end Rwasm
