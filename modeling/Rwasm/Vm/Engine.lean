import Rwasm.Vm.Executor

/-!
# The engine

`RwasmExecutor::run`, and what the entry points of `vm/engine.rs` start it from and make of its end. A
run need not end, so these are relations between their inputs and the outcome, given by the runs of the
machine.

The resumable context is a field of the source's store; it is only set when a call ends with an
interruption, so here it is part of that outcome.
-/

namespace Rwasm

/-- What is remembered of an interrupted execution (`ReusableContext`). -/
structure ReusableContext where
  module : RwasmModule
  callStack : List Nat
  ip : Nat
  valueStack : List UntypedValue
  capacity : Nat

/-- The outcome of `entrypoint`, `execute` or `resume`, with the store it leaves. -/
inductive Outcome (T : Type) where
  | ok (result : List Value) (store : Store T)
  | interrupted (store : Store T) (context : ReusableContext)
  | err (code : TrapCode) (store : Store T)
  | undefined

namespace Executor

variable {T : Type}

/-- The parameters are copied to the stack once there is room for them. -/
def pushParams (e : Executor T) (params : List Value) : Option (Executor T) :=
  (e.reserve (slotCount (params.map Value.ty))).map fun e =>
    { e with valueStack := pushValues params e.valueStack }

/-- What `run` makes of the end of the loop. The result buffer gives the types of the results, and
is left as it was when the execution was halted. -/
def settle (m : RwasmModule) (exit : Exit T) (result : List Value) : Outcome T :=
  match exit with
  | .returned e =>
    match popValues (result.map Value.ty).reverse e.valueStack with
    | some (result, _) => .ok result e.store
    | none => .undefined
  | .trapped .interruptionCalled e =>
    .interrupted e.store ⟨m, e.callStack, e.ip, e.valueStack, e.capacity⟩
  | .trapped .executionHalted e => .ok result { e.store with lastSignature := none }
  | .trapped code e => .err code { e.store with lastSignature := none }
  | .undefined => .undefined

/-- `RwasmExecutor::run`, with the context remembered for an interruption. -/
def Run (m : RwasmModule) (host : Host T) (e : Executor T) (params result : List Value)
    (out : Outcome T) : Prop :=
  match e.pushParams params with
  | none => out = .err .stackOverflow e.store
  | some e => ∃ exit, (vm m host).Halts e exit ∧ out = settle m exit result

/-- The executor of a fresh value stack and call stack. -/
def fresh (store : Store T) (ip : Nat) : Executor T where
  valueStack := []
  capacity := N_DEFAULT_STACK_SIZE
  callStack := []
  ip := ip
  store := store

end Executor

variable {T : Type}

/-- `ExecutionEngine::entrypoint`. -/
def Entrypoint (m : RwasmModule) (host : Host T) (store : Store T) (out : Outcome T) : Prop :=
  (Executor.fresh store 0).Run m host [] [] out

/-- The executor `resume` rebuilds from a remembered context. -/
def ReusableContext.executor (context : ReusableContext) (store : Store T) : Executor T where
  valueStack := context.valueStack
  capacity := context.capacity
  callStack := context.callStack
  ip := context.ip
  store := store

end Rwasm
