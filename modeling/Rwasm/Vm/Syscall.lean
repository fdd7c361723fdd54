import Rwasm.Vm.Bounds

/-!
# Syscall marshalling

What a syscall handler receives of the arguments its caller pushed (`invoke_syscall`), compared with
the parameters the wasmtime-side handler is given (`wasmtime/syscall_handler.rs`).

The executor pops the last argument first, but takes the types of the pops from the front of the
parameter list. The two orders meet exactly when the parameter list reads the same from both ends. The
results are pushed into slots that were reserved by their number, where one of 64 bits takes two.
-/

namespace Rwasm

/-- A value as wasmtime passes it (`wasmtime::Val`); vectors and references are not told apart. -/
inductive WasmtimeVal where
  | i32 (bits : BitVec 32)
  | i64 (bits : BitVec 64)
  | f32 (bits : BitVec 32)
  | f64 (bits : BitVec 64)
  | other
  deriving DecidableEq

/-- What `wasmtime_syscall_handler` makes of one parameter; the source panics on the others. -/
def WasmtimeVal.toValue : WasmtimeVal → Option Value
  | i32 v => some (.i32 v)
  | i64 v => some (.i64 v)
  | f32 v => some (.f32 v)
  | f64 v => some (.f64 v)
  | other => none

/-- The parameters `wasmtime_syscall_handler` passes on. -/
def wasmtimeSyscallParams (params : List WasmtimeVal) : Option (List Value) :=
  params.mapM WasmtimeVal.toValue

/-- The wasmtime value of an argument. -/
def Value.toWasmtime : Value → WasmtimeVal
  | i32 v => .i32 v
  | i64 v => .i64 v
  | f32 v => .f32 v
  | f64 v => .f64 v
  | funcRef _ | externRef _ => .other

/-- The slots of a value in the order they are pushed: a 64-bit value is its low and its high
limb. -/
def Value.limbs : Value → List UntypedValue
  | i32 b | f32 b | funcRef b | externRef b => [b]
  | i64 b | f64 b => [(splitIntoI32Tuple b).1, (splitIntoI32Tuple b).2]

/-- A stack with values pushed in order on top of another. -/
def Value.onTop (vs : List Value) (stack : List UntypedValue) : List UntypedValue :=
  (vs.flatMap Value.limbs).reverse ++ stack

section Stack

variable {v : Value} {vs : List Value} {ts : List ValType} {stack stack' : List UntypedValue}

/-- A value is pushed limb by limb. -/
lemma pushValue_eq : pushValue v stack = v.limbs.reverse ++ stack := by
  cases v <;> rfl

/-- The stack `pushValues` makes. -/
lemma pushValues_eq : pushValues vs stack = Value.onTop vs stack := by
  induction vs generalizing stack with
  | nil => rfl
  | cons v vs ih =>
    calc pushValues (v :: vs) stack
      _ = Value.onTop vs (pushValue v stack) := ih
      _ = Value.onTop (v :: vs) stack := by simp [Value.onTop, pushValue_eq]

/-- A value popped at its own type is the one that was pushed. -/
lemma popValue_limbs : popValue v.ty (v.limbs.reverse ++ stack) = some (v, stack) := by
  cases v <;> simp [popValue, Value.ty, Value.limbs]

/-- A popped value has the type asked for. -/
lemma popValue_ty {t} (h : popValue t stack = some (v, stack')) : v.ty = t := by
  unfold popValue at h
  split at h <;> cases h <;> rfl

/-- Popping with the types last first gives back the values that were pushed. -/
lemma popValues_onTop :
    popValues (vs.map Value.ty).reverse (Value.onTop vs stack) = some (vs, stack) := by
  induction vs using List.reverseRecOn generalizing stack with
  | nil => rfl
  | append_singleton vs v ih =>
    have hs : Value.onTop (vs ++ [v]) stack = v.limbs.reverse ++ Value.onTop vs stack := by
      simp [Value.onTop]
    rw [hs, List.map_append, List.reverse_append]
    simp only [List.map_cons, List.map_nil, List.reverse_singleton, List.singleton_append, popValues,
      popValue_limbs, Option.bind_eq_bind, Option.bind_some, ih]

/-- Popped values have the types of the pops, the first one last. -/
lemma popValues_ty (h : popValues ts stack = some (vs, stack')) : vs.map Value.ty = ts.reverse := by
  induction ts generalizing stack vs with
  | nil =>
    cases h
    rfl
  | cons t ts ih =>
    simp only [popValues, Option.bind_eq_bind, Option.bind_eq_some_iff, Prod.exists] at h
    obtain ⟨v, st, hv, ws, st', hws, h⟩ := h
    cases h
    simp [ih hws, popValue_ty hv]

end Stack

/-- A handler that leaves every result the type it is declared with. -/
def SyscallHandler.KeepsTypes {T : Type} (handler : SyscallHandler T) : Prop :=
  ∀ c f ps rs, (handler.invoke c f ps rs).result.map Value.ty = rs.map Value.ty

namespace Executor

variable {T : Type}

/-- The handler receives exactly `args`, which the wasmtime-side handler receives too; the stack
below them is left as it was, and takes the results, in slots that are reserved. -/
def Marshals (host : Host T) (e : Executor T) (entity : ImportLinkerEntity) (args : List Value)
    (stack : List UntypedValue) : Prop :=
  wasmtimeSyscallParams (args.map Value.toWasmtime) = some args ∧
    ∃ result capacity, entity.result.mapM Value.default = some result ∧
      let reply := host.syscallHandler.invoke e.store.caller entity.sysFuncIdx args result
      (e.invokeSyscall host entity.sysFuncIdx).guarded WritesInside .undefined =
        ({ e with capacity := capacity } : Executor T).afterSyscall reply stack
          (Value.onTop reply.result stack)

/-- The call finds room for as many slots as there are arguments or results, and the slots of its
results lie inside the reserved ones. -/
def Fits (e : Executor T) (entity : ImportLinkerEntity) (stack : List UntypedValue) : Prop :=
  e.valueStack.length + max entity.params.length entity.result.length ≤ N_MAX_STACK_SIZE ∧
    stack.length + slotCount entity.result ≤
      e.grownCapacity (max entity.params.length entity.result.length)

variable {e : Executor T} {entity : ImportLinkerEntity} {args : List Value}
  {stack : List UntypedValue} {linker : ImportLinker}

/-- A handler that tells whether it was passed `args`. -/
def probe (args : List Value) : SyscallHandler T where
  invoke c _ ps rs := ⟨c, rs, if ps = args then .ok () else .error .unreachableCodeReached⟩
  length_result _ _ _ _ := rfl
  length_memory _ _ _ _ := rfl
  currentPages_eq _ _ _ _ := rfl
  maxPages_eq _ _ _ _ := rfl

/-- A guarded turn that goes on is the turn itself, and writes inside the reserved slots. -/
lemma next_of_guarded {t : Turn (Executor T) (Exit T)} {e' : Executor T}
    (h : t.guarded WritesInside .undefined = .next e') : t = .next e' ∧ e'.InBounds := by
  unfold Turn.guarded at h
  split at h
  next inside =>
    subst h
    exact ⟨rfl, inside⟩
  · cases h

/-- The probe goes on with its zeros when it is passed its own list, in slots that are reserved. -/
lemma marshals_probe (h : Marshals ⟨linker, probe args⟩ e entity args stack) :
    ∃ result capacity, entity.result.mapM Value.default = some result ∧
      (Value.onTop result stack).length ≤ capacity ∧
      e.invokeSyscall ⟨linker, probe args⟩ entity.sysFuncIdx =
        .next { e with
          valueStack := Value.onTop result stack
          capacity := capacity
          store := e.store.setCaller e.store.caller } := by
  obtain ⟨-, result, cap, hd, eq⟩ := h
  have goes : (e.invokeSyscall ⟨linker, probe args⟩ entity.sysFuncIdx).guarded WritesInside .undefined =
      .next { e with
        valueStack := Value.onTop result stack
        capacity := cap
        store := e.store.setCaller e.store.caller } := by
    rw [eq]
    simp [afterSyscall, probe]
  obtain ⟨eq, inside⟩ := next_of_guarded goes
  exact ⟨result, cap, hd, inside, eq⟩

/-- The probe goes on only when it is passed its own list, and with the slots of the call. -/
lemma popValues_of_marshals_probe
    (member : linker.resolveByFuncIdx entity.sysFuncIdx = some entity)
    (h : Marshals ⟨linker, probe args⟩ e entity args stack) :
    (∃ stack', popValues entity.params e.valueStack = some (args, stack')) ∧ Fits e entity stack := by
  obtain ⟨result, cap, hd, inside, goes⟩ := marshals_probe h
  cases hr : e.reserve (max entity.params.length entity.result.length) with
  | none => simp [invokeSyscall, member, hr] at goes
  | some e₁ =>
    cases hp : popValues entity.params e.valueStack with
    | none =>
      rw [reserve_frame hr] at hr
      simp [invokeSyscall, member, hr, hp] at goes
    | some r =>
      obtain ⟨ps, stack'⟩ := r
      rw [invokeSyscall_eq ⟨linker, probe args⟩ member hr hp hd] at goes
      by_cases same : ps = args
      · refine ⟨⟨stack', by rw [same]⟩, le_of_reserve hr, ?_⟩
        have grown := reserve_eq hr
        simp only [afterSyscall, probe, if_pos same] at goes
        injection goes with goes
        have cap_eq : e₁.capacity = cap := congrArg Executor.capacity goes
        rw [← pushValues_eq, length_pushValues, mapM_default_ty hd, ← cap_eq, grown] at inside
        exact inside
      · simp [afterSyscall, probe, same] at goes

/-- Arguments of the types `i32` and `i64` are passed on by the wasmtime-side handler as they
are. -/
lemma wasmtimeSyscallParams_args {args : List Value}
    (num : ∀ t ∈ args.map Value.ty, t = .i32 ∨ t = .i64) :
    wasmtimeSyscallParams (args.map Value.toWasmtime) = some args := by
  induction args with
  | nil => rfl
  | cons v vs ih =>
    have hv : v.toWasmtime.toValue = some v := by
      rcases num v.ty (by simp) with h | h <;> cases v <;> first | rfl | cases h
    have hvs := ih fun t ht => num t (List.mem_cons_of_mem _ ht)
    simp only [wasmtimeSyscallParams] at hvs ⊢
    simp [List.mapM_cons, hv, hvs]

/-- Where the two orders meet, any handler is passed exactly the arguments, and its results fit if
their slots do. -/
lemma marshals_of_fit {handler : SyscallHandler T} {result : List Value}
    (member : linker.resolveByFuncIdx entity.sysFuncIdx = some entity)
    (num : ∀ t ∈ entity.params, t = .i32 ∨ t = .i64) (typed : args.map Value.ty = entity.params)
    (pushed : e.valueStack = Value.onTop args stack)
    (room : e.valueStack.length + max entity.params.length entity.result.length
      ≤ N_MAX_STACK_SIZE)
    (palindrome : entity.params.reverse = entity.params)
    (zeros : entity.result.mapM Value.default = some result)
    (fit : stack.length +
        slotCount ((handler.invoke e.store.caller entity.sysFuncIdx args result).result.map Value.ty) ≤
      e.grownCapacity (max entity.params.length entity.result.length)) :
    Marshals ⟨linker, handler⟩ e entity args stack := by
  obtain ⟨e', hr⟩ : ∃ e', e.reserve (max entity.params.length entity.result.length) = some e' :=
    ⟨_, if_pos room⟩
  have grown := reserve_eq hr
  have hp : popValues entity.params e.valueStack = some (args, stack) := by
    rw [pushed, ← palindrome, ← typed]
    exact popValues_onTop
  have eq := invokeSyscall_eq ⟨linker, handler⟩ member hr hp zeros
  refine ⟨wasmtimeSyscallParams_args (typed ▸ num), result, e'.capacity, zeros, ?_⟩
  dsimp only
  rw [eq, ← pushValues_eq, grown]
  refine if_pos ?_
  have below : stack.length ≤ e.grownCapacity (max entity.params.length entity.result.length) :=
    (Nat.le_add_right _ _).trans fit
  have on_top := fit
  rw [← length_pushValues] at on_top
  simp only [afterSyscall]
  split
  · exact on_top
  · exact on_top
  · exact below

/-- The handler is passed exactly the arguments and its results are pushed, whatever handler it is,
precisely when the parameter list of the import is a palindrome, none of its results is a `v128`, which
has no value, and the call reserves the slots of its results. -/
theorem marshals_iff_palindrome (member : linker.resolveByFuncIdx entity.sysFuncIdx = some entity)
    (num : ∀ t ∈ entity.params, t = .i32 ∨ t = .i64) (typed : args.map Value.ty = entity.params)
    (pushed : e.valueStack = Value.onTop args stack) :
    (∀ handler : SyscallHandler T, handler.KeepsTypes →
        Marshals ⟨linker, handler⟩ e entity args stack) ↔
      entity.params.reverse = entity.params ∧ .v128 ∉ entity.result ∧ Fits e entity stack := by
  constructor
  · intro h
    have marshals := h (probe args) fun _ _ _ _ => rfl
    obtain ⟨result, -, hd, -⟩ := marshals_probe marshals
    obtain ⟨⟨stack', hp⟩, fit⟩ := popValues_of_marshals_probe member marshals
    refine ⟨?_, mapM_default_isSome.mp (by rw [hd]; rfl), fit⟩
    rw [← popValues_ty hp, typed]
  · intro ⟨palindrome, nov128, room, fit⟩ handler keeps
    obtain ⟨result, hd⟩ := Option.isSome_iff_exists.mp (mapM_default_isSome.mpr nov128)
    refine marshals_of_fit member num typed pushed room palindrome hd ?_
    rw [keeps, mapM_default_ty hd]
    exact fit

/-- An import of one parameter of each width. -/
def mixed : ImportLinkerEntity where
  sysFuncIdx := 1
  syscallFuelParam := .none
  params := [.i32, .i64]
  result := []
  intrinsic := none

/-- An import whose parameters read the same from both ends. -/
def mirrored : ImportLinkerEntity where
  sysFuncIdx := 1
  syscallFuelParam := .none
  params := [.i32, .i64, .i32]
  result := [.i64]
  intrinsic := none

/-- The linker of one import. -/
def linkerOf (entity : ImportLinkerEntity) : ImportLinker where
  entities := [(⟨"env", "host"⟩, entity)]
  names_nodup := by simp
  indices_nodup := by simp

/-- Three arguments of mirrored widths arrive as they were pushed. -/
theorem marshals_iff_palindrome_mirrored :
    Marshals ⟨linkerOf mirrored, probe [.i32 1, .i64 2, .i32 3]⟩
      { Executor.fresh (Store.new () none none) 0 with
        valueStack := Value.onTop [.i32 1, .i64 2, .i32 3] [7] }
      mirrored [.i32 1, .i64 2, .i32 3] [7] :=
  (marshals_iff_palindrome rfl (by decide) rfl rfl).mpr
    ⟨by decide, by decide, by decide, by decide⟩ _ fun _ _ _ _ => rfl

/-- The arguments `1 : i32` and `2 : i64` do not arrive. -/
theorem not_marshals_mixed :
    ¬ ∀ (handler : SyscallHandler Unit) (args : List Value) (e : Executor Unit), handler.KeepsTypes →
      args.map Value.ty = mixed.params → e.valueStack = Value.onTop args [] →
      Marshals ⟨linkerOf mixed, handler⟩ e mixed args [] := by
  intro h
  have hm := h (probe [.i32 1, .i64 2]) [.i32 1, .i64 2]
    { Executor.fresh (Store.new () none none) 0 with
      valueStack := Value.onTop [.i32 1, .i64 2] [] } (fun _ _ _ _ => rfl) rfl rfl
  obtain ⟨⟨stack', hp⟩, -⟩ := popValues_of_marshals_probe rfl hm
  cases hp

end Executor

end Rwasm
