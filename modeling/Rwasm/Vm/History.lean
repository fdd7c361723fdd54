import Rwasm.Vm.Step

/-!
# Histories of a store

The sequences of steps a store can go through, across calls and modules, and what they keep: the
linear memory never outgrows what the machine allows.
-/

namespace Rwasm

/-- A history of a store, with the instructions executed in it: steps of executors of any module
on that store, the cleaning up after a call, and resets that keep the flags. -/
inductive History {T : Type} (host : Host T) (s : Store T) : List Opcode → Store T → Prop
  | start :
    History host s [] s
  | step {m : RwasmModule} {ops op} {e e' : Executor T} :
    History host s ops e.store →
    m.codeSection[e.ip]? = some op →
    e.step m host op = .next e' →
    History host s (ops ++ [op]) e'.store
  | stop {m : RwasmModule} {ops op exit t} {e : Executor T} :
    History host s ops e.store →
    m.codeSection[e.ip]? = some op →
    e.step m host op = .halt exit →
    exit.store = some t →
    History host s (ops ++ [op]) t
  | settle {ops t} :
    History host s ops t →
    History host s ops { t with lastSignature := none }
  | reset {ops t} :
    History host s ops t →
    History host s ops (t.reset true)

variable {T : Type} {m : RwasmModule} {host : Host T} {e e' : Executor T} {op : Opcode}
  {s t : Store T} {ops : List Opcode}

/-- Each part of a history is a history. -/
lemma History.of_prefix {ops'} (hist : History host s ops t) (hp : ops' <+: ops) :
    ∃ t', History host s ops' t' := by
  induction hist with
  | start =>
    rw [List.prefix_nil.mp hp]
    exact ⟨_, .start⟩
  | step hist hop h ih =>
    rcases List.prefix_concat_iff.mp hp with rfl | hp
    · exact ⟨_, .step hist hop h⟩
    · exact ih hp
  | stop hist hop h hs ih =>
    rcases List.prefix_concat_iff.mp hp with rfl | hp
    · exact ⟨_, .stop hist hop h hs⟩
    · exact ih hp
  | settle _ ih => exact ih hp
  | reset _ ih => exact ih hp

/-- What a step can do to the memory: it writes bytes, or grows. -/
inductive GlobalMemory.Evolves (memory memory' : GlobalMemory) : Prop
  | write :
    memory'.sharedMemory.length = memory.sharedMemory.length →
    memory'.currentPages = memory.currentPages →
    memory'.maxAllowedMemoryPages = memory.maxAllowedMemoryPages →
    Evolves memory memory'
  | grow {additional old} :
    memory.grow additional = some (old, memory') →
    Evolves memory memory'

/-- A memory that is left as it is. -/
lemma GlobalMemory.Evolves.refl {memory : GlobalMemory} : memory.Evolves memory :=
  .write rfl rfl rfl

/-- The memory is as long as its pages say or shorter, and its pages are limited. -/
structure GlobalMemory.Bounded (memory : GlobalMemory) : Prop where
  length_le : memory.sharedMemory.length ≤ memory.maxAllowedMemoryPages * N_BYTES_PER_MEMORY_PAGE
  pages_le : memory.maxAllowedMemoryPages ≤ N_MAX_ALLOWED_MEMORY_PAGES

namespace GlobalMemory.Bounded

variable {memory memory' : GlobalMemory}

/-- A memory has at most `2 ^ 31` bytes. -/
lemma length_le_two_pow (h : memory.Bounded) : memory.sharedMemory.length ≤ 2 ^ 31 :=
  h.length_le.trans (Nat.mul_le_mul_right N_BYTES_PER_MEMORY_PAGE h.pages_le)

end GlobalMemory.Bounded

/-- The memory consists of whole pages. -/
structure GlobalMemory.Paged (memory : GlobalMemory) : Prop extends memory.Bounded where
  length_eq : memory.sharedMemory.length = memory.currentPages * N_BYTES_PER_MEMORY_PAGE

/-- A grown memory, by what there is to add. -/
lemma GlobalMemory.grow_cases {memory memory' : GlobalMemory} {additional old}
    (hg : memory.grow additional = some (old, memory')) :
    memory' = memory ∨ memory' = { memory with
        sharedMemory := memory.sharedMemory ++ List.replicate
          (memory'.currentPages * N_BYTES_PER_MEMORY_PAGE - memory.sharedMemory.length) 0
        currentPages := memory'.currentPages } ∧
      memory'.currentPages ≤ memory.maxAllowedMemoryPages ∧
      memory.sharedMemory.length ≤ memory'.currentPages * N_BYTES_PER_MEMORY_PAGE := by
  unfold GlobalMemory.grow at hg
  split at hg
  · cases hg
    exact .inl rfl
  · split at hg
    · cases hg
    · split at hg
      · cases hg
      · split at hg
        · cases hg
        next desired _ le le' =>
          cases hg
          exact .inr ⟨rfl, Nat.le_of_not_lt le, Nat.le_of_not_lt le'⟩

namespace GlobalMemory.Evolves

variable {memory memory' : GlobalMemory}

/-- What evolves from a bounded memory is bounded. -/
lemma bounded (evolves : memory.Evolves memory') (h : memory.Bounded) : memory'.Bounded := by
  cases evolves with
  | write len _ max => exact ⟨by rw [len, max]; exact h.length_le, by rw [max]; exact h.pages_le⟩
  | grow hg =>
    rcases grow_cases hg with rfl | ⟨eq, le, le'⟩
    · exact h
    · have room := Nat.mul_le_mul_right N_BYTES_PER_MEMORY_PAGE le
      rw [eq]
      refine ⟨?_, h.pages_le⟩
      simp only [List.length_append, List.length_replicate]
      omega

/-- What evolves from whole pages is whole pages. -/
lemma paged (evolves : memory.Evolves memory') (h : memory.Paged) : memory'.Paged := by
  refine ⟨evolves.bounded h.toBounded, ?_⟩
  cases evolves with
  | write len pages _ => rw [len, pages, h.length_eq]
  | grow hg =>
    rcases grow_cases hg with rfl | ⟨eq, -, le⟩
    · exact h.length_eq
    · rw [eq]
      simp only [List.length_append, List.length_replicate]
      omega

end GlobalMemory.Evolves

/-- A new store has a bounded memory. -/
lemma Store.bounded_new (data : T) (fuelLimit maxPages : Option Nat) :
    (Store.new data fuelLimit maxPages).globalMemory.Bounded :=
  ⟨by simp [new], Nat.min_le_right _ _⟩

/-- A new store has no pages. -/
lemma Store.paged_new (data : T) (fuelLimit maxPages : Option Nat) :
    (Store.new data fuelLimit maxPages).globalMemory.Paged :=
  ⟨bounded_new data fuelLimit maxPages, by simp [new]⟩

/-- A handler only writes to the memory it was given. -/
lemma HostReply.evolves (handler : SyscallHandler T) (c : Caller T) (f : Nat) (ps rs : List Value) :
    c.globalMemory.Evolves (handler.invoke c f ps rs).caller.globalMemory :=
  .write (handler.length_memory c f ps rs) (handler.currentPages_eq c f ps rs)
    (handler.maxPages_eq c f ps rs)

namespace Executor

/-- A call to the host only writes to the memory. -/
lemma invokeSyscall_evolves {func} (hs : e.invokeSyscall host func = .next e') :
    e.store.globalMemory.Evolves e'.store.globalMemory := by
  rcases invokeSyscall_cases host e func with eq | eq | ⟨params, result, stack, cap, eq⟩
  · cases eq.symm.trans hs
  · cases eq.symm.trans hs
  · have hs := eq.symm.trans hs
    unfold afterSyscall at hs
    dsimp only at hs
    split at hs <;> cases hs
    exact HostReply.evolves host.syscallHandler e.store.caller func params result

/-- A call to the host that stops only writes to the memory. -/
lemma invokeSyscall_halt_evolves {func exit store} (hs : e.invokeSyscall host func = .halt exit)
    (he : exit.store = some store) : e.store.globalMemory.Evolves store.globalMemory := by
  rcases invokeSyscall_cases host e func with eq | eq | ⟨params, result, stack, cap, eq⟩
  · cases eq.symm.trans hs
    cases he
  · cases eq.symm.trans hs
    cases he
    exact .refl
  · have hs := eq.symm.trans hs
    unfold afterSyscall at hs
    dsimp only at hs
    split at hs <;> cases hs <;> cases he <;>
      exact HostReply.evolves host.syscallHandler e.store.caller func params result

/-- What a step does to the memory. -/
lemma step_evolves (hs : e.step m host op = .next e') :
    e.store.globalMemory.Evolves e'.store.globalMemory := by
  have hf := step_frame hs
  cases op
  case call func | returnCall func =>
    show (e.advance 1).store.globalMemory.Evolves e'.store.globalMemory
    exact invokeSyscall_evolves hs
  case store =>
    simp only [step, visitStore] at hs
    split at hs
    · split at hs
      next data hd =>
        cases hs
        exact .write (UntypedValue.StoreOp.length_eval hd) rfl rfl
      · cases hs
    · cases hs
  case memoryGrow =>
    simp only [step, visitMemoryGrow] at hs
    split at hs
    · split at hs
      next hg =>
        cases hs
        obtain ⟨pages, -, hg⟩ := Option.bind_eq_some_iff.mp hg
        exact .grow hg
      · cases hs
        exact .refl
    · cases hs
  case memoryFill =>
    simp only [step, visitMemoryFill] at hs
    split at hs
    · split at hs
      next hsl =>
        cases hs
        refine .write (List.length_setSlice ?_) rfl rfl
        rw [List.length_replicate]
        exact List.getSlice?_isSome.mp (by rw [hsl]; rfl)
      · cases hs
    · cases hs
  case memoryCopy =>
    simp only [step, visitMemoryCopy] at hs
    split at hs
    · split at hs
      next hsrc hdst =>
        cases hs
        refine .write (List.length_setSlice ?_) rfl rfl
        rw [List.length_of_getSlice? hsrc]
        exact List.getSlice?_isSome.mp (by rw [hdst]; rfl)
      · cases hs
    · cases hs
  case memoryInit =>
    simp only [step, visitMemoryInit] at hs
    split at hs
    · split at hs
      next hdst hsrc =>
        cases hs
        refine .write (List.length_setSlice ?_) rfl rfl
        rw [List.length_of_getSlice? hsrc]
        exact List.getSlice?_isSome.mp (by rw [hdst]; rfl)
      · cases hs
    · cases hs
  all_goals
    simp only [Frame] at hf
    rw [hf]
    exact .refl

/-- What a step that stops does to the memory. -/
lemma step_halt_evolves {exit store} (hs : e.step m host op = .halt exit)
    (he : exit.store = some store) : e.store.globalMemory.Evolves store.globalMemory := by
  cases op
  case call func | returnCall func =>
    show (e.advance 1).store.globalMemory.Evolves store.globalMemory
    exact invokeSyscall_halt_evolves hs he
  all_goals
    rw [step_halt_frame_internal hs he not_false]
    exact .refl

end Executor

/-- What the memory keeps whenever it evolves, every history keeps. -/
lemma History.memory {P : GlobalMemory → Prop}
    (keep : ∀ memory memory' : GlobalMemory, memory.Evolves memory' → P memory → P memory')
    (hist : History host s ops t) (h : P s.globalMemory) : P t.globalMemory := by
  induction hist with
  | start => exact h
  | step _ _ hs ih => exact keep _ _ (Executor.step_evolves hs) ih
  | stop _ _ hs he ih => exact keep _ _ (Executor.step_halt_evolves hs he) ih
  | settle _ ih => exact ih
  | reset _ ih => exact ih

/-- Every history keeps the bound of the memory. -/
lemma History.bounded (hist : History host s ops t) (h : s.globalMemory.Bounded) :
    t.globalMemory.Bounded :=
  hist.memory (fun _ _ => GlobalMemory.Evolves.bounded) h

/-- Every history keeps the memory in whole pages. -/
lemma History.paged (hist : History host s ops t) (h : s.globalMemory.Paged) :
    t.globalMemory.Paged :=
  hist.memory (fun _ _ => GlobalMemory.Evolves.paged) h

end Rwasm
