import Rwasm.Vm.History

/-!
# `memory.fill` and `memory.copy`

The bulk instructions of the linear memory against their meaning in Wasm. The executor reads their
indices as signed numbers, which is another number from `2 ^ 31` on.
-/

namespace Rwasm

/-- A slice between indices that the executor reads as signed numbers. -/
lemma getSlice?_asI32Usize {α : Type*} {l : List α} (x n : UntypedValue) (h : l.length < 2 ^ 32) :
    l.getSlice? x.asI32Usize n.asI32Usize =
      if x.toNat < 2 ^ 31 ∧ n.toNat < 2 ^ 31 then l.getSlice? x.toNat n.toNat else none := by
  have hx := x.isLt
  have hn := n.isLt
  by_cases bx : x.toNat < 2 ^ 31
  · have ex := x.asI32Usize_eq
    rw [if_pos bx] at ex
    by_cases bn : n.toNat < 2 ^ 31
    · have en := n.asI32Usize_eq
      rw [if_pos bn] at en
      rw [if_pos ⟨bx, bn⟩, ex, en]
    · have en := n.asI32Usize_eq
      rw [if_neg bn] at en
      rw [if_neg (fun h => bn h.2)]
      exact List.getSlice?_eq_none (by omega)
  · have ex := x.asI32Usize_eq
    rw [if_neg bx] at ex
    rw [if_neg (fun h => bx h.1)]
    exact List.getSlice?_eq_none (by omega)

/-- A bulk instruction of the memory and its operands. -/
inductive BulkMemory
  | fill (d val n : UntypedValue)
  | copy (d s n : UntypedValue)
  deriving DecidableEq

namespace BulkMemory

/-- The instruction itself. -/
def opcode : BulkMemory → Opcode
  | fill .. => .memoryFill
  | copy .. => .memoryCopy

/-- The operands as they lie on the stack, the topmost first. -/
def operands : BulkMemory → List UntypedValue
  | fill d val n => [n, val, d]
  | copy d s n => [n, s, d]

/-- Where the ranges start that are accessed. -/
def starts : BulkMemory → List UntypedValue
  | fill d _ _ => [d]
  | copy d s _ => [d, s]

/-- Where the written range starts. -/
def target : BulkMemory → UntypedValue
  | fill d _ _ => d
  | copy d _ _ => d

/-- The length of the ranges. -/
def count : BulkMemory → UntypedValue
  | fill _ _ n => n
  | copy _ _ n => n

/-- The accessed ranges end inside the memory. -/
def InRange (b : BulkMemory) (length : Nat) : Prop :=
  ∀ start ∈ b.starts, start.toNat + b.count.toNat ≤ length

/-- Whether an instruction is in range is decided by its ranges. -/
instance (b : BulkMemory) (length : Nat) : Decidable (b.InRange length) :=
  inferInstanceAs (Decidable (∀ start ∈ b.starts, _))

/-- The byte that comes to the given place of the range: that of the value, or the one at the same
place of the source before the instruction. -/
def byte (b : BulkMemory) (data : List Byte) (i : Nat) : Option Byte :=
  match b with
  | fill _ val _ => some (val.setWidth 8)
  | copy _ s _ => data[s.toNat + i]?

/-- What Wasm has at an address after the instruction. -/
def byteAt (b : BulkMemory) (data : List Byte) (i : Nat) : Option Byte :=
  if b.target.toNat ≤ i ∧ i < b.target.toNat + b.count.toNat then
    b.byte data (i - b.target.toNat)
  else
    data[i]?

/-- The operands on which the executor refuses what Wasm allows: an access in range that starts at
`2 ^ 31`, or is as long. -/
def Defect (b : BulkMemory) (length : Nat) : Prop :=
  b.InRange length ∧ ∃ index ∈ b.count :: b.starts, index.toNat = 2 ^ 31

variable {T : Type}

/-- The instruction does on an executor what Wasm says. -/
structure Exact (b : BulkMemory) (m : RwasmModule) (host : Host T) (e : Executor T)
    (below : List UntypedValue) : Prop where
  written : b.InRange e.data.length → ∃ data, e.step m host b.opcode =
      .next ((({ e with valueStack := below } : Executor T).setData data).advance 1) ∧
    data.length = e.data.length ∧ ∀ i, data[i]? = b.byteAt e.data i
  trapped : ¬ b.InRange e.data.length → ∃ e',
    e.step m host b.opcode = .halt (.trapped .memoryOutOfBounds e') ∧ e'.store = e.store

variable {m : RwasmModule} {host : Host T} {e : Executor T} {below : List UntypedValue}
  {b : BulkMemory} {d s n val : UntypedValue}

/-- The target is one of the ranges. -/
lemma target_mem (b : BulkMemory) : b.target ∈ b.starts := by
  cases b <;> exact List.mem_cons_self

/-- The executor can reach the range. -/
def Reaches (start count : UntypedValue) (length : Nat) : Prop :=
  (start.toNat < 2 ^ 31 ∧ count.toNat < 2 ^ 31) ∧ start.toNat + count.toNat ≤ length

/-- The executor can reach every range of the instruction. -/
def Accepted (b : BulkMemory) (length : Nat) : Prop :=
  ∀ start ∈ b.starts, Reaches start b.count length

/-- The bytes an accepted instruction leaves. -/
def written (b : BulkMemory) (data : List Byte) : List Byte :=
  data.setSlice b.target.toNat (match b with
    | fill _ val n => List.replicate n.toNat (val.setWidth 8)
    | copy _ s n => (data.drop s.toNat).take n.toNat)

/-- A fill is accepted when its range is. -/
lemma accepted_fill {length : Nat} : (fill d val n).Accepted length ↔ Reaches d n length := by
  simp only [Accepted, starts, count, List.mem_singleton, forall_eq]

/-- A copy is accepted when both of its ranges are. -/
lemma accepted_copy {length : Nat} :
    (copy d s n).Accepted length ↔ Reaches d n length ∧ Reaches s n length := by
  simp only [Accepted, starts, count, List.forall_mem_cons, List.mem_singleton, forall_eq]

/-- A range that is in reach is read. -/
lemma getSlice?_reached {data : List Byte} {start count : UntypedValue} (len : data.length < 2 ^ 32)
    (ok : Reaches start count data.length) :
    data.getSlice? start.asI32Usize count.asI32Usize =
      some ((data.drop start.toNat).take count.toNat) := by
  rw [getSlice?_asI32Usize start count len, if_pos ok.1]
  exact List.getSlice?_eq_some ok.2

/-- One that is not is not. -/
lemma getSlice?_refused {data : List Byte} {start count : UntypedValue} (len : data.length < 2 ^ 32)
    (no : ¬ Reaches start count data.length) :
    data.getSlice? start.asI32Usize count.asI32Usize = none := by
  rw [getSlice?_asI32Usize start count len]
  split_ifs with small
  · exact List.getSlice?_eq_none (Nat.lt_of_not_le fun le => no ⟨small, le⟩)
  · rfl

/-- Popping operands leaves the memory. -/
lemma data_popped {stack : List UntypedValue} :
    ({ e with valueStack := stack } : Executor T).data = e.data := rfl

/-- An accepted instruction writes. -/
lemma step_accepted (pushed : e.valueStack = b.operands ++ below)
    (len : e.data.length < 2 ^ 32) (ok : b.Accepted e.data.length) :
    e.step m host b.opcode =
      .next ((({ e with valueStack := below } : Executor T).setData (b.written e.data)).advance 1) := by
  cases b with
  | fill d val n =>
    have reach := accepted_fill.mp ok
    show e.visitMemoryFill = _
    simp only [Executor.visitMemoryFill, pushed, operands, List.cons_append,
      List.nil_append, data_popped]
    rw [getSlice?_reached len reach, d.asI32Usize_eq, n.asI32Usize_eq, if_pos reach.1.1,
      if_pos reach.1.2]
    rfl
  | copy d s n =>
    obtain ⟨target, source⟩ := accepted_copy.mp ok
    show e.visitMemoryCopy = _
    simp only [Executor.visitMemoryCopy, pushed, operands, List.cons_append,
      List.nil_append, data_popped]
    rw [getSlice?_reached len source, getSlice?_reached len target, d.asI32Usize_eq,
      if_pos target.1.1]
    rfl

/-- One that is not accepted traps. -/
lemma step_refused (pushed : e.valueStack = b.operands ++ below)
    (len : e.data.length < 2 ^ 32) (refused : ¬ b.Accepted e.data.length) :
    e.step m host b.opcode =
      .halt (.trapped .memoryOutOfBounds { e with valueStack := below }) := by
  cases b with
  | fill d val n =>
    have unread := mt accepted_fill.mpr refused
    show e.visitMemoryFill = _
    simp only [Executor.visitMemoryFill, pushed, operands, List.cons_append,
      List.nil_append, data_popped]
    rw [getSlice?_refused len unread]
  | copy d s n =>
    show e.visitMemoryCopy = _
    simp only [Executor.visitMemoryCopy, pushed, operands, List.cons_append,
      List.nil_append, data_popped]
    by_cases source : Reaches s n e.data.length
    · have target : ¬ Reaches d n e.data.length := fun reach =>
        refused (List.forall_mem_cons.mpr ⟨reach, List.forall_mem_singleton.mpr source⟩)
      rw [getSlice?_reached len source, getSlice?_refused len target]
    · rw [getSlice?_refused len source]

/-- The bytes that are written. -/
lemma exists_written {data : List Byte} (inRange : b.InRange data.length) :
    ∃ bytes, b.written data = data.setSlice b.target.toNat bytes ∧ bytes.length = b.count.toNat ∧
      b.target.toNat + b.count.toNat ≤ data.length ∧ ∀ i < b.count.toNat, bytes[i]? = b.byte data i := by
  cases b with
  | fill d val n =>
    have target := inRange d (target_mem _)
    refine ⟨_, rfl, List.length_replicate, target, fun i hi => ?_⟩
    exact List.getElem?_replicate_of_lt hi
  | copy d s n =>
    have target := inRange d (target_mem _)
    have source : s.toNat + n.toNat ≤ data.length :=
      inRange s (List.mem_cons_of_mem d (List.mem_singleton_self s))
    have read := List.getSlice?_eq_some source
    refine ⟨_, rfl, List.length_of_getSlice? read, target, fun i hi => ?_⟩
    exact List.getElem?_of_getSlice? read hi

/-- What an accepted instruction leaves is what Wasm has. -/
lemma written_spec {data : List Byte} (inRange : b.InRange data.length) :
    (b.written data).length = data.length ∧ ∀ i, (b.written data)[i]? = b.byteAt data i := by
  obtain ⟨bytes, eq, len, le, spec⟩ := exists_written inRange
  rw [← len] at le
  refine ⟨eq ▸ List.length_setSlice le, fun i => ?_⟩
  rw [eq, List.getElem?_setSlice le, byteAt, len]
  split_ifs with inside
  · rw [spec _ (by omega)]
  · rfl

/-- In range the executor accepts what is no defect. -/
lemma accepted_iff {length : Nat} (le : length ≤ 2 ^ 31) :
    b.Accepted length ↔ b.InRange length ∧ ¬ b.Defect length := by
  constructor
  · intro ok
    have target : Reaches b.target b.count length := ok b.target b.target_mem
    refine ⟨fun start mem => (ok start mem).2, fun ⟨_, index, mem, eq⟩ => ?_⟩
    rcases List.mem_cons.mp mem with rfl | mem
    · exact target.1.2.ne eq
    · exact (ok index mem).1.1.ne eq
  · rintro ⟨inRange, no⟩ start mem
    have fits := inRange start mem
    have first : start.toNat ≠ 2 ^ 31 := fun eq =>
      no ⟨inRange, start, List.mem_cons_of_mem _ mem, eq⟩
    have second : b.count.toNat ≠ 2 ^ 31 := fun eq => no ⟨inRange, _, List.mem_cons_self, eq⟩
    exact ⟨⟨by omega, by omega⟩, fits⟩

end BulkMemory

open BulkMemory in
/-- The executor does what Wasm says, except for the accesses that `Defect` names. -/
theorem bulkMemory_exact_iff {T : Type} {m : RwasmModule} {host : Host T} {e : Executor T}
    {below : List UntypedValue} (b : BulkMemory) (pushed : e.valueStack = b.operands ++ below)
    (bounded : e.store.globalMemory.Bounded) :
    b.Exact m host e below ↔ ¬ b.Defect e.data.length := by
  have le : e.data.length ≤ 2 ^ 31 := bounded.length_le_two_pow
  have len : e.data.length < 2 ^ 32 := Nat.lt_of_le_of_lt le (by omega)
  constructor
  · intro ok defect
    obtain ⟨data, step, -⟩ := ok.written defect.1
    have refused : ¬ b.Accepted e.data.length := fun ok => ((accepted_iff le).mp ok).2 defect
    cases (step_refused pushed len refused).symm.trans step
  · intro no
    refine ⟨fun inRange => ?_, fun outside => ?_⟩
    · have ok := (accepted_iff le).mpr ⟨inRange, no⟩
      exact ⟨_, step_accepted pushed len ok, written_spec inRange⟩
    · have refused : ¬ b.Accepted e.data.length := fun ok => outside ((accepted_iff le).mp ok).1
      exact ⟨_, step_refused pushed len refused, rfl⟩

/-- An executor on a memory of four bytes. -/
def fourBytes (stack : List UntypedValue) : Executor Unit :=
  ⟨stack, N_DEFAULT_STACK_SIZE, [], 0,
    { Store.new () none none with globalMemory := ⟨[1, 2, 3, 4], 1, 1⟩ }⟩

/-- A copy onto an overlapping range. -/
theorem bulkMemory_exact_iff_overlap :
    (BulkMemory.copy 1 0 3).Exact ⟨[.memoryCopy], [], [], [], 0⟩ Host.empty
      (fourBytes [3, 0, 1]) [] := by
  have small : ¬ (BulkMemory.copy 1 0 3).Defect (fourBytes [3, 0, 1]).data.length := by
    rintro ⟨-, index, mem, eq⟩
    simp only [BulkMemory.count, BulkMemory.starts, List.mem_cons, List.not_mem_nil,
      or_false] at mem
    rcases mem with rfl | rfl | rfl <;> simp at eq
  exact (bulkMemory_exact_iff (.copy 1 0 3) rfl ⟨by decide, by decide⟩).mpr small

/-- The bytes of the largest memory. -/
@[irreducible] def largestMemory : List Byte :=
  List.replicate (2 ^ 31) 0

/-- The length of the largest memory. -/
lemma largestMemory_length : largestMemory.length = 2 ^ 31 := by
  rw [largestMemory, List.length_replicate]

/-- An executor on the largest memory. -/
def largest (stack : List UntypedValue) : Executor Unit :=
  ⟨stack, N_DEFAULT_STACK_SIZE, [], 0,
    { Store.new () none none with
      globalMemory := ⟨largestMemory, N_MAX_ALLOWED_MEMORY_PAGES, N_MAX_ALLOWED_MEMORY_PAGES⟩ }⟩

/-- An empty range at the end of the largest memory is refused. -/
theorem not_bulkMemory_exact :
    ¬ ∀ (m : RwasmModule) (host : Host Unit) (e : Executor Unit) (b : BulkMemory)
      (below : List UntypedValue), e.valueStack = b.operands ++ below →
      e.store.globalMemory.Bounded → b.Exact m host e below := by
  intro all
  have len : (largest [0, 0, 0x80000000]).data.length = 2 ^ 31 := largestMemory_length
  have bounded : (largest [0, 0, 0x80000000]).store.globalMemory.Bounded :=
    ⟨len.le, Nat.le_refl _⟩
  have pushed : (largest [0, 0, 0x80000000]).valueStack =
    (BulkMemory.fill 0x80000000 0 0).operands ++ [] := rfl
  have filled := all ⟨[.memoryFill], [], [], [], 0⟩ Host.empty _ _ _ pushed bounded
  have inRange : (BulkMemory.fill 0x80000000 0 0).InRange (2 ^ 31) := by
    intro start mem
    obtain rfl := List.mem_singleton.mp mem
    exact Nat.le_refl (2 ^ 31)
  have refused : ¬ (BulkMemory.fill 0x80000000 0 0).Accepted (2 ^ 31) := by
    rw [BulkMemory.accepted_fill]
    exact fun reach => Nat.lt_irrefl (2 ^ 31) reach.1.1
  rw [← len] at refused inRange
  obtain ⟨data, step, -⟩ := filled.written inRange
  cases (BulkMemory.step_refused pushed (by rw [len]; omega) refused).symm.trans step

end Rwasm
