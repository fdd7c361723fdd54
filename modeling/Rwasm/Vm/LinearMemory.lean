import Rwasm.Vm.History

/-!
# The linear memory

The three views of the size of a memory: its pages, its bytes (`types/units.rs`) and its buffer
(`vm/memory.rs`). Here the host may refuse to reserve bytes, and the conversions may fail; the memory
stays in whole pages over every sequence of grows, accesses of the host and steps of the machine.
-/

namespace Rwasm

/-- The pointer widths of the targets. -/
inductive PointerWidth
  | bits16
  | bits32
  | bits64
  deriving DecidableEq

namespace PointerWidth

/-- How many bits a target's pointers have. -/
def bits : PointerWidth → Nat
  | bits16 => 16
  | bits32 => 32
  | bits64 => 64

/-- The most bytes a memory can have (`Bytes::max16`, `Bytes::max32` and `Bytes::max64`). -/
def maxBytes : PointerWidth → Nat
  | bits16 => 2 ^ 15
  | bits32 => 2 ^ 31
  | bits64 => 2 ^ 32

end PointerWidth

/-- `Bytes::new_impl`: a checked product of 64 bits, which becomes a pointer-sized number. -/
def Bytes.newImpl (w : PointerWidth) (pages max : Nat) : Option Nat :=
  if pages * N_BYTES_PER_MEMORY_PAGE < 2 ^ 64 ∧ pages * N_BYTES_PER_MEMORY_PAGE ≤ max then
    some (pages * N_BYTES_PER_MEMORY_PAGE % 2 ^ w.bits)
  else
    none

namespace Pages

/-- `to_bytes`. -/
def toBytes (w : PointerWidth) (pages : Nat) : Option Nat :=
  Bytes.newImpl w pages w.maxBytes

/-- `checked_add`. -/
def checkedAdd (lhs rhs : Nat) : Option Nat :=
  if lhs + rhs < 2 ^ 32 then Pages.new (lhs + rhs) else none

end Pages

/-- What an operation on the memory answers. -/
inductive MemoryReply
  | grown (old : Nat)
  | bytes (read : List Byte)
  | done
  | failed
  | panicked
  deriving DecidableEq

namespace GlobalMemory

/-- `GlobalMemory::new`; `none` where it panics. -/
def new (w : PointerWidth) (initialPages maxAllowedMemoryPages : Nat) : Option GlobalMemory :=
  match Pages.toBytes w initialPages, Pages.toBytes w maxAllowedMemoryPages with
  | some initialLen, some maxLen =>
    if maxLen < initialLen then none
    else some ⟨List.replicate initialLen 0, initialPages, maxAllowedMemoryPages⟩
  | _, _ => none

/-- `grow`, with the answer of the host to the reservation. -/
def tryGrow (w : PointerWidth) (memory : GlobalMemory) (additional : Nat) (reserved : Bool) :
    MemoryReply × GlobalMemory :=
  if additional = 0 then
    (.grown memory.currentPages, memory)
  else
    match Pages.checkedAdd memory.currentPages additional with
    | none => (.failed, memory)
    | some desired =>
      if memory.maxAllowedMemoryPages < desired then
        (.failed, memory)
      else
        match Pages.toBytes w desired with
        | none => (.panicked, memory)
        | some newSize =>
          if newSize < memory.sharedMemory.length then
            (.failed, memory)
          else if reserved then
            (.grown memory.currentPages,
              { memory with
                sharedMemory := memory.sharedMemory ++
                  List.replicate (newSize - memory.sharedMemory.length) 0
                currentPages := desired })
          else
            (.failed, memory)

/-- `read` and `read_into_vec`: the bytes of the range, whose end must be a pointer. -/
def read (w : PointerWidth) (memory : GlobalMemory) (offset length : Nat) : MemoryReply :=
  if offset + length < 2 ^ w.bits then
    match memory.sharedMemory.getSlice? offset length with
    | some bytes => .bytes bytes
    | none => .failed
  else
    .failed

/-- `write`. -/
def write (w : PointerWidth) (memory : GlobalMemory) (offset : Nat) (buffer : List Byte) :
    MemoryReply × GlobalMemory :=
  if offset + buffer.length < 2 ^ w.bits then
    match memory.sharedMemory.getSlice? offset buffer.length with
    | some _ => (.done, memory.setData (memory.sharedMemory.setSlice offset buffer))
    | none => (.failed, memory)
  else
    (.failed, memory)

/-- One operation on the memory: the host grows it, reads it or writes it, or an instruction of any
module is executed on it. An instruction that traps is none that calls the host, whose accesses are
operations of their own. -/
inductive Access (w : PointerWidth) (memory : GlobalMemory) : MemoryReply → GlobalMemory → Prop
  | grow (additional : UntypedValue) (reserved : Bool) :
    Access w memory (memory.tryGrow w additional.toNat reserved).1
      (memory.tryGrow w additional.toNat reserved).2
  | read (offset length : Nat) :
    Access w memory (memory.read w offset length) memory
  | write (offset : Nat) (buffer : List Byte) :
    Access w memory (memory.write w offset buffer).1 (memory.write w offset buffer).2
  | step {T : Type} {m : RwasmModule} {host : Host T} {e e' : Executor T} {op : Opcode} :
    e.store.globalMemory = memory →
    e.step m host op = .next e' →
    Access w memory .done e'.store.globalMemory
  | stop {T : Type} {m : RwasmModule} {host : Host T} {e e' : Executor T} {op : Opcode} {code} :
    e.store.globalMemory = memory →
    ¬ op.IsSyscall →
    e.step m host op = .halt (.trapped code e') →
    Access w memory .failed e'.store.globalMemory

/-- What a sequence of operations can make of a memory. -/
inductive Reaches (w : PointerWidth) (memory : GlobalMemory) : GlobalMemory → Prop
  | start :
    Reaches w memory memory
  | access {before after reply} :
    Reaches w memory before →
    Access w before reply after →
    Reaches w memory after

/-- What holds of a memory with the given maximum at any time. -/
structure Whole (w : PointerWidth) (memory : GlobalMemory) (max : Nat) : Prop extends
    memory.Paged where
  max_eq : memory.maxAllowedMemoryPages = max
  bytes_eq : Pages.toBytes w memory.currentPages = some memory.sharedMemory.length

/-- What an operation does to the memory, by its answer. -/
structure Keeps (memory : GlobalMemory) (reply : MemoryReply) (memory' : GlobalMemory) : Prop where
  pages_le : memory.currentPages ≤ memory'.currentPages
  fresh : ∀ i, memory.sharedMemory.length ≤ i → i < memory'.sharedMemory.length →
    memory'.sharedMemory[i]? = some 0
  grown : ∀ old, reply = .grown old → old = memory.currentPages ∧
    memory.sharedMemory <+: memory'.sharedMemory
  failed : reply = .failed → memory' = memory
  panics : reply ≠ .panicked

variable {w : PointerWidth} {memory memory' before : GlobalMemory} {reply : MemoryReply}
  {pages initial max additional : Nat} {reserved : Bool}

namespace Evolves

/-- The maximum stays. -/
lemma max_eq (evolves : memory.Evolves memory') :
    memory'.maxAllowedMemoryPages = memory.maxAllowedMemoryPages := by
  cases evolves with
  | write _ _ max => exact max
  | grow hg =>
    rcases grow_cases hg with rfl | ⟨eq, -⟩
    · rfl
    · rw [eq]

/-- Pages are never taken away. -/
lemma pages_le (evolves : memory.Evolves memory') (paged : memory.Paged) :
    memory.currentPages ≤ memory'.currentPages := by
  cases evolves with
  | write _ pages _ => exact pages.ge
  | grow hg =>
    rcases grow_cases hg with rfl | ⟨-, -, le⟩
    · exact Nat.le_refl _
    · rw [paged.length_eq] at le
      exact Nat.le_of_mul_le_mul_right le (by decide)

/-- Added bytes are zero. -/
lemma fresh (evolves : memory.Evolves memory') {i : Nat} (old : memory.sharedMemory.length ≤ i)
    (new : i < memory'.sharedMemory.length) : memory'.sharedMemory[i]? = some 0 := by
  cases evolves with
  | write len _ _ => exact absurd new (by omega)
  | grow hg =>
    rcases grow_cases hg with rfl | ⟨eq, -⟩
    · exact absurd new (by omega)
    · rw [eq] at new ⊢
      simp only [List.length_append, List.length_replicate] at new ⊢
      rw [List.getElem?_append_right old]
      exact List.getElem?_replicate_of_lt (by omega)

end Evolves

/-- On a supported target the size of every admitted number of pages is a number of bytes. -/
lemma toBytes_eq (supported : w ≠ .bits16) (admitted : pages ≤ N_MAX_ALLOWED_MEMORY_PAGES) :
    Pages.toBytes w pages = some (pages * N_BYTES_PER_MEMORY_PAGE) := by
  have small : pages * N_BYTES_PER_MEMORY_PAGE ≤ 2 ^ 31 :=
    Nat.mul_le_mul_right N_BYTES_PER_MEMORY_PAGE admitted
  have room : 2 ^ 31 ≤ w.maxBytes ∧ 2 ^ 31 < 2 ^ w.bits := by
    cases w with
    | bits16 => exact absurd rfl supported
    | bits32 => exact ⟨Nat.le_refl _, by decide⟩
    | bits64 => exact ⟨by decide, by decide⟩
  unfold Pages.toBytes Bytes.newImpl
  rw [if_pos ⟨by omega, small.trans room.1⟩, Nat.mod_eq_of_lt (Nat.lt_of_le_of_lt small room.2)]

/-- A memory of whole pages with an admitted maximum has a size in bytes. -/
lemma Paged.whole (paged : memory.Paged) (supported : w ≠ .bits16)
    (max_eq : memory.maxAllowedMemoryPages = max) : memory.Whole w max := by
  have le : memory.currentPages ≤ memory.maxAllowedMemoryPages := by
    have room := paged.length_le
    rw [paged.length_eq] at room
    exact Nat.le_of_mul_le_mul_right room (by decide)
  refine ⟨paged, max_eq, ?_⟩
  rw [toBytes_eq supported (le.trans paged.pages_le), paged.length_eq]

/-- A memory can be built with any initial pages up to an admitted maximum. -/
lemma new_whole (supported : w ≠ .bits16) (le : initial ≤ max)
    (admitted : max ≤ N_MAX_ALLOWED_MEMORY_PAGES) :
    ∃ memory, new w initial max = some memory ∧ memory.Whole w max := by
  have first := toBytes_eq supported (le.trans admitted)
  have last := toBytes_eq supported admitted
  have room : initial * N_BYTES_PER_MEMORY_PAGE ≤ max * N_BYTES_PER_MEMORY_PAGE :=
    Nat.mul_le_mul_right _ le
  refine ⟨⟨List.replicate (initial * N_BYTES_PER_MEMORY_PAGE) 0, initial, max⟩, ?_, ?_⟩
  · rw [new, first, last]
    exact if_neg (Nat.not_lt.mpr room)
  · refine Paged.whole ⟨⟨?_, admitted⟩, ?_⟩ supported rfl
    · rw [List.length_replicate]
      exact room
    · exact List.length_replicate

/-- The memory of a new store is built without pages and with an admitted maximum. -/
lemma new_store {T : Type} (data : T) (fuelLimit maxPages : Option Nat) (supported : w ≠ .bits16) :
    let memory := (Store.new data fuelLimit maxPages).globalMemory
    memory.maxAllowedMemoryPages ≤ N_MAX_ALLOWED_MEMORY_PAGES ∧
      new w 0 memory.maxAllowedMemoryPages = some memory := by
  have admitted := (Store.bounded_new data fuelLimit maxPages).pages_le
  refine ⟨admitted, ?_⟩
  rw [new, toBytes_eq supported (Nat.zero_le _), toBytes_eq supported admitted, Nat.zero_mul]
  exact if_neg (Nat.not_lt_zero _)

/-- A grow that the host may refuse fails and changes nothing, or does what one does that the host
grants; it never panics. -/
lemma tryGrow_cases (paged : memory.Paged) (supported : w ≠ .bits16) :
    memory.tryGrow w additional reserved = (.failed, memory) ∨
      ∃ after, memory.grow additional = some (memory.currentPages, after) ∧
        memory.tryGrow w additional reserved = (.grown memory.currentPages, after) := by
  unfold tryGrow
  by_cases zero : additional = 0
  · rw [if_pos zero]
    exact .inr ⟨memory, if_pos zero, rfl⟩
  rw [if_neg zero]
  by_cases pages : memory.currentPages + additional < 2 ^ 32
  · rw [Pages.checkedAdd, if_pos pages]
    cases addressed : Pages.new (memory.currentPages + additional) with
    | none => exact .inl rfl
    | some desired =>
      dsimp only
      by_cases beyond : memory.maxAllowedMemoryPages < desired
      · rw [if_pos beyond]
        exact .inl rfl
      have within : desired ≤ memory.maxAllowedMemoryPages := Nat.le_of_not_lt beyond
      rw [if_neg beyond, toBytes_eq supported (within.trans paged.pages_le)]
      dsimp only
      by_cases less : desired * N_BYTES_PER_MEMORY_PAGE < memory.sharedMemory.length
      · rw [if_pos less]
        exact .inl rfl
      rw [if_neg less]
      by_cases granted : reserved
      · rw [if_pos granted]
        refine .inr ⟨_, ?_, rfl⟩
        rw [grow, if_neg zero, addressed]
        dsimp only
        rw [if_neg beyond, if_neg less]
      · rw [if_neg granted]
        exact .inl rfl
  · rw [Pages.checkedAdd, if_neg pages]
    exact .inl rfl

/-- The bytes of a grown memory follow those it had. -/
lemma prefix_grow {after : GlobalMemory} {old : Nat} (hg : memory.grow additional = some (old, after)) :
    memory.sharedMemory <+: after.sharedMemory := by
  rcases grow_cases hg with rfl | ⟨eq, -⟩
  · exact List.prefix_rfl
  · rw [eq]
    exact List.prefix_append _ _

/-- The part of `Keeps` that every change of the memory has. -/
lemma Evolves.keeps (evolves : memory.Evolves memory') (paged : memory.Paged)
    (grown : ∀ old, reply = .grown old → old = memory.currentPages ∧
      memory.sharedMemory <+: memory'.sharedMemory)
    (failed : reply = .failed → memory' = memory) (panics : reply ≠ .panicked) :
    memory.Keeps reply memory' :=
  ⟨evolves.pages_le paged, fun _ => evolves.fresh, grown, failed, panics⟩

/-- What fails and changes nothing keeps everything. -/
lemma keeps_failed (paged : memory.Paged) : memory.Keeps .failed memory :=
  Evolves.refl.keeps paged (fun _ eq => nomatch eq) (fun _ => rfl) (fun eq => nomatch eq)

/-- What succeeds without growing. -/
lemma Evolves.keeps_done (evolves : memory.Evolves memory') (paged : memory.Paged) :
    memory.Keeps .done memory' :=
  evolves.keeps paged (fun _ eq => nomatch eq) (fun eq => nomatch eq) (fun eq => nomatch eq)

/-- One operation on a memory of whole pages. -/
lemma Access.keeps (access : Access w memory reply memory') (paged : memory.Paged)
    (supported : w ≠ .bits16) : memory.Evolves memory' ∧ memory.Keeps reply memory' := by
  cases access with
  | grow additional reserved =>
    have cases_ : memory.tryGrow w additional.toNat reserved = (.failed, memory) ∨ _ :=
      tryGrow_cases paged supported
    rcases cases_ with eq | ⟨after, granted, eq⟩
    · rw [eq]
      exact ⟨.refl, keeps_failed paged⟩
    · rw [eq]
      refine ⟨.grow granted, Evolves.keeps (.grow granted) paged (fun old is => ?_)
        (fun is => nomatch is) (fun is => nomatch is)⟩
      cases is
      exact ⟨rfl, prefix_grow granted⟩
  | read offset length =>
    refine ⟨.refl, Evolves.refl.keeps paged (fun old is => ?_) (fun _ => rfl) (fun is => ?_)⟩
    all_goals
      unfold GlobalMemory.read at is
      repeat' split at is
      all_goals cases is
  | write offset buffer =>
    unfold GlobalMemory.write
    by_cases pointer : offset + buffer.length < 2 ^ w.bits
    · rw [if_pos pointer]
      by_cases fits : offset + buffer.length ≤ memory.sharedMemory.length
      · rw [List.getSlice?_eq_some fits]
        have written : memory.Evolves
            (memory.setData (memory.sharedMemory.setSlice offset buffer)) :=
          .write (List.length_setSlice fits) rfl rfl
        exact ⟨written, written.keeps_done paged⟩
      · rw [List.getSlice?_eq_none (Nat.lt_of_not_le fits)]
        exact ⟨.refl, keeps_failed paged⟩
    · rw [if_neg pointer]
      exact ⟨.refl, keeps_failed paged⟩
  | step same run =>
    subst same
    have evolves := Executor.step_evolves run
    exact ⟨evolves, evolves.keeps_done paged⟩
  | stop same internal run =>
    subst same
    rw [Executor.step_halt_frame_internal run rfl internal]
    exact ⟨.refl, keeps_failed paged⟩

/-- Every sequence of operations keeps the memory whole. -/
lemma Reaches.whole (reaches : Reaches w memory memory') (whole : memory.Whole w max)
    (supported : w ≠ .bits16) : memory'.Whole w max := by
  induction reaches with
  | start => exact whole
  | access _ access ih =>
    have evolves := (access.keeps ih.toPaged supported).1
    exact (evolves.paged ih.toPaged).whole supported (evolves.max_eq.trans ih.max_eq)

end GlobalMemory

open GlobalMemory in
/-- A memory that was built with any initial and maximum pages the store admits consists of whole
pages after any sequence of operations; no operation takes pages away, one that fails changes
nothing, added bytes are zero, and no conversion between pages and bytes overflows. -/
theorem linearMemory_reaches {w : PointerWidth} {initial max : Nat} (supported : w ≠ .bits16)
    (le : initial ≤ max) (admitted : max ≤ N_MAX_ALLOWED_MEMORY_PAGES) :
    (∀ pages ≤ max, Pages.toBytes w pages = some (pages * N_BYTES_PER_MEMORY_PAGE)) ∧
      ∃ memory₀, GlobalMemory.new w initial max = some memory₀ ∧
        ∀ memory, Reaches w memory₀ memory → memory.Whole w max ∧
          ∀ reply memory', Access w memory reply memory' → memory.Keeps reply memory' := by
  refine ⟨fun pages small => toBytes_eq supported (small.trans admitted), ?_⟩
  obtain ⟨memory₀, built, whole₀⟩ := new_whole supported le admitted
  refine ⟨memory₀, built, fun memory reaches => ?_⟩
  have whole := reaches.whole whole₀ supported
  exact ⟨whole, fun reply memory' access => (access.keeps whole.toPaged supported).2⟩

open GlobalMemory in
/-- The memory of a new store. -/
theorem linearMemory_reaches_store :
    GlobalMemory.new .bits64 0 1024 = some (Store.new () none none).globalMemory ∧
      ∀ memory, Reaches .bits64 (Store.new () none none).globalMemory memory →
        memory.Whole .bits64 1024 := by
  obtain ⟨-, memory₀, built, all⟩ :=
    linearMemory_reaches (w := .bits64) (by decide) (Nat.zero_le 1024) (by decide)
  have same := (new_store () none none (w := .bits64) (by decide)).2
  obtain rfl := Option.some.inj (same.symm.trans built)
  exact ⟨same, fun memory reaches => (all memory reaches).1⟩

end Rwasm
