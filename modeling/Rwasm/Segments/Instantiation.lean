import Rwasm.Compiler.CompiledExpr
import Rwasm.Segments.MemoryInit
import Rwasm.Segments.TableInit
import Rwasm.Wasm.Instance

/-!
# Runs of the entrypoint

What the code that the segment builder emits does on a fresh store, part by part: the globals, the
growing of tables and of the memory, and the copying of active segments. The instance the code has
built up so far is compared with the store it is run on. References are compared after `finalize`, which
puts the address `addr f` for the function number `f`.
-/

namespace Rwasm

open Opcode

/-- The instruction `finalize` makes of an emitted one. -/
def Opcode.relocated (addr : Nat → Nat) : Opcode → Opcode
  | callInternal func => callInternal (addr func)
  | returnCallInternal func => returnCallInternal (addr func)
  | refFunc func => refFunc (addr func)
  | op => op

/-- The reference `finalize` makes of a function number. -/
def relocatedRef (addr : Nat → Nat) (r : UntypedValue) : UntypedValue :=
  BitVec.ofNat 32 (addr r.toNat)

/-- The slots of the machine that hold a global. A 64-bit value takes two, with the high limb first. -/
def Value.slots (addr : Nat → Nat) : Value → UntypedValue × Option UntypedValue
  | .i32 b | .f32 b => (b, none)
  | .i64 b | .f64 b => ((splitIntoI32Tuple b).2, some (splitIntoI32Tuple b).1)
  | .funcRef b | .externRef b => (relocatedRef addr b, none)

/-- The slot of the machine with a given index, for the globals of an instance. -/
def Instance.globalVariable (addr : Nat → Nat) (i : Instance) (idx : Nat) : Option UntypedValue :=
  i.globals[idx / 2]?.bind fun v =>
    if idx % 2 = 0 then some (v.slots addr).1 else (v.slots addr).2

variable {T : Type}

/-- The store holds the instance. -/
structure Instance.Matches (addr : Nat → Nat) (i : Instance) (store : Store T) : Prop where
  globals : ∀ idx, store.globalVariables idx = i.globalVariable addr idx
  tables : ∀ t, store.tables t = i.tables[t]?.map fun elements =>
    ⟨elements.map (relocatedRef addr)⟩
  memory : store.globalMemory.sharedMemory = i.memory
  pages : store.globalMemory.currentPages * N_BYTES_PER_MEMORY_PAGE = i.memory.length
  droppedElems : store.emptyElemSegments.Exact (i.droppedElems.map (· + 1))
  droppedData : store.emptyDataSegments.Exact (i.droppedData.map (· + 1))

/-- Only the memory of the instance changes with that of the store. -/
lemma Instance.Matches.setMemory {addr : Nat → Nat} {i : Instance} {store : Store T} {bytes : List Byte}
    {pages : Nat} (hm : i.Matches addr store)
    (len : pages * N_BYTES_PER_MEMORY_PAGE = bytes.length) :
    ({ i with memory := bytes } : Instance).Matches addr { store with
      globalMemory := { store.globalMemory with sharedMemory := bytes, currentPages := pages } } :=
  ⟨hm.globals, hm.tables, rfl, len, hm.droppedElems, hm.droppedData⟩

/-- The limit of the memory stays what it was. It is stated for any bytes, since the kernel would
compare those of a grown memory with the old ones. -/
lemma Store.maxAllowedMemoryPages_setMemory {store : Store T} {bytes : List Byte} {pages : Nat} :
    ({ store with globalMemory := { store.globalMemory with
      sharedMemory := bytes, currentPages := pages } } : Store T).globalMemory.maxAllowedMemoryPages =
        store.globalMemory.maxAllowedMemoryPages :=
  rfl

/-- The indices of an active segment, whose bytes begin at `start`, are not negative as signed
numbers, as which the executor reads them. -/
def DataSegment.Readable (start : Nat) : DataSegment → Prop
  | .active offset bytes => offset.toNat < 2 ^ 31 ∧ start < 2 ^ 31 ∧ bytes.length < 2 ^ 31
  | .passive _ => True

/-- Whether a segment can be read is decided by its offsets. -/
instance (start : Nat) (segment : DataSegment) : Decidable (segment.Readable start) := by
  cases segment <;> unfold DataSegment.Readable <;> infer_instance

/-- What the machine makes of a data segment, where `start` says where the bytes of each begin. -/
def Instance.readData (start : Nat → Nat) (i : Instance) (item : DataSegment × Nat) :
    Option Instance :=
  if item.1.Readable (start item.2) then i.initData item else none

/-- The size a table gets: growing past the maximum fails, and leaves it empty. -/
def grownSize (initial : Nat) : Nat :=
  if initial ≤ N_MAX_TABLE_SIZE then initial else 0

/-- The pages a memory gets: growing past the limit fails, and leaves it empty. -/
def grownPages (limit initial : Nat) : Nat :=
  if initial ≤ limit then initial else 0

/-- The code and the sections of a module begin with those of a builder. -/
structure SegmentBuilder.Placed (m : RwasmModule) (n : Nat) (addr : Nat → Nat)
    (sb : SegmentBuilder) : Prop where
  code : CodeAt m.codeSection 0 (sb.entrypointBytecode.map (Opcode.relocated addr))
  length_le : sb.entrypointBytecode.length ≤ n
  data : sb.globalMemorySection <+: m.dataSection
  elements : sb.globalElementSection.map (relocatedRef addr) <+: m.elemSection

/-- A builder to which nothing but more code and more segments were added. -/
structure SegmentBuilder.Le (sb sb' : SegmentBuilder) : Prop where
  code : sb.entrypointBytecode <+: sb'.entrypointBytecode
  data : sb.globalMemorySection <+: sb'.globalMemorySection
  elements : sb.globalElementSection <+: sb'.globalElementSection

/-- Where the code of a builder takes a fresh executor: behind the code, with an instance in the store,
or to a trap. -/
def SegmentBuilder.Reaches (m : RwasmModule) (host : Host T) (n : Nat) (addr : Nat → Nat)
    (store : Store T) (sb : SegmentBuilder) : Instance × Option TrapCode → Prop
  | (i, none) => ∃ store' : Store T,
    (vmWithin m host 0 n).Steps (.fresh store 0) (.fresh store' sb.entrypointBytecode.length) ∧
      i.Matches addr store' ∧
      store'.globalMemory.maxAllowedMemoryPages = store.globalMemory.maxAllowedMemoryPages
  | (i, some code) => ∃ e : Executor T,
    (vmWithin m host 0 n).Halts (.fresh store 0) (.halt (.trapped code e)) ∧ i.Matches addr e.store

namespace Instance

variable {addr : Nat → Nat} {i : Instance} {v : Value} {idx : Nat}

/-- There are no slots behind those of the globals. -/
lemma globalVariable_of_le (h : 2 * i.globals.length ≤ idx) : i.globalVariable addr idx = none := by
  rw [globalVariable, List.getElem?_eq_none (by omega)]
  rfl

/-- One more global takes the next two slots. -/
lemma globalVariable_append (v : Value) :
    ({ i with globals := i.globals ++ [v] } : Instance).globalVariable addr idx =
      if idx = 2 * i.globals.length then some (v.slots addr).1
      else if idx = 2 * i.globals.length + 1 then (v.slots addr).2
      else i.globalVariable addr idx := by
  rcases Nat.lt_trichotomy (idx / 2) i.globals.length with lt | eq | gt
  · rw [if_neg (by omega), if_neg (by omega), globalVariable, List.getElem?_append_left lt]
    rfl
  · have at_ : (i.globals ++ [v])[idx / 2]? = some v := by
      rw [List.getElem?_append_right (by omega), eq, Nat.sub_self]
      rfl
    rw [globalVariable, at_]
    rcases Nat.mod_two_eq_zero_or_one idx with even | odd
    · rw [if_pos (by omega : idx = 2 * i.globals.length)]
      simp [even]
    · rw [if_neg (by omega), if_pos (by omega : idx = 2 * i.globals.length + 1)]
      simp [odd]
  · rw [if_neg (by omega), if_neg (by omega), globalVariable_of_le (by simp; omega),
      globalVariable_of_le (by omega)]

/-- A value of one slot is set by one instruction. -/
lemma Matches.setNarrow {store : Store T} {x : UntypedValue} (h : i.Matches addr store)
    (slots : v.slots addr = (x, none)) :
    ({ i with globals := i.globals ++ [v] } : Instance).Matches addr { store with
      globalVariables := Function.update store.globalVariables (i.globals.length * 2) (some x) } := by
  refine ⟨?_, h.tables, h.memory, h.pages, h.droppedElems, h.droppedData⟩
  intro idx
  dsimp only
  rw [globalVariable_append, slots]
  by_cases eq : idx = i.globals.length * 2
  · rw [if_pos (by omega), eq, Function.update_self]
  · rw [if_neg (by omega), Function.update_of_ne eq, h.globals]
    split
    next odd => exact globalVariable_of_le (by omega)
    · rfl

/-- A value of two slots is set by two instructions. -/
lemma Matches.setWide {store : Store T} {lo hi : UntypedValue} (h : i.Matches addr store)
    (slots : v.slots addr = (hi, some lo)) :
    ({ i with globals := i.globals ++ [v] } : Instance).Matches addr { store with
      globalVariables := Function.update
        (Function.update store.globalVariables (i.globals.length * 2) (some hi))
        (i.globals.length * 2 + 1) (some lo) } := by
  refine ⟨?_, h.tables, h.memory, h.pages, h.droppedElems, h.droppedData⟩
  intro idx
  dsimp only
  rw [globalVariable_append, slots]
  by_cases odd : idx = i.globals.length * 2 + 1
  · rw [if_neg (by omega), if_pos (by omega), odd, Function.update_self]
  · rw [Function.update_of_ne odd]
    by_cases even : idx = i.globals.length * 2
    · rw [if_pos (by omega), even, Function.update_self]
    · rw [if_neg (by omega), if_neg (by omega), Function.update_of_ne even, h.globals]

/-- One more table. -/
lemma Matches.addTable {store : Store T} {elements : List UntypedValue} (h : i.Matches addr store) :
    ({ i with tables := i.tables ++ [elements] } : Instance).Matches addr { store with
      tables := Function.update store.tables i.tables.length
        (some ⟨elements.map (relocatedRef addr)⟩) } := by
  refine ⟨h.globals, ?_, h.memory, h.pages, h.droppedElems, h.droppedData⟩
  intro t
  dsimp only
  rcases Nat.lt_trichotomy t i.tables.length with lt | rfl | gt
  · rw [Function.update_of_ne (Nat.ne_of_lt lt), h.tables, List.getElem?_append_left lt]
  · rw [Function.update_self, List.getElem?_append_right (Nat.le_refl _), Nat.sub_self]
    rfl
  · rw [Function.update_of_ne (Nat.ne_of_gt gt), h.tables, List.getElem?_eq_none (Nat.le_of_lt gt),
      List.getElem?_eq_none (by rw [List.length_append, List.length_singleton]; omega)]

/-- Copied elements, and one more dropped segment. -/
lemma Matches.copyElements {store : Store T} {table k start : Nat} {dst elements : List UntypedValue}
    (h : i.Matches addr store) (found : i.tables[table]? = some dst)
    (ascending : ∀ j ∈ i.droppedElems, j < k) :
    ({ i with
      tables := i.tables.set table (dst.setSlice start elements)
      droppedElems := i.droppedElems ++ [k] } : Instance).Matches addr { store with
        tables := Function.update store.tables table
          (some ⟨(dst.map (relocatedRef addr)).setSlice start (elements.map (relocatedRef addr))⟩)
        emptyElemSegments := store.emptyElemSegments.drop (k + 1) } := by
  refine ⟨h.globals, ?_, h.memory, h.pages, ?_, h.droppedData⟩
  · intro t
    dsimp only
    by_cases eq : t = table
    · have lt : table < i.tables.length := (List.getElem?_eq_some_iff.mp found).1
      rw [eq, Function.update_self, List.getElem?_set_self lt, Option.map_some, List.map_setSlice]
    · rw [Function.update_of_ne eq, List.getElem?_set_ne (Ne.symm eq), h.tables]
  · rw [List.map_append]
    refine SegmentFlags.Exact.drop h.droppedElems fun j mem => ?_
    obtain ⟨j', hj', rfl⟩ := List.mem_map.mp mem
    exact Nat.succ_le_succ (ascending j' hj').le

/-- Copied bytes, and one more dropped segment. -/
lemma Matches.copyData {store : Store T} {k start : Nat} {bytes : List Byte}
    (h : i.Matches addr store) (fits : start + bytes.length ≤ i.memory.length)
    (ascending : ∀ j ∈ i.droppedData, j < k) :
    ({ i with
      memory := i.memory.setSlice start bytes
      droppedData := i.droppedData ++ [k] } : Instance).Matches addr { store with
        globalMemory := store.globalMemory.setData (i.memory.setSlice start bytes)
        emptyDataSegments := store.emptyDataSegments.drop (k + 1) } := by
  refine ⟨h.globals, h.tables, rfl, ?_, h.droppedElems, ?_⟩
  · exact h.pages.trans (List.length_setSlice fits).symm
  · rw [List.map_append]
    refine SegmentFlags.Exact.drop h.droppedData fun j mem => ?_
    obtain ⟨j', hj', rfl⟩ := List.mem_map.mp mem
    exact Nat.succ_le_succ (ascending j' hj').le

/-- Instances in one store have the same sizes and have dropped the same data segments. -/
lemma Matches.sizes {store : Store T} {i' : Instance} (h : i.Matches addr store) (h' : i'.Matches addr store) :
    i.tables.map List.length = i'.tables.map List.length ∧ i.memory = i'.memory ∧
      ∀ k, k ∈ i.droppedData ↔ k ∈ i'.droppedData := by
  refine ⟨?_, h.memory.symm.trans h'.memory, ?_⟩
  · apply List.ext_getElem?
    intro t
    have eq := (h.tables t).symm.trans (h'.tables t)
    rw [List.getElem?_map, List.getElem?_map]
    generalize i.tables[t]? = a at eq
    generalize i'.tables[t]? = b at eq
    cases a <;> cases b <;> simp at eq ⊢
    simpa using congrArg List.length eq
  · intro k
    have iff := (h.droppedData (k + 1)).symm.trans (h'.droppedData (k + 1))
    simpa using iff

end Instance

namespace SegmentBuilder

variable {m : RwasmModule} {host : Host T} {n : Nat} {addr : Nat → Nat} {store : Store T}
  {sb sb' sb'' : SegmentBuilder} {i i' : Instance} {ops : List Opcode}

/-- A builder adds nothing to itself. -/
lemma Le.refl : sb.Le sb :=
  ⟨List.prefix_refl _, List.prefix_refl _, List.prefix_refl _⟩

/-- What is added twice is added. -/
lemma Le.trans (h : sb.Le sb') (h' : sb'.Le sb'') : sb.Le sb'' :=
  ⟨h.code.trans h'.code, h.data.trans h'.data, h.elements.trans h'.elements⟩

/-- What begins with a builder begins with what it was before. -/
lemma Placed.of_le (h : sb'.Placed m n addr) (le : sb.Le sb') : sb.Placed m n addr where
  code := by
    obtain ⟨ops, eq⟩ := le.code
    have code := h.code
    rw [← eq, List.map_append, CodeAt.append_iff] at code
    exact code.1
  length_le := le.code.length_le.trans h.length_le
  data := le.data.trans h.data
  elements := (le.elements.map _).trans h.elements

/-- The code a builder has emitted last. -/
lemma Placed.emitted (h : sb'.Placed m n addr)
    (eq : sb'.entrypointBytecode = sb.entrypointBytecode ++ ops) :
    CodeAt m.codeSection sb.entrypointBytecode.length (ops.map (Opcode.relocated addr)) := by
  have code := h.code
  rw [eq, List.map_append, CodeAt.append_iff, List.length_map, Nat.zero_add] at code
  exact code.2

/-- Code that is executed behind what was reached. -/
lemma Reaches.append (h : sb.Reaches m host n addr store (i, none)) (placed : sb'.Placed m n addr)
    (eq : sb'.entrypointBytecode = sb.entrypointBytecode ++ ops)
    (run : ∀ (p : Nat) (store' : Store T), CodeAt m.codeSection p (ops.map (Opcode.relocated addr)) →
      p + ops.length ≤ n → i.Matches addr store' →
      store'.globalMemory.maxAllowedMemoryPages = store.globalMemory.maxAllowedMemoryPages →
      ∃ store'' : Store T, (vmWithin m host 0 n).Steps (.fresh store' p) (.fresh store'' (p + ops.length)) ∧
        i'.Matches addr store'' ∧ store''.globalMemory.maxAllowedMemoryPages =
          store'.globalMemory.maxAllowedMemoryPages) :
    sb'.Reaches m host n addr store (i', none) := by
  obtain ⟨store', st, hm, max⟩ := h
  have len : sb'.entrypointBytecode.length = sb.entrypointBytecode.length + ops.length := by
    rw [eq, List.length_append]
  obtain ⟨store'', st', hm', max'⟩ := run _ store' (placed.emitted eq)
    (by rw [← len]; exact placed.length_le) hm max
  refine ⟨store'', ?_, hm', max'.trans max⟩
  rw [len]
  exact st.trans st'

/-- The entrypoint begins by reserving stack. -/
lemma Reaches.start {fuelLimit maxPages : Option Nat} {context : T}
    (placed : ({} : SegmentBuilder).Placed m n addr) :
    ({} : SegmentBuilder).Reaches m host n addr (.new context fuelLimit maxPages) ({}, none) := by
  have first : m.codeSection[0]? = some (stackCheck 5) := placed.code.1
  refine ⟨.new context fuelLimit maxPages, vmWithin_next ⟨Nat.zero_le _, placed.length_le⟩ first rfl .refl,
    ⟨fun _ => rfl, fun _ => rfl, rfl, Nat.zero_mul _, ?_, ?_⟩, rfl⟩
  · exact (Store.dropsExactly_new context fuelLimit maxPages).2
  · exact (Store.dropsExactly_new context fuelLimit maxPages).1

/-! ## Globals -/

variable {global : GlobalVariable} {v : Value}

/-- A global only adds code. -/
lemma addGlobalVariable_le {idx} (added : sb.addGlobalVariable idx global = some sb') : sb.Le sb' := by
  unfold addGlobalVariable at added
  dsimp only at added
  split at added <;> cases added
  all_goals exact ⟨List.prefix_append _ _, List.prefix_refl _, List.prefix_refl _⟩

/-- A global changes the code only. -/
lemma addGlobalVariable_frame {idx} (added : sb.addGlobalVariable idx global = some sb') :
    sb' = { sb with entrypointBytecode := sb'.entrypointBytecode } := by
  unfold addGlobalVariable at added
  dsimp only at added
  split at added <;> cases added <;> rfl

/-- The code of a global initialises it. -/
lemma Reaches.addGlobalVariable (h : sb.Reaches m host n addr store (i, none))
    (added : sb.addGlobalVariable i.globals.length global = some sb')
    (placed : sb'.Placed m n addr) (holds : global.Holds v) :
    sb'.Reaches m host n addr store ({ i with globals := i.globals ++ [v] }, none) := by
  obtain ⟨ty, bits⟩ := holds
  cases v with
  | i32 b | f32 b =>
    simp only [Rwasm.SegmentBuilder.addGlobalVariable, ty, Value.ty, Option.some.injEq] at added
    refine h.append placed (by rw [← added]; rfl) fun p store' code fits hm _ => ?_
    obtain ⟨h0, h1, -⟩ := code
    simp only [List.length_cons, List.length_nil] at fits
    refine ⟨_, ?_, hm.setNarrow (x := b) rfl, rfl⟩
    refine vmWithin_next (by simp [Executor.fresh]; omega) h0 rfl ?_
    refine vmWithin_next (by simp [Executor.fresh, Executor.advance]; omega) h1 rfl ?_
    rw [← bits]
    exact .refl
  | i64 b | f64 b =>
    simp only [Rwasm.SegmentBuilder.addGlobalVariable, ty, Value.ty, Option.some.injEq] at added
    refine h.append placed (by rw [← added]; rfl) fun p store' code fits hm _ => ?_
    obtain ⟨h0, h1, h2, h3, -⟩ := code
    simp only [List.length_cons, List.length_nil] at fits
    refine ⟨_, ?_, hm.setWide rfl, rfl⟩
    refine vmWithin_next (by simp [Executor.fresh]; omega) h0 rfl ?_
    refine vmWithin_next (by simp [Executor.fresh, Executor.advance]; omega) h1 rfl ?_
    refine vmWithin_next (by simp [Executor.fresh, Executor.advance]; omega) h2 rfl ?_
    refine vmWithin_next (by simp [Executor.fresh, Executor.advance]; omega) h3 rfl ?_
    rw [← bits]
    exact .refl
  | funcRef b | externRef b =>
    simp only [Rwasm.SegmentBuilder.addGlobalVariable, ty, Value.ty, Option.some.injEq] at added
    refine h.append placed (by rw [← added]; rfl) fun p store' code fits hm _ => ?_
    obtain ⟨h0, h1, -⟩ := code
    simp only [List.length_cons, List.length_nil] at fits
    refine ⟨_, ?_, hm.setNarrow (x := relocatedRef addr b) rfl, rfl⟩
    refine vmWithin_next (by simp [Executor.fresh]; omega) h0 rfl ?_
    refine vmWithin_next (by simp [Executor.fresh, Executor.advance]; omega) h1 rfl ?_
    rw [← bits]
    exact .refl

/-! ## Tables and memory -/

/-- Growing a table that is not there yet. -/
lemma visitTableGrow_new {e : Executor T} {table : Nat} {delta init : UntypedValue}
    {stack : List UntypedValue} (pushed : e.valueStack = delta :: init :: stack)
    (new : e.store.tables table = none) :
    ∃ r, e.visitTableGrow table = .next { (e.setTable table
      ⟨List.replicate (grownSize delta.toNat) init⟩).advance 1 with valueStack := r :: stack } := by
  unfold Executor.visitTableGrow
  rw [pushed, new]
  simp only [Option.getD_none, TableEntity.growUntyped, TableEntity.size, List.length_nil,
    Nat.zero_add]
  by_cases fits : delta.toNat ≤ N_MAX_TABLE_SIZE
  · rw [grownSize, if_pos fits, if_neg (Nat.not_lt.mpr fits)]
    exact ⟨_, rfl⟩
  · rw [grownSize, if_neg fits, if_pos (Nat.lt_of_not_le fits)]
    exact ⟨_, rfl⟩

/-- The code of a table grows it. -/
lemma Reaches.emitTableSegment {initial : Nat} (h : sb.Reaches m host n addr store (i, none))
    (placed : (sb.emitTableSegment i.tables.length initial).Placed m n addr)
    (small : initial < 2 ^ 32) :
    (sb.emitTableSegment i.tables.length initial).Reaches m host n addr store
      ({ i with tables := i.tables ++ [List.replicate (grownSize initial) 0] }, none) := by
  refine h.append placed rfl fun p store' code fits hm _ => ?_
  obtain ⟨h0, h1, h2, h3, -⟩ := code
  simp only [List.length_cons, List.length_nil] at fits
  have new : store'.tables i.tables.length = none := by
    rw [hm.tables, List.getElem?_eq_none (Nat.le_refl _)]
    rfl
  let mid : Executor T := ⟨[BitVec.ofNat 32 initial, BitVec.ofNat 32 (addr 0)], N_DEFAULT_STACK_SIZE,
    [], p + 2, store'⟩
  obtain ⟨r, grow⟩ := visitTableGrow_new (e := mid) rfl new
  refine ⟨_, ?_, hm.addTable, rfl⟩
  refine vmWithin_next (by simp [Executor.fresh]; omega) h0 rfl ?_
  refine vmWithin_next (by simp [Executor.fresh, Executor.advance]; omega) h1 rfl ?_
  refine vmWithin_next (e := mid) (by simp [mid]; omega) h2 grow ?_
  refine vmWithin_next (by simp [mid, Executor.setTable, Executor.advance]; omega) h3 rfl ?_
  have toNat : (BitVec.ofNat 32 initial).toNat = initial := by
    rw [BitVec.toNat_ofNat, Nat.mod_eq_of_lt small]
  have ref : relocatedRef addr 0 = BitVec.ofNat 32 (addr 0) := rfl
  rw [toNat, List.map_replicate, ref]
  exact .refl

/-- Growing an empty memory. -/
lemma visitMemoryGrow_empty {e : Executor T} {delta : UntypedValue} {stack : List UntypedValue}
    {initial limit : Nat} (pushed : e.valueStack = delta :: stack) (delta_eq : delta.toNat = initial)
    (pos : 0 < initial) (le : initial ≤ 65536) (empty : e.store.globalMemory.sharedMemory = [])
    (pages : e.store.globalMemory.currentPages = 0)
    (limit_eq : e.store.globalMemory.maxAllowedMemoryPages = limit) :
    ∃ r, e.visitMemoryGrow = .next { e.advance 1 with
      valueStack := r :: stack
      store := { e.store with
        globalMemory := { e.store.globalMemory with
          sharedMemory := zeroMemory (grownPages limit initial)
          currentPages := grownPages limit initial } } } := by
  subst limit_eq
  have fit : Pages.new initial = some initial := if_pos le
  have desired : Pages.new (e.store.globalMemory.currentPages + initial) = some initial := by
    rw [pages, Nat.zero_add, fit]
  unfold Executor.visitMemoryGrow
  rw [pushed]
  dsimp only
  rw [delta_eq, fit, Option.bind_some, GlobalMemory.grow, if_neg (Nat.ne_of_gt pos), desired]
  dsimp only
  rw [empty, List.length_nil, Nat.sub_zero, List.nil_append, if_neg (Nat.not_lt_zero _)]
  by_cases fits : initial ≤ e.store.globalMemory.maxAllowedMemoryPages
  · rw [grownPages, if_pos fits, if_neg (Nat.not_lt.mpr fits)]
    exact ⟨_, rfl⟩
  · rw [grownPages, if_neg fits, if_pos (Nat.lt_of_not_le fits)]
    refine ⟨-1, ?_⟩
    rw [zeroMemory, Nat.zero_mul, List.replicate_zero, ← empty, ← pages]
    rfl

/-- Memory pages only add code. -/
lemma addMemoryPages_le {initial max} (added : sb.addMemoryPages initial max = some sb') :
    sb.Le sb' := by
  unfold addMemoryPages at added
  dsimp only at added
  split at added
  · cases added
  · cases added
    split
    · exact ⟨List.prefix_append _ _, List.prefix_refl _, List.prefix_refl _⟩
    · exact ⟨List.prefix_refl _, List.prefix_refl _, List.prefix_refl _⟩

/-- Memory pages change the code and the number of pages. -/
lemma addMemoryPages_frame {initial max} (added : sb.addMemoryPages initial max = some sb') :
    sb' = { sb with
      entrypointBytecode := sb'.entrypointBytecode
      totalAllocatedPages := sb'.totalAllocatedPages } := by
  unfold addMemoryPages at added
  dsimp only at added
  split at added
  · cases added
  · cases added
    split <;> rfl

/-- The pages of a memory are counted. -/
lemma le_totalAllocatedPages {initial max} (added : sb.addMemoryPages initial max = some sb')
    (le : initial ≤ 65536) : initial ≤ sb'.totalAllocatedPages := by
  unfold addMemoryPages at added
  dsimp only at added
  split at added
  · cases added
  · cases added
    dsimp only
    omega

/-- The code of a memory grows it. -/
lemma Reaches.addMemoryPages {initial max : Nat} (h : sb.Reaches m host n addr store (i, none))
    (added : sb.addMemoryPages initial max = some sb') (placed : sb'.Placed m n addr)
    (empty : i.memory = []) (le : initial ≤ 65536) :
    sb'.Reaches m host n addr store ({ i with
      memory := zeroMemory (grownPages store.globalMemory.maxAllowedMemoryPages initial) }, none) := by
  unfold Rwasm.SegmentBuilder.addMemoryPages at added
  dsimp only at added
  split at added
  · cases added
  · cases added
    by_cases pos : 0 < initial
    · rw [if_pos pos] at placed ⊢
      refine h.append placed rfl fun p store' code fits hm max => ?_
      obtain ⟨h0, h1, h2, -⟩ := code
      have len : p + 3 ≤ n := fits
      have shared := hm.memory.trans empty
      have pages : store'.globalMemory.currentPages = 0 := by
        have eq := hm.pages
        rw [empty, List.length_nil, N_BYTES_PER_MEMORY_PAGE] at eq
        omega
      have toNat : (BitVec.ofNat 32 initial).toNat = initial := by
        rw [BitVec.toNat_ofNat]
        omega
      let mid : Executor T := ⟨[BitVec.ofNat 32 initial], N_DEFAULT_STACK_SIZE, [], p + 1, store'⟩
      obtain ⟨r, grow⟩ := visitMemoryGrow_empty (e := mid) rfl toNat pos le shared pages max
      let after : Store T := { store' with
        globalMemory := { store'.globalMemory with
          sharedMemory := zeroMemory (grownPages store.globalMemory.maxAllowedMemoryPages initial)
          currentPages := grownPages store.globalMemory.maxAllowedMemoryPages initial } }
      refine ⟨after, ?_, hm.setMemory List.length_replicate.symm,
        Store.maxAllowedMemoryPages_setMemory⟩
      refine vmWithin_next (by simp [Executor.fresh]; omega) h0 rfl ?_
      refine vmWithin_next (e := mid) (by simp [mid]; omega) h1 grow ?_
      exact vmWithin_next (by simp [mid, Executor.advance]; omega) h2 rfl .refl
    · have zero : initial = 0 := by omega
      rw [if_neg pos] at placed ⊢
      obtain ⟨store', st, hm, max⟩ := h
      refine ⟨store', st, ?_, max⟩
      have same : zeroMemory (grownPages store.globalMemory.maxAllowedMemoryPages initial) =
          i.memory := by
        rw [zero, grownPages, if_pos (Nat.zero_le _), zeroMemory, Nat.zero_mul, empty]
        rfl
      rw [same]
      exact hm

/-! ## Element segments -/

/-- An element segment only adds. -/
lemma addElement_le {k : Nat} {seg : ElementSegment} : sb.Le (sb.addElement k seg) := by
  cases seg
  · exact ⟨List.prefix_append _ _, List.prefix_refl _, List.prefix_append _ _⟩
  · exact ⟨List.prefix_refl _, List.prefix_refl _, List.prefix_append _ _⟩
  · exact ⟨List.prefix_refl _, List.prefix_refl _, List.prefix_append _ _⟩

/-- The code of an element segment copies it, if it is active. -/
lemma Reaches.addElement {k : Nat} {seg : ElementSegment}
    (h : sb.Reaches m host n addr store (i, none))
    (placed : (sb.addElement k seg).Placed m n addr) (small : m.elemSection.length < 2 ^ 32)
    (ascending : ∀ j ∈ i.droppedElems, j < k)
    (exist : ∀ offset table elements, seg = .active offset table elements → table < i.tables.length) :
    (sb.addElement k seg).Reaches m host n addr store
      (Instance.outcomeOf .tableOutOfBounds (applyUpdates Instance.initElement i [(seg, k)])) := by
  cases seg with
  | passive elements =>
    exact h
  | declared => exact h
  | active offset table elements =>
    obtain ⟨store', st, hm, max⟩ := h
    obtain ⟨h0, h1, h2, h3, h4, h5, -⟩ := placed.emitted rfl
    have len : sb.entrypointBytecode.length + 6 ≤ n := by
      have le := placed.length_le
      rw [show (sb.addElement k (.active offset table elements)).entrypointBytecode =
        sb.entrypointBytecode ++ _ from rfl, List.length_append] at le
      exact le
    set p := sb.entrypointBytecode.length with hp
    -- the segment stands in the element section behind those before it
    have held : sb.globalElementSection.map (relocatedRef addr) ++ elements.map (relocatedRef addr) <+:
        m.elemSection := by
      rw [← List.map_append]
      exact placed.elements
    have range := List.take_drop_of_prefix held
    have bound := held.length_le
    rw [List.length_append] at bound
    simp only [List.length_map] at range bound
    have unflagged : ¬ store'.emptyElemSegments.isEmpty (k + 1) := by
      rw [hm.droppedElems]
      intro mem
      obtain ⟨j, hj, eq⟩ := List.mem_map.mp mem
      have := ascending j hj
      omega
    obtain ⟨dst, hdst⟩ : ∃ dst, i.tables[table]? = some dst :=
      ⟨_, List.getElem?_eq_getElem (exist offset table elements rfl)⟩
    have found : store'.tables table = some ⟨dst.map (relocatedRef addr)⟩ := by
      rw [hm.tables, hdst]
      rfl
    let mid : Executor T := ⟨[BitVec.ofNat 32 elements.length,
      BitVec.ofNat 32 sb.globalElementSection.length, offset], N_DEFAULT_STACK_SIZE, [], p + 3, store'⟩
    have fetched : mid.fetchTableIndex m = some table := by
      simp only [Executor.fetchTableIndex, mid]
      rw [h4]
      rfl
    have run := visitTableInit_eq (e := mid) (k + 1) fetched found rfl
    rw [visibleElems, if_neg unflagged, BitVec.toNat_ofNat, BitVec.toNat_ofNat,
      Nat.mod_eq_of_lt (by omega), Nat.mod_eq_of_lt (by omega), range, List.length_map] at run
    have reach : (vmWithin m host 0 n).Steps (.fresh store 0) mid := by
      refine st.trans ?_
      refine vmWithin_next (by simp [Executor.fresh]; omega) h0 rfl ?_
      refine vmWithin_next (by simp [Executor.fresh, Executor.advance]; omega) h1 rfl ?_
      exact vmWithin_next (by simp [Executor.fresh, Executor.advance]; omega) h2 rfl .refl
    have getD : i.tables.getD table [] = dst := by
      rw [List.getD_eq_getElem?_getD, hdst]
      rfl
    by_cases inRange : offset.toNat + elements.length ≤ dst.length
    · have next : i.initElement (.active offset table elements, k) = some { i with
          tables := i.tables.set table (dst.setSlice offset.toNat elements)
          droppedElems := i.droppedElems ++ [k] } := by
        simp only [Instance.initElement, getD, if_pos inRange]
      rw [if_pos ⟨inRange, by omega⟩] at run
      rw [Updates.apply_cons_some next]
      refine ⟨_, ?_, hm.copyElements hdst ascending, max⟩
      have end_ : (sb.addElement k (.active offset table elements)).entrypointBytecode.length = p + 6 :=
        List.length_append
      rw [end_]
      refine reach.trans (vmWithin_next (by simp [mid]; omega) h3 run ?_)
      exact vmWithin_next (by simp [mid, Executor.setTable, Executor.advance]; omega) h5 rfl .refl
    · have none : i.initElement (.active offset table elements, k) = none := by
        simp only [Instance.initElement, getD, if_neg inRange]
      rw [if_neg (fun h => inRange h.1)] at run
      rw [Updates.apply_cons_none none]
      exact ⟨_, reach.halts (vmWithin_halt (by simp [mid]; omega) h3 run), hm⟩

/-- The element segments only add. -/
lemma processElement_le {k : Nat} {segs : List ElementSegment} : sb.Le (sb.processElement k segs) := by
  induction segs generalizing sb k with
  | nil => exact .refl
  | cons seg segs ih => exact addElement_le.trans ih

/-- Element segments leave the data section and the counted pages alone. -/
lemma processElement_frame {k : Nat} {segs : List ElementSegment} :
    (sb.processElement k segs).globalMemorySection = sb.globalMemorySection ∧
      (sb.processElement k segs).totalAllocatedPages = sb.totalAllocatedPages := by
  induction segs generalizing sb k with
  | nil => exact ⟨rfl, rfl⟩
  | cons seg segs ih =>
    rw [SegmentBuilder.processElement, ih.1, ih.2]
    cases seg <;> exact ⟨rfl, rfl⟩

/-- The code of the element segments copies the active ones, in order. -/
lemma Reaches.processElement {k : Nat} {segs : List ElementSegment}
    (h : sb.Reaches m host n addr store (i, none))
    (placed : (sb.processElement k segs).Placed m n addr) (small : m.elemSection.length < 2 ^ 32)
    (ascending : ∀ j ∈ i.droppedElems, j < k)
    (exist : ∀ offset table elements, .active offset table elements ∈ segs → table < i.tables.length) :
    (sb.processElement k segs).Reaches m host n addr store
      (Instance.outcomeOf .tableOutOfBounds (applyUpdates Instance.initElement i (segs.zipIdx k))) := by
  induction segs generalizing sb i k with
  | nil => exact h
  | cons seg segs ih =>
    have step := h.addElement (placed.of_le processElement_le) small ascending
      fun offset table elements eq => exist offset table elements (eq ▸ List.mem_cons_self)
    rw [List.zipIdx_cons]
    cases next : i.initElement (seg, k) with
    | none =>
      rw [Updates.apply_cons_none next] at step ⊢
      exact step
    | some i' =>
      rw [Updates.apply_cons_some next] at step ⊢
      obtain ⟨frame, sizes, drops⟩ := Instance.initElement_frame next
      refine ih step placed ?_ ?_
      · intro j mem
        rcases drops with eq | eq
        · rw [eq] at mem
          exact (ascending j mem).trans (Nat.lt_succ_self k)
        · rw [eq, List.mem_append, List.mem_singleton] at mem
          rcases mem with mem | rfl
          · exact (ascending j mem).trans (Nat.lt_succ_self k)
          · exact Nat.lt_succ_self j
      · intro offset table elements mem
        have count := congrArg List.length sizes
        rw [List.length_map, List.length_map] at count
        rw [count]
        exact exist offset table elements (List.mem_cons_of_mem seg mem)

/-! ## Data segments -/

/-- A data segment only adds. -/
lemma addData_le {k : Nat} {seg : DataSegment} : sb.Le (sb.addData k seg) := by
  cases seg
  · exact ⟨List.prefix_append _ _, List.prefix_append _ _, List.prefix_refl _⟩
  · exact ⟨List.prefix_refl _, List.prefix_append _ _, List.prefix_refl _⟩

/-- A segment with a memory overflow does not fit in the memory. -/
lemma hasMemoryOverflow_imp {offset : UntypedValue} {length size : Nat}
    (h : sb.hasMemoryOverflow offset length) (small : length < 2 ^ 32)
    (bound : size ≤ sb.totalAllocatedPages * N_BYTES_PER_MEMORY_PAGE) :
    size < offset.toNat + length := by
  unfold hasMemoryOverflow N_BYTES_PER_MEMORY_PAGE at *
  have past := of_decide_eq_true h
  rw [Nat.mod_eq_of_lt small] at past
  omega

/-- The code of a data segment copies it, if it is active and readable. -/
lemma Reaches.addData {k : Nat} {seg : DataSegment} {start : Nat → Nat}
    (h : sb.Reaches m host n addr store (i, none)) (placed : (sb.addData k seg).Placed m n addr)
    (small : m.dataSection.length < 2 ^ 32) (ascending : ∀ j ∈ i.droppedData, j < k)
    (begins : start k = sb.globalMemorySection.length)
    (pages : i.memory.length ≤ sb.totalAllocatedPages * N_BYTES_PER_MEMORY_PAGE)
    (bounded : i.memory.length ≤ 2 ^ 31) :
    (sb.addData k seg).Reaches m host n addr store
      (Instance.outcomeOf .memoryOutOfBounds (applyUpdates (Instance.readData start) i [(seg, k)])) := by
  cases seg with
  | passive bytes => exact h
  | active offset bytes =>
    obtain ⟨store', st, hm, max⟩ := h
    obtain ⟨h0, h1, h2, h3, h4, -⟩ := placed.emitted rfl
    have len : sb.entrypointBytecode.length + 5 ≤ n := by
      have le := placed.length_le
      rw [show (sb.addData k (.active offset bytes)).entrypointBytecode =
        sb.entrypointBytecode ++ _ from rfl, List.length_append] at le
      exact le
    set p := sb.entrypointBytecode.length with hp
    -- the segment stands in the data section behind those before it
    have held : sb.globalMemorySection ++ bytes <+: m.dataSection := placed.data
    have range := List.take_drop_of_prefix held
    have bound := held.length_le
    rw [List.length_append] at bound
    have unflagged : ¬ store'.emptyDataSegments.isEmpty 0 := by
      rw [hm.droppedData]
      intro mem
      obtain ⟨j, -, eq⟩ := List.mem_map.mp mem
      omega
    let count : UntypedValue :=
      if sb.hasMemoryOverflow offset bytes.length then -1 else BitVec.ofNat 32 bytes.length
    let mid : Executor T := ⟨[count, BitVec.ofNat 32 sb.globalMemorySection.length, offset],
      N_DEFAULT_STACK_SIZE, [], p + 3, store'⟩
    have data : mid.data = i.memory := hm.memory
    have run := visitMemoryInit_eq (m := m) (e := mid) 0 rfl small (by rw [data]; exact bounded)
    rw [visibleData, if_neg unflagged, BitVec.toNat_ofNat, Nat.mod_eq_of_lt (by omega), data] at run
    have reach : (vmWithin m host 0 n).Steps (.fresh store 0) mid := by
      refine st.trans ?_
      refine vmWithin_next (by simp [Executor.fresh]; omega) h0 rfl ?_
      refine vmWithin_next (by simp [Executor.fresh, Executor.advance]; omega) h1 rfl ?_
      exact vmWithin_next (by simp [Executor.fresh, Executor.advance]; omega) h2 rfl .refl
    by_cases ok : (DataSegment.active offset bytes).Readable (start k) ∧
        offset.toNat + bytes.length ≤ i.memory.length
    · obtain ⟨readable, inRange⟩ := ok
      have next : i.readData start (.active offset bytes, k) = some { i with
          memory := i.memory.setSlice offset.toNat bytes
          droppedData := i.droppedData ++ [k] } := by
        rw [Instance.readData, if_pos readable]
        simp only [Instance.initData, if_pos inRange]
      obtain ⟨hd, hs, hl⟩ := readable
      have exact_ : count.toNat = bytes.length := by
        have none : ¬ sb.hasMemoryOverflow offset bytes.length := fun past => by
          have := hasMemoryOverflow_imp past (by omega) pages
          omega
        simp only [count, if_neg none, BitVec.toNat_ofNat]
        omega
      rw [exact_, range, if_pos ⟨hd, hl, by omega, inRange, by omega⟩] at run
      rw [Updates.apply_cons_some next]
      refine ⟨_, ?_, hm.copyData inRange ascending, max⟩
      have end_ : (sb.addData k (.active offset bytes)).entrypointBytecode.length = p + 5 :=
        List.length_append
      rw [end_]
      refine reach.trans (vmWithin_next (by simp [mid]; omega) h3 run ?_)
      exact vmWithin_next (by simp [mid, Executor.setData, Executor.advance]; omega) h4 rfl .refl
    · have none : i.readData start (.active offset bytes, k) = none := by
        rw [Instance.readData]
        by_cases readable : (DataSegment.active offset bytes).Readable (start k)
        · rw [if_pos readable]
          simp only [Instance.initData, if_neg fun inRange => ok ⟨readable, inRange⟩]
        · rw [if_neg readable]
      have refused : ¬ (offset.toNat < 2 ^ 31 ∧ count.toNat < 2 ^ 31 ∧
          sb.globalMemorySection.length < 2 ^ 31 ∧ offset.toNat + count.toNat ≤ i.memory.length ∧
          sb.globalMemorySection.length + count.toNat ≤ m.dataSection.length) := by
        rintro ⟨hd, hn, hs, fits, -⟩
        by_cases past : sb.hasMemoryOverflow offset bytes.length
        · simp only [count, if_pos past] at hn
          exact absurd hn (by decide)
        · simp only [count, if_neg past, BitVec.toNat_ofNat] at hn fits
          rw [Nat.mod_eq_of_lt (by omega)] at hn fits
          exact ok ⟨⟨hd, by omega, hn⟩, fits⟩
      rw [if_neg refused] at run
      rw [Updates.apply_cons_none none]
      exact ⟨_, reach.halts (vmWithin_halt (by simp [mid]; omega) h3 run), hm⟩

/-- The data segments only add. -/
lemma processData_le {k : Nat} {segs : List DataSegment} : sb.Le (sb.processData k segs) := by
  induction segs generalizing sb k with
  | nil => exact .refl
  | cons seg segs ih => exact addData_le.trans ih

/-- A data segment adds its bytes. -/
lemma addData_globalMemorySection {k : Nat} {seg : DataSegment} :
    (sb.addData k seg).globalMemorySection = sb.globalMemorySection ++ seg.bytes := by
  cases seg <;> rfl

/-- Data segments leave the element section alone. -/
lemma processData_globalElementSection {k : Nat} {segs : List DataSegment} :
    (sb.processData k segs).globalElementSection = sb.globalElementSection := by
  induction segs generalizing sb k with
  | nil => rfl
  | cons seg segs ih =>
    rw [SegmentBuilder.processData, ih]
    cases seg <;> rfl

/-- A data segment allocates no pages. -/
lemma addData_totalAllocatedPages {k : Nat} {seg : DataSegment} :
    (sb.addData k seg).totalAllocatedPages = sb.totalAllocatedPages := by
  cases seg <;> rfl

/-- What the machine makes of a data segment is what instantiation does, or nothing. -/
lemma readData_refines {start : Nat → Nat} :
    Updates.Refines (Instance.readData start) Instance.initData := by
  intro i item i' h
  unfold Instance.readData at h
  split at h
  · exact h
  · cases h

/-- The code of the data segments copies the active ones, in order. -/
lemma Reaches.processData {k : Nat} {segs : List DataSegment} {start : Nat → Nat}
    (h : sb.Reaches m host n addr store (i, none)) (placed : (sb.processData k segs).Placed m n addr)
    (small : m.dataSection.length < 2 ^ 32) (ascending : ∀ j ∈ i.droppedData, j < k)
    (begins : ∀ j < segs.length,
      start (k + j) = sb.globalMemorySection.length + List.flatStart DataSegment.bytes segs j)
    (pages : i.memory.length ≤ sb.totalAllocatedPages * N_BYTES_PER_MEMORY_PAGE)
    (bounded : i.memory.length ≤ 2 ^ 31) :
    (sb.processData k segs).Reaches m host n addr store
      (Instance.outcomeOf .memoryOutOfBounds (applyUpdates (Instance.readData start) i (segs.zipIdx k))) := by
  induction segs generalizing sb i k with
  | nil => exact h
  | cons seg segs ih =>
    have first : start k = sb.globalMemorySection.length := begins 0 (by simp)
    have step := h.addData (placed.of_le processData_le) small ascending first pages bounded
    rw [List.zipIdx_cons]
    cases next : i.readData start (seg, k) with
    | none =>
      rw [Updates.apply_cons_none next] at step ⊢
      exact step
    | some i' =>
      rw [Updates.apply_cons_some next] at step ⊢
      obtain ⟨-, size, drops⟩ := Instance.initData_frame (readData_refines _ _ _ next)
      refine ih step placed ?_ ?_ ?_ ?_
      · intro j mem
        rcases drops with eq | eq
        · rw [eq] at mem
          exact (ascending j mem).trans (Nat.lt_succ_self k)
        · rw [eq, List.mem_append, List.mem_singleton] at mem
          rcases mem with mem | rfl
          · exact (ascending j mem).trans (Nat.lt_succ_self k)
          · exact Nat.lt_succ_self j
      · intro j lt
        have e : k + 1 + j = k + (j + 1) := by omega
        rw [e, begins (j + 1) (Nat.succ_lt_succ lt), addData_globalMemorySection, List.length_append]
        simp only [List.flatStart, List.take_succ_cons, List.flatMap_cons, List.length_append]
        omega
      · rw [size, addData_totalAllocatedPages]
        exact pages
      · rw [size]
        exact bounded

end SegmentBuilder

end Rwasm
