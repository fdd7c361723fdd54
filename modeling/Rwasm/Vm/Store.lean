import Rwasm.Vm.ImportLinker

/-!
# The store

Linear memory (`vm/memory.rs`), tables (`vm/table_entity.rs`), and the store that holds them together
with globals, fuel and the drop flags of the segments (`vm/store.rs`).

The import linker and the syscall handler are fields of the source's store that no operation changes;
here they form the `Host` that is passed next to it. A handler sees the store through `StoreTr` only,
which is what `Caller` holds.
-/

namespace Rwasm

/-- The maximum number of slots of the value stack. -/
def N_MAX_STACK_SIZE : Nat := 8192

/-- The number of slots a fresh value stack has. -/
def N_DEFAULT_STACK_SIZE : Nat := 32

/-- The maximum number of nested calls. -/
def N_MAX_RECURSION_DEPTH : Nat := 1024

/-- The bytes of a page. -/
def N_BYTES_PER_MEMORY_PAGE : Nat := 65536

/-- The maximum number of pages of a memory. -/
def N_MAX_ALLOWED_MEMORY_PAGES : Nat := 32768

/-- The maximum number of elements of a table. -/
def N_MAX_TABLE_SIZE : Nat := 1024

/-- The null reference. -/
def NULL_FUNC_IDX : UntypedValue := 0

/-- The number of pages, when it does not exceed what 32 bits can address (`Pages::new`). -/
def Pages.new (amount : Nat) : Option Nat :=
  if amount ≤ 65536 then some amount else none

/-- Linear memory (`GlobalMemory`). -/
structure GlobalMemory where
  sharedMemory : List Byte
  currentPages : Nat
  maxAllowedMemoryPages : Nat
  deriving DecidableEq

namespace GlobalMemory

/-- Grows the memory and returns its old size in pages. Reserving the host memory is taken to
succeed. -/
def grow (memory : GlobalMemory) (additional : Nat) : Option (Nat × GlobalMemory) :=
  if additional = 0 then
    some (memory.currentPages, memory)
  else
    match Pages.new (memory.currentPages + additional) with
    | none => none
    | some desired =>
      if memory.maxAllowedMemoryPages < desired then
        none
      else if desired * N_BYTES_PER_MEMORY_PAGE < memory.sharedMemory.length then
        none
      else
        some (memory.currentPages,
          { memory with
            sharedMemory := memory.sharedMemory ++
              List.replicate (desired * N_BYTES_PER_MEMORY_PAGE - memory.sharedMemory.length) 0
            currentPages := desired })

/-- The memory with other bytes. -/
def setData (memory : GlobalMemory) (data : List Byte) : GlobalMemory :=
  { memory with sharedMemory := data }

end GlobalMemory

/-- A table (`TableEntity`). -/
structure TableEntity where
  elements : List UntypedValue := []
  deriving DecidableEq

namespace TableEntity

/-- `size`. -/
def size (table : TableEntity) : Nat := table.elements.length

/-- Grows the table and returns its old size, or `u32::MAX` and the table as it was. -/
def growUntyped (table : TableEntity) (delta : Nat) (init : UntypedValue) :
    UntypedValue × TableEntity :=
  if N_MAX_TABLE_SIZE < table.size + delta then
    (-1, table)
  else
    (BitVec.ofNat 32 table.size, ⟨table.elements ++ List.replicate delta init⟩)

/-- `get_untyped`. -/
def getUntyped (table : TableEntity) (index : Nat) : Option UntypedValue :=
  table.elements[index]?

/-- `set_untyped`. -/
def setUntyped (table : TableEntity) (index : Nat) (value : UntypedValue) : Option TableEntity :=
  if index < table.elements.length then some ⟨table.elements.set index value⟩ else none

/-- Overwrites a range of the table with a range of an element section. -/
def initUntyped (table : TableEntity) (dst : Nat) (element : List UntypedValue) (src len : Nat) :
    Except TrapCode TableEntity :=
  match table.elements.getSlice? dst len, element.getSlice? src len with
  | some _, some items => .ok ⟨table.elements.setSlice dst items⟩
  | _, _ => .error .tableOutOfBounds

/-- Copies between two different tables; returns the destination. -/
def copy (dstTable : TableEntity) (dst : Nat) (srcTable : TableEntity) (src len : Nat) :
    Except TrapCode TableEntity :=
  match dstTable.elements.getSlice? dst len, srcTable.elements.getSlice? src len with
  | some _, some items => .ok ⟨dstTable.elements.setSlice dst items⟩
  | _, _ => .error .tableOutOfBounds

/-- Copies within one table. -/
def copyWithin (table : TableEntity) (dst src len : Nat) : Except TrapCode TableEntity :=
  if max dst src + len < 2 ^ 32 ∧ max dst src + len ≤ table.size then
    .ok ⟨table.elements.setSlice dst ((table.elements.drop src).take len)⟩
  else
    .error .tableOutOfBounds

/-- Fills a range of the table. -/
def fillUntyped (table : TableEntity) (dst : Nat) (val : UntypedValue) (len : Nat) :
    Except TrapCode TableEntity :=
  match table.elements.getSlice? dst len with
  | some _ => .ok ⟨table.elements.setSlice dst (List.replicate len val)⟩
  | none => .error .tableOutOfBounds

end TableEntity

/-- The drop flags of the segments (`BitVec` of the `bitvec` crate, lowest index first). -/
abbrev SegmentFlags := List Bool

namespace SegmentFlags

/-- `BitVec::resize`: extends with `value`, and truncates when it shrinks. -/
def resize (flags : SegmentFlags) (n : Nat) (value : Bool) : SegmentFlags :=
  flags.take n ++ List.replicate (n - flags.length) value

/-- Whether a segment is flagged; indices past the end are not. -/
def isEmpty (flags : SegmentFlags) (idx : Nat) : Bool :=
  flags.getD idx false

/-- What `visit_data_drop` and `visit_element_drop` do to the flags. -/
def drop (flags : SegmentFlags) (idx : Nat) : SegmentFlags :=
  (flags.resize (idx + 1) false).set idx true

/-- What `RwasmStore::reset` does to the flags: short vectors are cleared in place, longer ones
are replaced by an empty one. -/
def reset (flags : SegmentFlags) : SegmentFlags :=
  if flags.length ≤ 8 then flags.map fun _ => false else []

end SegmentFlags

/-- What a syscall handler can reach of the store (`StoreTr`). -/
structure Caller (T : Type) where
  globalMemory : GlobalMemory
  data : T
  consumedFuel : Nat
  fuelLimit : Option Nat

/-- The store (`RwasmStore`). -/
structure Store (T : Type) where
  consumedFuel : Nat
  globalMemory : GlobalMemory
  data : T
  lastSignature : Option Nat
  tables : Nat → Option TableEntity
  globalVariables : Nat → Option UntypedValue
  emptyDataSegments : SegmentFlags
  emptyElemSegments : SegmentFlags
  fuelLimit : Option Nat

/-- What a syscall handler leaves: the store as it sees it, its result buffer and its status. -/
structure HostReply (T : Type) where
  caller : Caller T
  result : List Value
  status : Except TrapCode Unit

/-- A syscall handler (`SyscallHandler`). Its result buffer is a slice, whose length it cannot
change, and `StoreTr` lets it write to memory but not resize it. -/
structure SyscallHandler (T : Type) where
  invoke : Caller T → Nat → List Value → List Value → HostReply T
  length_result : ∀ c f ps rs, (invoke c f ps rs).result.length = rs.length
  length_memory : ∀ c f ps rs, (invoke c f ps rs).caller.globalMemory.sharedMemory.length =
    c.globalMemory.sharedMemory.length
  currentPages_eq : ∀ c f ps rs, (invoke c f ps rs).caller.globalMemory.currentPages =
    c.globalMemory.currentPages
  maxPages_eq : ∀ c f ps rs, (invoke c f ps rs).caller.globalMemory.maxAllowedMemoryPages =
    c.globalMemory.maxAllowedMemoryPages

/-- The import linker and the syscall handler of a store. -/
structure Host (T : Type) where
  importLinker : ImportLinker
  syscallHandler : SyscallHandler T

/-- A host without imports. -/
def Host.empty : Host Unit where
  importLinker := ⟨[], .nil, .nil⟩
  syscallHandler :=
    { invoke := fun c _ _ rs => ⟨c, rs, .ok ()⟩
      length_result := fun _ _ _ _ => rfl
      length_memory := fun _ _ _ _ => rfl
      currentPages_eq := fun _ _ _ _ => rfl
      maxPages_eq := fun _ _ _ _ => rfl }

namespace Store

variable {T : Type}

/-- `RwasmStore::new`. -/
def new (context : T) (fuelLimit : Option Nat) (maxAllowedMemoryPages : Option Nat) : Store T where
  consumedFuel := 0
  globalMemory :=
    { sharedMemory := []
      currentPages := 0
      maxAllowedMemoryPages :=
        min (maxAllowedMemoryPages.getD 1024) N_MAX_ALLOWED_MEMORY_PAGES }
  data := context
  lastSignature := none
  tables := fun _ => none
  globalVariables := fun _ => none
  emptyDataSegments := []
  emptyElemSegments := []
  fuelLimit := fuelLimit

/-- The part of the store a handler sees. -/
def caller (store : Store T) : Caller T where
  globalMemory := store.globalMemory
  data := store.data
  consumedFuel := store.consumedFuel
  fuelLimit := store.fuelLimit

/-- The store after a handler has left its part of it. -/
def setCaller (store : Store T) (c : Caller T) : Store T :=
  { store with
    globalMemory := c.globalMemory
    data := c.data
    consumedFuel := c.consumedFuel
    fuelLimit := c.fuelLimit }

/-- `try_consume_fuel`; the counter is a saturating 64-bit number. -/
def tryConsumeFuel (store : Store T) (delta : Nat) : Option (Store T) :=
  let consumed := min (store.consumedFuel + delta) (2 ^ 64 - 1)
  match store.fuelLimit with
  | some limit => if limit < consumed then none else some { store with consumedFuel := consumed }
  | none => some { store with consumedFuel := consumed }

/-- `RwasmStore::reset`. -/
def reset (store : Store T) (keepFlags : Bool) : Store T :=
  { store with
    consumedFuel := 0
    emptyDataSegments :=
      if keepFlags then store.emptyDataSegments else store.emptyDataSegments.reset
    emptyElemSegments :=
      if keepFlags then store.emptyElemSegments else store.emptyElemSegments.reset
    lastSignature := none }

end Store

end Rwasm
