import Rwasm.Compiler.SegmentBuilder
import Rwasm.Library.Updates

/-!
# Instantiation

What instantiating a Wasm module yields: the values of its globals, its tables and its memory, with
the active segments copied to them in order until one of them is out of bounds. A reference to function
`f` is `f + 1` here, and the null reference is `0`.
-/

namespace Rwasm

/-- The state of an instance. -/
structure Instance where
  globals : List Value := []
  tables : List (List UntypedValue) := []
  memory : List Byte := []
  droppedElems : List Nat := []
  droppedData : List Nat := []

namespace Instance

/-- Copies an element segment with its index, and drops it, when it is active. -/
def initElement (i : Instance) : ElementSegment × Nat → Option Instance
  | (.active offset table elements, segment) =>
    let dst := i.tables.getD table []
    if offset.toNat + elements.length ≤ dst.length then
      some { i with
        tables := i.tables.set table (dst.setSlice offset.toNat elements)
        droppedElems := i.droppedElems ++ [segment] }
    else none
  | (.passive _, _) | (.declared, _) => some i

/-- Copies a data segment with its index, and drops it, when it is active. -/
def initData (i : Instance) : DataSegment × Nat → Option Instance
  | (.active offset bytes, segment) =>
    if offset.toNat + bytes.length ≤ i.memory.length then
      some { i with
        memory := i.memory.setSlice offset.toNat bytes
        droppedData := i.droppedData ++ [segment] }
    else none
  | (.passive _, _) => some i

/-- What was reached by copying segments, and the trap that ended it if it was not finished. -/
def outcomeOf (code : TrapCode) : Instance × Bool → Instance × Option TrapCode
  | (i, true) => (i, none)
  | (i, false) => (i, some code)

/-- Copies the segments, the data segments with `copyData`: the state reached, and how it ended. -/
def copySegments (copyData : Instance → DataSegment × Nat → Option Instance) (i : Instance)
    (elements : List ElementSegment) (data : List DataSegment) : Instance × Option TrapCode :=
  match applyUpdates initElement i elements.zipIdx with
  | (i, false) => (i, some .tableOutOfBounds)
  | (i, true) => outcomeOf .memoryOutOfBounds (applyUpdates copyData i data.zipIdx)

variable {i i' : Instance} {copyData : Instance → DataSegment × Nat → Option Instance}

/-- An element segment changes the tables, but not their sizes, and may be dropped. -/
lemma initElement_frame {seg k} (h : i.initElement (seg, k) = some i') :
    i' = { i with tables := i'.tables, droppedElems := i'.droppedElems } ∧
      i'.tables.map List.length = i.tables.map List.length ∧
      (i'.droppedElems = i.droppedElems ∨ i'.droppedElems = i.droppedElems ++ [k]) := by
  cases seg with
  | active offset table elements =>
    simp only [initElement] at h
    split at h
    next fits =>
      cases h
      refine ⟨rfl, ?_, .inr rfl⟩
      apply List.ext_getElem?
      intro t
      dsimp only
      rw [List.getElem?_map, List.getElem?_map]
      by_cases eq : table = t
      · subst eq
        by_cases lt : table < i.tables.length
        · rw [List.getD_eq_getElem?_getD, List.getElem?_eq_getElem lt, Option.getD_some] at fits ⊢
          rw [List.getElem?_set_self lt, Option.map_some, Option.map_some, List.length_setSlice fits]
        · rw [List.getElem?_eq_none (by rw [List.length_set]; omega),
            List.getElem?_eq_none (by omega)]
      · rw [List.getElem?_set_ne eq]
    · cases h
  | passive | declared =>
    cases h
    exact ⟨rfl, rfl, .inl rfl⟩

/-- A data segment changes the memory, but not its size, and may be dropped. -/
lemma initData_frame {seg k} (h : i.initData (seg, k) = some i') :
    i' = { i with memory := i'.memory, droppedData := i'.droppedData } ∧
      i'.memory.length = i.memory.length ∧
      (i'.droppedData = i.droppedData ∨ i'.droppedData = i.droppedData ++ [k]) := by
  cases seg with
  | active offset bytes =>
    simp only [initData] at h
    split at h
    next fits =>
      cases h
      exact ⟨rfl, List.length_setSlice fits, .inr rfl⟩
    · cases h
  | passive =>
    cases h
    exact ⟨rfl, rfl, .inl rfl⟩

/-- Copying segments is finished, or ends out of bounds. -/
lemma copySegments_code {elements : List ElementSegment} {data : List DataSegment} :
    (i.copySegments copyData elements data).2 = none ∨
      (i.copySegments copyData elements data).2 = some .tableOutOfBounds ∨
      (i.copySegments copyData elements data).2 = some .memoryOutOfBounds := by
  unfold copySegments
  split
  · exact .inr (.inl rfl)
  next i' _ =>
    generalize applyUpdates copyData i' data.zipIdx = out
    obtain ⟨j, _ | _⟩ := out
    · exact .inr (.inr rfl)
    · exact .inl rfl

/-- Copying elements keeps the sizes of the tables, and all else but what was dropped. -/
lemma copyElements_keeps {elements : List ElementSegment} :
    (applyUpdates initElement i elements.zipIdx).1.tables.map List.length = i.tables.map List.length ∧
      (applyUpdates initElement i elements.zipIdx).1.memory = i.memory ∧
      (applyUpdates initElement i elements.zipIdx).1.droppedData = i.droppedData := by
  refine Updates.apply_preserves (I := fun i' : Instance =>
    i'.tables.map List.length = i.tables.map List.length ∧ i'.memory = i.memory ∧
      i'.droppedData = i.droppedData) ?_ ⟨rfl, rfl, rfl⟩
  rintro s ⟨seg, k⟩ s' - next ⟨tables, memory, dropped⟩
  obtain ⟨frame, sizes, -⟩ := initElement_frame next
  refine ⟨sizes.trans tables, ?_, ?_⟩
  · rw [frame]
    exact memory
  · rw [frame]
    exact dropped

/-- Copying data keeps the tables and the size of the memory, and what was dropped. -/
lemma copyData_keeps {data : List (DataSegment × Nat)} (refines : Updates.Refines copyData initData) :
    (applyUpdates copyData i data).1.tables = i.tables ∧
      (applyUpdates copyData i data).1.memory.length = i.memory.length ∧
      i.droppedData <+: (applyUpdates copyData i data).1.droppedData := by
  refine Updates.apply_preserves (I := fun i' : Instance =>
    i'.tables = i.tables ∧ i'.memory.length = i.memory.length ∧ i.droppedData <+: i'.droppedData) ?_
    ⟨rfl, rfl, List.prefix_refl _⟩
  rintro s ⟨seg, k⟩ s' - next ⟨tables, memory, dropped⟩
  obtain ⟨frame, size, drops⟩ := initData_frame (refines _ _ _ next)
  refine ⟨?_, size.trans memory, ?_⟩
  · rw [frame]
    exact tables
  · rcases drops with eq | eq
    · rw [eq]
      exact dropped
    · rw [eq]
      exact dropped.trans (List.prefix_append _ _)

/-- Only data segments among those copied are dropped. -/
lemma mem_droppedData {data : List (DataSegment × Nat)} {j : Nat}
    (mem : j ∈ (applyUpdates initData i data).1.droppedData) :
    j ∈ i.droppedData ∨ j ∈ data.map Prod.snd := by
  refine Updates.apply_preserves
    (I := fun i' : Instance => j ∈ i'.droppedData → j ∈ i.droppedData ∨ j ∈ data.map Prod.snd) ?_
    Or.inl mem
  rintro s ⟨seg, k⟩ s' copied next ih mem
  rcases (initData_frame next).2.2 with eq | eq
  · rw [eq] at mem
    exact ih mem
  · rw [eq, List.mem_append, List.mem_singleton] at mem
    rcases mem with mem | rfl
    · exact ih mem
    · exact .inr (List.mem_map_of_mem copied)

/-- Once the elements are copied, the data is. -/
lemma copySegments_fst {elements : List ElementSegment} {data : List DataSegment}
    (reached : applyUpdates initElement i elements.zipIdx = (i', true)) :
    (i.copySegments copyData elements data).1 = (applyUpdates copyData i' data.zipIdx).1 := by
  rw [copySegments, reached]
  dsimp only
  generalize applyUpdates copyData i' data.zipIdx = out
  obtain ⟨j, _ | _⟩ := out <;> rfl

/-- Copying segments keeps the sizes of the tables and of the memory. -/
lemma copySegments_sizes {elements : List ElementSegment} {data : List DataSegment}
    (refines : Updates.Refines copyData initData) :
    (i.copySegments copyData elements data).1.tables.map List.length = i.tables.map List.length ∧
      (i.copySegments copyData elements data).1.memory.length = i.memory.length := by
  have elementsKeep := @copyElements_keeps i elements
  cases reached : applyUpdates initElement i elements.zipIdx with
  | mk i' done =>
    rw [reached] at elementsKeep
    cases done with
    | false =>
      rw [copySegments, reached]
      exact ⟨elementsKeep.1, congrArg List.length elementsKeep.2.1⟩
    | true =>
      have dataKeep := @copyData_keeps i' copyData data.zipIdx refines
      rw [copySegments_fst reached, dataKeep.1, dataKeep.2.1]
      exact ⟨elementsKeep.1, congrArg List.length elementsKeep.2.1⟩

end Instance

/-- A memory of zeroes. -/
def zeroMemory (pages : Nat) : List Byte :=
  List.replicate (pages * N_BYTES_PER_MEMORY_PAGE) 0

/-- The value a type gives to bits. -/
def Value.ofBits (type : ValType) (bits : BitVec 64) : Option Value :=
  match type with
  | .i32 => some (.i32 (bits.setWidth 32))
  | .i64 => some (.i64 bits)
  | .f32 => some (.f32 (bits.setWidth 32))
  | .f64 => some (.f64 bits)
  | .v128 => none
  | .funcRef => some (.funcRef (bits.setWidth 32))
  | .externRef => some (.externRef (bits.setWidth 32))

/-- The reference in a value. -/
def Value.reference : Value → Option UntypedValue
  | .funcRef b | .externRef b => some b
  | _ => none

/-- The number in a value. -/
def Value.number : Value → Option UntypedValue
  | .i32 b => some b
  | _ => none

/-- The references of an element segment. -/
def ElementItems.references (globals : List Value) : ElementItems → Option (List UntypedValue)
  | functions funcs => some (funcs.map fun func => BitVec.ofNat 32 (func + 1))
  | expressions exprs => exprs.mapM fun e => (e.value globals).bind Value.reference

/-- An element segment with its offset and its references. -/
def Element.segment (globals : List Value) (e : Element) : Option ElementSegment := do
  let references ← e.items.references globals
  match e.kind with
  | .active table offset => do
    let offset ← (offset.value globals).bind Value.number
    some (.active offset table references)
  | .passive => some (.passive references)
  | .declared => some .declared

/-- A data segment with its offset. -/
def Data.segment (globals : List Value) (d : Data) : Option DataSegment :=
  match d.kind with
  | .active _ offset => do
    let offset ← (offset.value globals).bind Value.number
    some (.active offset d.data)
  | .passive => some (.passive d.data)

namespace WasmModule

variable (wasm : WasmModule) (default : BitVec 64)

/-- The values of the globals, where all imported ones have the same bits. -/
def initialGlobals : Option (List Value) := do
  let imported ← wasm.importedGlobals.mapM fun type => Value.ofBits type.contentType default
  wasm.globals.foldlM (fun vals g => do return vals ++ [← g.initExpr.value vals]) imported

/-- The number of pages of the memory. -/
def initialPages : Nat :=
  (wasm.memories.map MemoryType.initial).sum

/-- The instance before any segment is copied. -/
def allocated (globals : List Value) : Instance where
  globals := globals
  tables := wasm.tables.map fun t => List.replicate t.initial 0
  memory := zeroMemory wasm.initialPages

/-- Instantiation: the state reached, with the trap that ended it if there was one. -/
def instantiate : Option (Instance × Option TrapCode) := do
  let globals ← wasm.initialGlobals default
  let elements ← wasm.elements.mapM (Element.segment globals)
  let data ← wasm.data.mapM (Data.segment globals)
  some ((wasm.allocated globals).copySegments Instance.initData elements data)

end WasmModule

end Rwasm
