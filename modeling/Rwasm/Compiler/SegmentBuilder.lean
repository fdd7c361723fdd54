import Rwasm.Isa.Bulk
import Rwasm.Vm.Executor
import Rwasm.Wasm.Module

/-!
# The segment builder

The entrypoint code and the merged data and element sections (`compiler/segment_builder.rs`). Every
segment is appended to its section. For a passive segment the builder remembers where the section
holds it, for an active one where it is copied to; both next to the length.
-/

namespace Rwasm

open Opcode

/-- A data segment of the source module (`wasmparser::Data`); the offset of an active one is
evaluated. -/
inductive DataSegment where
  | active (offset : UntypedValue) (bytes : List Byte)
  | passive (bytes : List Byte)
  deriving DecidableEq

/-- An element segment of the source module (`wasmparser::Element`): function `f` is `f + 1`, and
the null reference is `0`. -/
inductive ElementSegment where
  | active (offset : UntypedValue) (table : Nat) (elements : List UntypedValue)
  | passive (elements : List UntypedValue)
  | declared
  deriving DecidableEq

/-- The bytes of a data segment. -/
def DataSegment.bytes : DataSegment → List Byte
  | active _ bytes | passive bytes => bytes

/-- The references an element segment contributes. -/
def ElementSegment.elements : ElementSegment → List UntypedValue
  | active _ _ elements | passive elements => elements
  | declared => []

/-- The offset remembered for a data segment whose bytes begin at `start`. -/
def DataSegment.remembered (segment : DataSegment) (start : Nat) : UntypedValue :=
  match segment with
  | .active offset _ => offset
  | .passive _ => BitVec.ofNat 32 start

/-- The offset remembered for an element segment whose references begin at `start`. -/
def ElementSegment.remembered (segment : ElementSegment) (start : Nat) : UntypedValue :=
  match segment with
  | .active offset _ _ => offset
  | .passive _ | .declared => BitVec.ofNat 32 start

/-- The type of a global (`GlobalVariable`), with its initial bits. -/
structure GlobalVariable extends GlobalType where
  defaultValue : BitVec 64

/-- The builder (`SegmentBuilder`). -/
structure SegmentBuilder where
  globalMemorySection : List Byte := []
  memorySections : Nat → Option (UntypedValue × UntypedValue) := fun _ => none
  globalElementSection : List UntypedValue := []
  elementSections : Nat → Option (UntypedValue × UntypedValue) := fun _ => none
  totalAllocatedPages : Nat := 0
  entrypointBytecode : List Opcode := [stackCheck 5]

namespace SegmentBuilder

/-- The builder with more entrypoint code. -/
def emit (sb : SegmentBuilder) (ops : List Opcode) : SegmentBuilder :=
  { sb with entrypointBytecode := sb.entrypointBytecode ++ ops }

/-- `add_global_variable`. -/
def addGlobalVariable (sb : SegmentBuilder) (idx : Nat) (global : GlobalVariable) :
    Option SegmentBuilder :=
  let value := global.defaultValue
  match global.contentType with
  | .i32 | .f32 => some (sb.emit [i32Const (value.setWidth 32), globalSet (idx * 2)])
  | .i64 | .f64 =>
    some (sb.emit [i32Const (splitIntoI32Tuple value).1, i32Const (splitIntoI32Tuple value).2,
      globalSet (idx * 2), globalSet (idx * 2 + 1)])
  | .funcRef | .externRef =>
    some (sb.emit [refFunc (value.setWidth 32 : UntypedValue).toNat, globalSet (idx * 2)])
  | .v128 => none

/-- `add_memory_pages`. -/
def addMemoryPages (sb : SegmentBuilder) (initialPages maxAllowedMemoryPages : Nat) :
    Option SegmentBuilder :=
  let nextPages := min (sb.totalAllocatedPages + initialPages) (2 ^ 32 - 1)
  if maxAllowedMemoryPages ≤ nextPages then
    none
  else
    let sb :=
      if 0 < initialPages then
        sb.emit ([i32Const (BitVec.ofNat 32 initialPages)] ++
          InstructionSet.opMemoryGrowChecked none false ++ [drop])
      else sb
    some { sb with totalAllocatedPages := nextPages }

/-- `emit_table_segment`. -/
def emitTableSegment (sb : SegmentBuilder) (table initial : Nat) : SegmentBuilder :=
  sb.emit [refFunc 0, i32Const (BitVec.ofNat 32 initial), tableGrow table, drop]

/-- Whether an active segment ends past the allocated pages; an overflow of the computation counts
as no. -/
def hasMemoryOverflow (sb : SegmentBuilder) (offset : UntypedValue) (length : Nat) : Bool :=
  let last := offset.toNat + length % 2 ^ 32
  decide (last + 65535 < 2 ^ 32 ∧ sb.totalAllocatedPages < (last + 65535) / 65536)

/-- `add_active_memory`. -/
def addActiveMemory (sb : SegmentBuilder) (segment : Nat) (offset : UntypedValue)
    (bytes : List Byte) : SegmentBuilder :=
  let dataOffset := sb.globalMemorySection.length
  let dataLength := bytes.length
  { sb.emit
      [i32Const offset, i32Const (BitVec.ofNat 32 dataOffset),
        i32Const (if sb.hasMemoryOverflow offset dataLength then -1
          else BitVec.ofNat 32 dataLength),
        memoryInit 0, dataDrop (segment + 1)] with
    globalMemorySection := sb.globalMemorySection ++ bytes
    memorySections :=
      Function.update sb.memorySections segment (some (offset, BitVec.ofNat 32 dataLength)) }

/-- `add_passive_memory`. -/
def addPassiveMemory (sb : SegmentBuilder) (segment : Nat) (bytes : List Byte) : SegmentBuilder :=
  { sb with
    globalMemorySection := sb.globalMemorySection ++ bytes
    memorySections :=
      Function.update sb.memorySections segment
        (some (BitVec.ofNat 32 sb.globalMemorySection.length, BitVec.ofNat 32 bytes.length)) }

/-- `add_active_elements`. -/
def addActiveElements (sb : SegmentBuilder) (segment : Nat) (offset : UntypedValue) (table : Nat)
    (elements : List UntypedValue) : SegmentBuilder :=
  let segmentOffset := sb.globalElementSection.length
  let segmentLength := elements.length
  { sb.emit
      [i32Const offset, i32Const (BitVec.ofNat 32 segmentOffset),
        i32Const (BitVec.ofNat 32 segmentLength), tableInit (segment + 1), tableGet table,
        elemDrop (segment + 1)] with
    globalElementSection := sb.globalElementSection ++ elements
    elementSections :=
      Function.update sb.elementSections segment (some (offset, BitVec.ofNat 32 segmentLength)) }

/-- `add_passive_elements`. -/
def addPassiveElements (sb : SegmentBuilder) (segment : Nat) (elements : List UntypedValue) :
    SegmentBuilder :=
  { sb with
    globalElementSection := sb.globalElementSection ++ elements
    elementSections :=
      Function.update sb.elementSections segment
        (some (BitVec.ofNat 32 sb.globalElementSection.length,
          BitVec.ofNat 32 elements.length)) }

/-- One data segment of `process_data`. -/
def addData (sb : SegmentBuilder) (segment : Nat) : DataSegment → SegmentBuilder
  | .active offset bytes => sb.addActiveMemory segment offset bytes
  | .passive bytes => sb.addPassiveMemory segment bytes

/-- One element segment of `process_element`. -/
def addElement (sb : SegmentBuilder) (segment : Nat) : ElementSegment → SegmentBuilder
  | .active offset table elements => sb.addActiveElements segment offset table elements
  | .passive elements => sb.addPassiveElements segment elements
  | .declared => sb.addPassiveElements segment []

/-- `process_data`, from the segment with index `first` on. -/
def processData (sb : SegmentBuilder) (first : Nat) : List DataSegment → SegmentBuilder
  | [] => sb
  | segment :: segments => (sb.addData first segment).processData (first + 1) segments

/-- `process_element`, from the segment with index `first` on. -/
def processElement (sb : SegmentBuilder) (first : Nat) : List ElementSegment → SegmentBuilder
  | [] => sb
  | segment :: segments => (sb.addElement first segment).processElement (first + 1) segments

/-- The code emitted for `memory.init` (`visit_memory_init`). -/
def memoryInitCode (sb : SegmentBuilder) (segment : Nat) (injectFuelCheck : Bool) :
    Option (List Opcode) :=
  (sb.memorySections segment).map fun (offset, length) =>
    InstructionSet.opMemoryInitChecked (some offset) (some length) (segment + 1) injectFuelCheck

/-- The code emitted for `table.init` (`visit_table_init`). -/
def tableInitCode (sb : SegmentBuilder) (segment table : Nat) (injectFuelCheck : Bool) :
    Option (List Opcode) :=
  (sb.elementSections segment).map fun (offset, length) =>
    InstructionSet.opTableInitChecked (segment + 1) table length offset injectFuelCheck

/-- The address `finalize` replaces a function reference with; the null reference stays. -/
def patchElement (funcOffsets : List Nat) (entrypointLength : Nat) (elem : UntypedValue) :
    UntypedValue :=
  if 0 < elem then BitVec.ofNat 32 (funcOffsets.getD (elem.toNat - 1) 0 + entrypointLength) else elem

variable {sb : SegmentBuilder} {first i : Nat}

/-- The data section holds the bytes of all segments, in order. -/
lemma globalMemorySection_processData {segs : List DataSegment} :
    (sb.processData first segs).globalMemorySection =
      sb.globalMemorySection ++ segs.flatMap DataSegment.bytes := by
  induction segs generalizing sb first with
  | nil => simp [processData]
  | cons seg segs ih =>
    rw [processData, ih]
    cases seg <;> simp [addData, addActiveMemory, addPassiveMemory, emit, DataSegment.bytes]

/-- Later segments leave what is remembered of earlier ones. -/
lemma memorySections_of_lt {segs : List DataSegment} (lt : i < first) :
    (sb.processData first segs).memorySections i = sb.memorySections i := by
  induction segs generalizing sb first with
  | nil => rfl
  | cons seg segs ih =>
    rw [processData, ih (by omega)]
    cases seg <;>
      simp [addData, addActiveMemory, addPassiveMemory, emit, Function.update_of_ne (Nat.ne_of_lt lt)]

/-- What is remembered of each data segment. -/
lemma memorySections_processData {segs : List DataSegment} {seg} (hseg : segs[i]? = some seg) :
    (sb.processData first segs).memorySections (first + i) =
      some (seg.remembered (sb.globalMemorySection.length + List.flatStart DataSegment.bytes segs i),
        BitVec.ofNat 32 seg.bytes.length) := by
  induction segs generalizing sb first i with
  | nil => simp at hseg
  | cons seg' segs ih =>
    cases i with
    | zero =>
      cases hseg
      rw [processData, memorySections_of_lt (by omega)]
      cases seg <;>
        simp [addData, addActiveMemory, addPassiveMemory, emit, DataSegment.remembered,
          DataSegment.bytes, List.flatStart]
    | succ i =>
      have e : first + (i + 1) = first + 1 + i := by omega
      have start : (sb.addData first seg').globalMemorySection.length +
          List.flatStart DataSegment.bytes segs i =
          sb.globalMemorySection.length + List.flatStart DataSegment.bytes (seg' :: segs) (i + 1) := by
        cases seg' <;>
          simp [addData, addActiveMemory, addPassiveMemory, emit, List.flatStart, DataSegment.bytes,
            Nat.add_assoc]
      rw [processData, e, ih hseg, start]

/-- The element section holds the references of all segments, in order. -/
lemma globalElementSection_processElement {segs : List ElementSegment} :
    (sb.processElement first segs).globalElementSection =
      sb.globalElementSection ++ segs.flatMap ElementSegment.elements := by
  induction segs generalizing sb first with
  | nil => simp [processElement]
  | cons seg segs ih =>
    rw [processElement, ih]
    cases seg <;>
      simp [addElement, addActiveElements, addPassiveElements, emit, ElementSegment.elements]

/-- Later segments leave what is remembered of earlier ones. -/
lemma elementSections_of_lt {segs : List ElementSegment} (lt : i < first) :
    (sb.processElement first segs).elementSections i = sb.elementSections i := by
  induction segs generalizing sb first with
  | nil => rfl
  | cons seg segs ih =>
    rw [processElement, ih (by omega)]
    cases seg <;>
      simp [addElement, addActiveElements, addPassiveElements, emit,
        Function.update_of_ne (Nat.ne_of_lt lt)]

/-- What is remembered of each element segment. -/
lemma elementSections_processElement {segs : List ElementSegment} {seg}
    (hseg : segs[i]? = some seg) :
    (sb.processElement first segs).elementSections (first + i) =
      some (seg.remembered
          (sb.globalElementSection.length + List.flatStart ElementSegment.elements segs i),
        BitVec.ofNat 32 seg.elements.length) := by
  induction segs generalizing sb first i with
  | nil => simp at hseg
  | cons seg' segs ih =>
    cases i with
    | zero =>
      cases hseg
      rw [processElement, elementSections_of_lt (by omega)]
      cases seg <;>
        simp [addElement, addActiveElements, addPassiveElements, emit, ElementSegment.remembered,
          ElementSegment.elements, List.flatStart]
    | succ i =>
      have e : first + (i + 1) = first + 1 + i := by omega
      have start : (sb.addElement first seg').globalElementSection.length +
          List.flatStart ElementSegment.elements segs i =
          sb.globalElementSection.length +
            List.flatStart ElementSegment.elements (seg' :: segs) (i + 1) := by
        cases seg' <;>
          simp [addElement, addActiveElements, addPassiveElements, emit, List.flatStart,
            ElementSegment.elements, Nat.add_assoc]
      rw [processElement, e, ih hseg, start]

end SegmentBuilder

end Rwasm
