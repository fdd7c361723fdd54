import Rwasm.Compiler.SegmentBuilder
import Rwasm.Segments.Init
import Rwasm.Vm.BulkMemory
import Rwasm.Vm.SegmentFlags

/-!
# `memory.init`

The compiled `memory.init` against the one of Wasm, for any data segments and any history of the store.
-/

namespace Rwasm

open InstructionSet

/-- A module whose data section was built from a list of segments. -/
structure HoldsData (m : RwasmModule) (sb : SegmentBuilder) (segs : List DataSegment) : Prop where
  built : ∃ sb₀ : SegmentBuilder, sb₀.globalMemorySection = [] ∧ sb = sb₀.processData 0 segs
  dataSection_eq : m.dataSection = sb.globalMemorySection
  /-- The binary format stores the size of the data section in 32 bits. -/
  length_lt : m.dataSection.length < 2 ^ 32

/-- The bytes a data segment has for Wasm: those of active and of dropped segments are gone. -/
def DataSegment.contents (segment : DataSegment) (dropped : Prop) [Decidable dropped] :
    List Byte :=
  match segment with
  | .active _ _ => []
  | .passive bytes => if dropped then [] else bytes

/-- Segment `i` was dropped by one of the instructions. -/
abbrev DataDropped (past : List Opcode) (i : Nat) : Prop :=
  i + 1 ∈ past.filterMap Opcode.droppedData

variable {T : Type} {m : RwasmModule} {host : Host T} {sb : SegmentBuilder}
  {segs : List DataSegment} {seg : DataSegment} {i : Nat} {inject : Bool} {ops past : List Opcode}
  {e : Executor T} {s₀ store' : Store T} {n s d : UntypedValue} {stack : List UntypedValue}

/-- The code of `memory.init`, by what it emits in front of the instruction. -/
lemma opMemoryInitChecked_eq (offset length : UntypedValue) (segment : Nat) :
    opMemoryInitChecked (some offset) (some length) segment inject =
      checkedPrefix (0 < length) .memoryOutOfBounds length offset inject MEMORY_BYTES_PER_FUEL
        MEMORY_BYTES_PER_FUEL_LOG2 ++ [.memoryInit segment] := by
  unfold opMemoryInitChecked checkedPrefix
  congr 1
  by_cases pos : (0 : UntypedValue) < length
  · simp only [Option.filter, decide_eq_true pos, if_true, if_pos pos]
  · simp only [Option.filter, decide_eq_false pos, Bool.false_eq_true, if_false, if_neg pos]

/-- The section `memory.init` copies from. -/
def visibleData (m : RwasmModule) (store : Store T) (segment : Nat) : List Byte :=
  if store.emptyDataSegments.isEmpty segment then [] else m.dataSection

/-- The compiled `memory.init` of segment `i` in a state of the machine. -/
def memoryInitSite (m : RwasmModule) (segs : List DataSegment) (i : Nat) (seg : DataSegment)
    (past : List Opcode) (e : Executor T) : InitSite where
  length := BitVec.ofNat 32 seg.bytes.length
  offset := seg.remembered (List.flatStart DataSegment.bytes segs i)
  checked := (0 : UntypedValue) < BitVec.ofNat 32 seg.bytes.length
  bound := 2 ^ 31
  visible := (visibleData m e.store (i + 1)).length
  size := e.data.length
  current := (seg.contents (DataDropped past i)).length

/-- What the instruction itself does: it reads its three indices as signed numbers. -/
lemma visitMemoryInit_eq (segment : Nat) (hn : e.valueStack = n :: s :: d :: stack)
    (small : m.dataSection.length < 2 ^ 32) (hmem : e.data.length ≤ 2 ^ 31) :
    e.visitMemoryInit m segment =
      if d.toNat < 2 ^ 31 ∧ n.toNat < 2 ^ 31 ∧ s.toNat < 2 ^ 31 ∧
          d.toNat + n.toNat ≤ e.data.length ∧
          s.toNat + n.toNat ≤ (visibleData m e.store segment).length then
        .next ((({ e with valueStack := stack } : Executor T).setData
          (e.data.setSlice d.toNat
            (((visibleData m e.store segment).drop s.toNat).take n.toNat))).advance 1)
      else
        .halt (.trapped .memoryOutOfBounds { e with valueStack := stack }) := by
  have visible : (visibleData m e.store segment).length < 2 ^ 32 := by
    unfold visibleData
    split
    · simp
    · exact small
  have dst := getSlice?_asI32Usize d n (l := e.data) (by omega)
  have src := getSlice?_asI32Usize s n visible
  have source : (if e.store.emptyDataSegments.isEmpty segment then [] else m.dataSection) =
      visibleData m e.store segment := rfl
  have popped : ({ e with valueStack := stack } : Executor T).data = e.data := rfl
  simp only [Executor.visitMemoryInit, hn, source, popped]
  split_ifs with h
  · obtain ⟨hd, hn', hs, le, le'⟩ := h
    have ed : d.asI32Usize = d.toNat := by rw [UntypedValue.asI32Usize_eq, if_pos hd]
    rw [dst, src, if_pos ⟨hd, hn'⟩, if_pos ⟨hs, hn'⟩, List.getSlice?_eq_some le,
      List.getSlice?_eq_some le', ed]
  · have missing : e.data.getSlice? d.asI32Usize n.asI32Usize = none ∨
        (visibleData m e.store segment).getSlice? s.asI32Usize n.asI32Usize = none := by
      rw [dst, src]
      by_cases hd : d.toNat < 2 ^ 31 ∧ n.toNat < 2 ^ 31
      · rw [if_pos hd]
        by_cases le : d.toNat + n.toNat ≤ e.data.length
        · refine .inr ?_
          split_ifs with hs
          · exact List.getSlice?_eq_none (by by_contra le'; exact h ⟨hd.1, hd.2, hs.1, le, by omega⟩)
          · rfl
        · exact .inl (List.getSlice?_eq_none (by omega))
      · exact .inl (if_neg hd)
    rcases missing with none | none
    · rw [none]
    · rw [none]
      split
      · contradiction
      · rfl

/-- The executor behind a `memory.init` that has copied. -/
def afterMemoryInit (e : Executor T) (store' : Store T) (ops : List Opcode)
    (stack : List UntypedValue) (data : List Byte) : Executor T :=
  ({ e with ip := e.ip + ops.length, valueStack := stack, store := store' } : Executor T).setData data

/-- The code of `memory.init` copies when it accepts the operands, and traps otherwise. -/
lemma memoryInit_run (host : Host T) {offset length : UntypedValue} {segment : Nat}
    (ops_eq : ops = opMemoryInitChecked (some offset) (some length) segment inject)
    (placed : CodeAt m.codeSection e.ip ops) (small : m.dataSection.length < 2 ^ 32)
    (bounded : e.data.length ≤ 2 ^ 31) (pushed : e.valueStack = n :: s :: d :: stack)
    (charged : chargeBulk e.store inject MEMORY_BYTES_PER_FUEL MEMORY_BYTES_PER_FUEL_LOG2 n =
      some store') :
    let accepts := ¬ ((0 : UntypedValue) < length ∧ length.slt (n + s)) ∧
      d.toNat < 2 ^ 31 ∧ n.toNat < 2 ^ 31 ∧ (s + offset).toNat < 2 ^ 31 ∧
        d.toNat + n.toNat ≤ e.data.length ∧
        (s + offset).toNat + n.toNat ≤ (visibleData m e.store segment).length
    (accepts → (vmWithin m host e.ip (e.ip + ops.length)).Halts e
      (.next (afterMemoryInit e store' ops stack (e.data.setSlice d.toNat
        (((visibleData m e.store segment).drop (s + offset).toNat).take n.toNat))))) ∧
    (¬ accepts → ∃ e', (vmWithin m host e.ip (e.ip + ops.length)).Halts e
      (.halt (.trapped .memoryOutOfBounds e'))) := by
  intro accepts
  rw [opMemoryInitChecked_eq] at ops_eq
  subst ops_eq
  obtain ⟨fuel, rfl⟩ := chargeBulk_frame charged
  set pre := checkedPrefix (0 < length) .memoryOutOfBounds length offset inject
    MEMORY_BYTES_PER_FUEL MEMORY_BYTES_PER_FUEL_LOG2
  have found : m.codeSection[e.ip + pre.length]? = some (.memoryInit segment) :=
    (CodeAt.append_iff.mp placed).2.1
  by_cases fits : (0 : UntypedValue) < length ∧ length.slt (n + s)
  · refine ⟨fun ok => absurd fits ok.1, fun _ => ?_⟩
    exact checkedPrefix_trap pushed placed fits.1 fits.2
  · have st := checkedPrefix_pass host pushed placed fits charged
    set mid : Executor T := { e with
      valueStack := n :: (s + offset) :: d :: stack
      ip := e.ip + pre.length
      store := { e.store with consumedFuel := fuel } }
    have inside : e.ip ≤ mid.ip ∧ mid.ip < e.ip + (pre ++ [Opcode.memoryInit segment]).length := by
      simp only [mid, List.length_append, List.length_singleton]
      omega
    have run := visitMemoryInit_eq (e := mid) segment rfl small bounded
    constructor
    · intro ok
      have after : (vmWithin m host e.ip (e.ip + (pre ++ [Opcode.memoryInit segment]).length)).Steps e
          (afterMemoryInit e { e.store with consumedFuel := fuel }
            (pre ++ [Opcode.memoryInit segment]) stack
            (e.data.setSlice d.toNat
              (((visibleData m e.store segment).drop (s + offset).toNat).take n.toNat))) := by
        refine st.trans (vmWithin_next inside found (run.trans (if_pos ok.2)) ?_)
        rw [afterMemoryInit, List.length_append]
        exact .refl
      refine after.halts (Machine.within_exit ?_)
      simp [afterMemoryInit, Executor.setData]
    · intro refused
      have trapped := run.trans (if_neg fun ok => refused ⟨fits, ok⟩)
      exact ⟨_, st.halts (vmWithin_halt inside found trapped)⟩

/-- What the builder remembers of a data segment. -/
lemma HoldsData.memorySections (holds : HoldsData m sb segs) (hseg : segs[i]? = some seg) :
    sb.memorySections i =
      some (seg.remembered (List.flatStart DataSegment.bytes segs i),
        BitVec.ofNat 32 seg.bytes.length) := by
  obtain ⟨sb₀, empty, rfl⟩ := holds.built
  have h : (sb₀.processData 0 segs).memorySections (0 + i) = _ :=
    SegmentBuilder.memorySections_processData hseg
  rwa [empty, List.length_nil, Nat.zero_add, Nat.zero_add] at h

/-- The data section is the concatenation of the segments. -/
lemma HoldsData.dataSection (holds : HoldsData m sb segs) :
    m.dataSection = segs.flatMap DataSegment.bytes := by
  obtain ⟨sb₀, empty, rfl⟩ := holds.built
  rw [holds.dataSection_eq, SegmentBuilder.globalMemorySection_processData, empty,
    List.nil_append]

/-- A range of the contents of a segment is found in the data section at the rewritten offset. -/
lemma HoldsData.range_eq (holds : HoldsData m sb segs) (hseg : segs[i]? = some seg)
    (flags : e.store.emptyDataSegments.isEmpty (i + 1) → DataDropped past i)
    (range : s.toNat + n.toNat ≤ (seg.contents (DataDropped past i)).length) :
    ((visibleData m e.store (i + 1)).drop
        (s + seg.remembered (List.flatStart DataSegment.bytes segs i)).toNat).take n.toNat =
      ((seg.contents (DataDropped past i)).drop s.toNat).take n.toNat := by
  by_cases zero : n.toNat = 0
  · rw [zero, List.take_zero, List.take_zero]
  cases seg with
  | active offset bytes =>
    simp only [DataSegment.contents, List.length_nil] at range
    omega
  | passive bytes =>
    by_cases dropped : DataDropped past i
    · simp only [DataSegment.contents, if_pos dropped, List.length_nil] at range
      omega
    · have hidden : ¬ e.store.emptyDataSegments.isEmpty (i + 1) := fun h => dropped (flags h)
      simp only [DataSegment.contents, if_neg dropped] at range ⊢
      have fits := List.flatStart_add_le (f := DataSegment.bytes) hseg
      have small := holds.length_lt
      rw [holds.dataSection] at small
      simp only [DataSegment.bytes] at fits
      have start : (s + BitVec.ofNat 32 (List.flatStart DataSegment.bytes segs i)).toNat =
          List.flatStart DataSegment.bytes segs i + s.toNat := by
        rw [BitVec.toNat_add, BitVec.toNat_ofNat]
        omega
      rw [visibleData, if_neg hidden, holds.dataSection, DataSegment.remembered, start]
      exact List.take_drop_flatMap hseg range

/-- The compiled `memory.init` traps and copies exactly as Wasm does, after any history of the store
and with enough fuel for its charge, precisely when the operands are not a defect of its checks. -/
theorem memoryInit_exact_iff (holds : HoldsData m sb segs) (hseg : segs[i]? = some seg)
    (emitted : sb.memoryInitCode i inject = some ops) (placed : CodeAt m.codeSection e.ip ops)
    (hist : History host s₀ past e.store) (fresh : s₀.DropsExactly [])
    (bounded : s₀.globalMemory.Bounded) (pushed : e.valueStack = n :: s :: d :: stack)
    (charged : chargeBulk e.store inject MEMORY_BYTES_PER_FUEL MEMORY_BYTES_PER_FUEL_LOG2 n =
      some store') :
    InitsLike m host e.ip (e.ip + ops.length) e
        (wasmInit e.data (seg.contents (DataDropped past i)) d.toNat s.toNat n.toNat)
        (afterMemoryInit e store' ops stack) .memoryOutOfBounds ↔
      ¬ (memoryInitSite m segs i seg past e).Defect d s n := by
  rw [SegmentBuilder.memoryInitCode, holds.memorySections hseg, Option.map_some,
    Option.some.injEq] at emitted
  obtain ⟨copies, traps⟩ := memoryInit_run host emitted.symm placed holds.length_lt
    (hist.bounded bounded).length_le_two_pow pushed charged
  have flags : e.store.emptyDataSegments.isEmpty (i + 1) → DataDropped past i := by
    rw [hist.flags.1]
    exact SegmentFlags.mem_of_isEmpty_dropAll fresh.1
  rw [← InitSite.accepts_iff_inRange]
  exact initsLike_iff Iff.rfl copies traps fun _ inRange =>
    holds.range_eq hseg flags inRange.1

/-- A non-empty passive segment that was not dropped has no defect, in a data section below `2 ^ 31`
bytes, unless the destination is `2 ^ 31` or the rewritten index wraps. -/
lemma memoryInitSite_not_defect {bytes : List Byte} (holds : HoldsData m sb segs)
    (hseg : segs[i]? = some (.passive bytes)) (nonempty : bytes ≠ [])
    (small : m.dataSection.length < 2 ^ 31) (kept : ¬ DataDropped past i)
    (hist : History host s₀ past e.store) (fresh : s₀.DropsExactly []) (hd : d.toNat < 2 ^ 31)
    (hs : s.toNat + List.flatStart DataSegment.bytes segs i < 2 ^ 32) :
    ¬ (memoryInitSite m segs i (.passive bytes) past e).Defect d s n := by
  have fits := List.flatStart_add_le (f := DataSegment.bytes) hseg
  rw [← holds.dataSection, DataSegment.bytes] at fits
  have unflagged : ¬ e.store.emptyDataSegments.isEmpty (i + 1) := by
    rw [hist.flags.1]
    exact fun h => kept (SegmentFlags.mem_of_isEmpty_dropAll fresh.1 h)
  have pos : 0 < bytes.length := List.length_pos_iff.mpr nonempty
  have len : (BitVec.ofNat 32 bytes.length).toNat = bytes.length := by
    rw [BitVec.toNat_ofNat]
    omega
  have start : (BitVec.ofNat 32 (List.flatStart DataSegment.bytes segs i)).toNat =
      List.flatStart DataSegment.bytes segs i := by
    rw [BitVec.toNat_ofNat]
    omega
  refine InitSite.not_defect ?_ ?_ ?_ ?_ (Nat.le_refl _) hd ?_
  · simp only [memoryInitSite, DataSegment.bytes, BitVec.lt_def, len]
    exact pos
  · simp only [memoryInitSite, DataSegment.bytes, DataSegment.contents, if_neg kept, len]
  · simp only [memoryInitSite, DataSegment.remembered, DataSegment.contents, if_neg kept, start,
      visibleData, if_neg unflagged]
    exact fits
  · simp only [memoryInitSite, visibleData, if_neg unflagged]
    exact small
  · simp only [memoryInitSite, DataSegment.remembered, start]
    exact hs

/-- A page of zeros. -/
@[irreducible] def zeroPage : List Byte :=
  List.replicate N_BYTES_PER_MEMORY_PAGE 0

/-- The length of a page. -/
lemma zeroPage_length : zeroPage.length = N_BYTES_PER_MEMORY_PAGE := by
  rw [zeroPage, List.length_replicate]

/-- A store with one page of memory. -/
def onePage : Store Unit :=
  { Store.new () none none with globalMemory := ⟨zeroPage, 1, 1024⟩ }

/-- The memory of one page is within its bounds. -/
lemma onePage_bounded : onePage.globalMemory.Bounded :=
  ⟨by simp only [onePage, zeroPage_length]; decide, by decide⟩

/-- No segment of this store has been dropped. -/
lemma onePage_fresh : onePage.DropsExactly [] :=
  Store.dropsExactly_new () none none

/-- Two passive data segments. -/
def twoPassive : List DataSegment :=
  [.passive [1, 2, 3, 4], .passive [9]]

/-- The builder of two passive data segments. -/
def twoPassiveBuilder : SegmentBuilder :=
  SegmentBuilder.processData {} 0 twoPassive

/-- A module with two passive data segments and the code of `memory.init` for the second. -/
def twoPassiveModule : RwasmModule where
  codeSection := opMemoryInitChecked (some 4) (some 1) 2 false
  dataSection := [1, 2, 3, 4, 9]

/-- The module holds the two segments. -/
lemma twoPassiveModule_holds : HoldsData twoPassiveModule twoPassiveBuilder twoPassive :=
  ⟨⟨{}, rfl, rfl⟩, rfl, by decide⟩

/-- The state before `memory.init` with the operands `d`, `s` and `n`. -/
def beforeInit (d s n : UntypedValue) : Executor Unit :=
  { Executor.fresh onePage 0 with valueStack := [n, s, d] }

/-- Its code is what the builder emits. -/
lemma twoPassive_emitted :
    twoPassiveBuilder.memoryInitCode 1 false = some twoPassiveModule.codeSection := rfl

/-- Copying the whole second segment is no defect, and happens. -/
theorem memoryInit_exact_iff_second :
    InitsLike twoPassiveModule Host.empty 0 12 (beforeInit 0 0 1)
      (wasmInit zeroPage [9] 0 0 1)
      (afterMemoryInit (beforeInit 0 0 1) onePage twoPassiveModule.codeSection [])
      .memoryOutOfBounds := by
  refine (memoryInit_exact_iff (e := beforeInit 0 0 1) twoPassiveModule_holds (i := 1) rfl
    twoPassive_emitted .self .start onePage_fresh onePage_bounded rfl rfl).mpr ?_
  intro defect
  cases defect with
  | signedLength _ _ gt => exact absurd gt (by decide)
  | signedIndex _ past => exact absurd past (by decide)
  | hidden _ past => exact absurd past (by decide)
  | slips past _ => exact absurd past (by decide)

/-- Reading four bytes from index `2 ^ 32 - 4` of the second segment copies the first one. -/
theorem memoryInit_not_exact :
    ¬ ∀ (m : RwasmModule) (sb : SegmentBuilder) (segs : List DataSegment) (i : Nat)
      (seg : DataSegment) (inject : Bool) (ops past : List Opcode) (e : Executor Unit)
      (s₀ store' : Store Unit) (n s d : UntypedValue) (stack : List UntypedValue),
      HoldsData m sb segs → segs[i]? = some seg → sb.memoryInitCode i inject = some ops →
      CodeAt m.codeSection e.ip ops → History Host.empty s₀ past e.store → s₀.DropsExactly [] →
      s₀.globalMemory.Bounded → e.valueStack = n :: s :: d :: stack →
      chargeBulk e.store inject MEMORY_BYTES_PER_FUEL MEMORY_BYTES_PER_FUEL_LOG2 n = some store' →
      InitsLike m Host.empty e.ip (e.ip + ops.length) e
        (wasmInit e.data (seg.contents (DataDropped past i)) d.toNat s.toNat n.toNat)
        (afterMemoryInit e store' ops stack) .memoryOutOfBounds := by
  intro h
  have claimed := h _ _ _ 1 _ false _ _ (beforeInit 0 (-4) 4) _ _ _ _ _ _ twoPassiveModule_holds rfl
    twoPassive_emitted .self .start onePage_fresh onePage_bounded rfl rfl
  obtain ⟨e', trapped⟩ := claimed
  have code : twoPassiveModule.codeSection = opMemoryInitChecked (some 4) (some 1) 2 false := rfl
  have run := memoryInit_run Host.empty (m := twoPassiveModule) (e := beforeInit 0 (-4) 4) code .self
    (by decide) onePage_bounded.length_le_two_pow rfl rfl
  have room : (4 : Nat) ≤ zeroPage.length := by rw [zeroPage_length]; decide
  have copied := run.1 ⟨by decide, by decide, by decide, by decide, room, by decide⟩
  cases trapped.unique copied

end Rwasm
