import Rwasm.Compiler.SegmentBuilder
import Rwasm.Segments.Init
import Rwasm.Vm.SegmentFlags

/-!
# `table.init`

The compiled `table.init` against the one of Wasm, for any element segments, any table and any history
of the store. The references of a module are the addresses `finalize` puts for them.
-/

namespace Rwasm

open InstructionSet

/-- A module whose element section was built from a list of segments, and then patched. -/
structure HoldsElements (m : RwasmModule) (sb : SegmentBuilder) (segs : List ElementSegment)
    (patch : UntypedValue → UntypedValue) : Prop where
  built : ∃ sb₀ : SegmentBuilder, sb₀.globalElementSection = [] ∧ sb = sb₀.processElement 0 segs
  elemSection_eq : m.elemSection = sb.globalElementSection.map patch
  /-- The binary format stores the size of the element section in 32 bits. -/
  length_lt : m.elemSection.length < 2 ^ 32

/-- The references an element segment has for Wasm: those of active, declared and dropped segments
are gone. -/
def ElementSegment.contents (segment : ElementSegment) (patch : UntypedValue → UntypedValue)
    (dropped : Prop) [Decidable dropped] : List UntypedValue :=
  match segment with
  | .active _ _ _ | .declared => []
  | .passive elements => if dropped then [] else elements.map patch

/-- Segment `i` was dropped by one of the instructions. -/
abbrev ElemDropped (past : List Opcode) (i : Nat) : Prop :=
  i + 1 ∈ past.filterMap Opcode.droppedElem

variable {T : Type} {m : RwasmModule} {host : Host T} {sb : SegmentBuilder}
  {segs : List ElementSegment} {seg : ElementSegment} {i table : Nat} {inject : Bool}
  {ops past : List Opcode} {patch : UntypedValue → UntypedValue} {e : Executor T}
  {s₀ store' : Store T} {entity : TableEntity} {n s d : UntypedValue} {stack : List UntypedValue}

/-- The code of `table.init`, by what it emits in front of the instruction. -/
lemma opTableInitChecked_eq (segment table : Nat) (length offset : UntypedValue) :
    opTableInitChecked segment table length offset inject =
      checkedPrefix True .tableOutOfBounds length offset inject TABLE_ELEMS_PER_FUEL
        TABLE_ELEMS_PER_FUEL_LOG2 ++ [.tableInit segment, .tableGet table] :=
  rfl

/-- The section `table.init` copies from. -/
def visibleElems (m : RwasmModule) (store : Store T) (segment : Nat) : List UntypedValue :=
  if store.emptyElemSegments.isEmpty segment then [] else m.elemSection

/-- The compiled `table.init` of segment `i` in a state of the machine. -/
def tableInitSite (m : RwasmModule) (segs : List ElementSegment) (i : Nat) (seg : ElementSegment)
    (patch : UntypedValue → UntypedValue) (past : List Opcode) (e : Executor T)
    (entity : TableEntity) : InitSite where
  length := BitVec.ofNat 32 seg.elements.length
  offset := seg.remembered (List.flatStart ElementSegment.elements segs i)
  checked := True
  bound := 2 ^ 32
  visible := (visibleElems m e.store (i + 1)).length
  size := entity.elements.length
  current := (seg.contents patch (ElemDropped past i)).length

/-- What the instruction itself does. -/
lemma visitTableInit_eq (segment : Nat) (fetched : e.fetchTableIndex m = some table)
    (found : e.store.tables table = some entity) (hn : e.valueStack = n :: s :: d :: stack) :
    e.visitTableInit m segment =
      if d.toNat + n.toNat ≤ entity.elements.length ∧
          s.toNat + n.toNat ≤ (visibleElems m e.store segment).length then
        .next ((({ e with valueStack := stack } : Executor T).setTable table
          ⟨entity.elements.setSlice d.toNat
            (((visibleElems m e.store segment).drop s.toNat).take n.toNat)⟩).advance 2)
      else
        .halt (.trapped .tableOutOfBounds { e with valueStack := stack }) := by
  have run : e.visitTableInit m segment =
      ({ e with valueStack := stack } : Executor T).tryTable 2 table
        (entity.initUntyped d.toNat (visibleElems m e.store segment) s.toNat n.toNat) := by
    unfold Executor.visitTableInit
    rw [fetched, hn]
    dsimp only
    rw [found]
    rfl
  rw [run, TableEntity.initUntyped]
  by_cases dst : d.toNat + n.toNat ≤ entity.elements.length
  · by_cases src : s.toNat + n.toNat ≤ (visibleElems m e.store segment).length
    · rw [if_pos ⟨dst, src⟩, List.getSlice?_eq_some dst, List.getSlice?_eq_some src]
      rfl
    · rw [if_neg (fun h => src h.2), List.getSlice?_eq_some dst,
        List.getSlice?_eq_none (Nat.lt_of_not_le src)]
      rfl
  · rw [if_neg (fun h => dst h.1), List.getSlice?_eq_none (Nat.lt_of_not_le dst)]
    rfl

/-- The executor behind a `table.init` that has copied. -/
def afterTableInit (e : Executor T) (store' : Store T) (ops : List Opcode)
    (stack : List UntypedValue) (table : Nat) (elements : List UntypedValue) : Executor T :=
  ({ e with ip := e.ip + ops.length, valueStack := stack, store := store' } : Executor T).setTable
    table ⟨elements⟩

/-- The code of `table.init` copies when it accepts the operands, and traps otherwise. -/
lemma tableInit_run (host : Host T) {offset length : UntypedValue} {segment : Nat}
    (ops_eq : ops = opTableInitChecked segment table length offset inject)
    (placed : CodeAt m.codeSection e.ip ops) (found : e.store.tables table = some entity)
    (pushed : e.valueStack = n :: s :: d :: stack)
    (charged : chargeBulk e.store inject TABLE_ELEMS_PER_FUEL TABLE_ELEMS_PER_FUEL_LOG2 n =
      some store') :
    let accepts := ¬ (True ∧ length.slt (n + s)) ∧
      d.toNat < 2 ^ 32 ∧ n.toNat < 2 ^ 32 ∧ (s + offset).toNat < 2 ^ 32 ∧
        d.toNat + n.toNat ≤ entity.elements.length ∧
        (s + offset).toNat + n.toNat ≤ (visibleElems m e.store segment).length
    (accepts → (vmWithin m host e.ip (e.ip + ops.length)).Halts e
      (.next (afterTableInit e store' ops stack table (entity.elements.setSlice d.toNat
        (((visibleElems m e.store segment).drop (s + offset).toNat).take n.toNat))))) ∧
    (¬ accepts → ∃ e', (vmWithin m host e.ip (e.ip + ops.length)).Halts e
      (.halt (.trapped .tableOutOfBounds e'))) := by
  intro accepts
  rw [opTableInitChecked_eq] at ops_eq
  subst ops_eq
  obtain ⟨fuel, rfl⟩ := chargeBulk_frame charged
  set pre := checkedPrefix True .tableOutOfBounds length offset inject TABLE_ELEMS_PER_FUEL
    TABLE_ELEMS_PER_FUEL_LOG2
  obtain ⟨init, get, -⟩ := (CodeAt.append_iff.mp placed).2
  by_cases fits : True ∧ length.slt (n + s)
  · refine ⟨fun ok => absurd fits ok.1, fun _ => ?_⟩
    exact checkedPrefix_trap pushed placed fits.1 fits.2
  · have st := checkedPrefix_pass host pushed placed fits charged
    set mid : Executor T := { e with
      valueStack := n :: (s + offset) :: d :: stack
      ip := e.ip + pre.length
      store := { e.store with consumedFuel := fuel } }
    have inside : e.ip ≤ mid.ip ∧
        mid.ip < e.ip + (pre ++ [Opcode.tableInit segment, Opcode.tableGet table]).length := by
      simp only [mid, List.length_append, List.length_cons]
      omega
    have fetched : mid.fetchTableIndex m = some table := by
      simp only [Executor.fetchTableIndex, mid]
      rw [get]
    have run := visitTableInit_eq (e := mid) segment fetched found rfl
    constructor
    · intro ok
      have after : (vmWithin m host e.ip (e.ip +
          (pre ++ [Opcode.tableInit segment, Opcode.tableGet table]).length)).Steps e
          (afterTableInit e { e.store with consumedFuel := fuel }
            (pre ++ [Opcode.tableInit segment, Opcode.tableGet table]) stack table
            (entity.elements.setSlice d.toNat
              (((visibleElems m e.store segment).drop (s + offset).toNat).take n.toNat))) := by
        refine st.trans (vmWithin_next inside init (run.trans (if_pos ok.2.2.2.2)) ?_)
        rw [afterTableInit, List.length_append]
        exact .refl
      refine after.halts (Machine.within_exit ?_)
      simp [afterTableInit, Executor.setTable]
    · intro refused
      have trapped := run.trans (if_neg fun ok =>
        refused ⟨fits, d.isLt, n.isLt, (s + offset).isLt, ok⟩)
      exact ⟨_, st.halts (vmWithin_halt inside init trapped)⟩

/-- What the builder remembers of an element segment. -/
lemma HoldsElements.elementSections (holds : HoldsElements m sb segs patch)
    (hseg : segs[i]? = some seg) :
    sb.elementSections i =
      some (seg.remembered (List.flatStart ElementSegment.elements segs i),
        BitVec.ofNat 32 seg.elements.length) := by
  obtain ⟨sb₀, empty, rfl⟩ := holds.built
  have h : (sb₀.processElement 0 segs).elementSections (0 + i) = _ :=
    SegmentBuilder.elementSections_processElement hseg
  rwa [empty, List.length_nil, Nat.zero_add, Nat.zero_add] at h

/-- The element section is the concatenation of the patched segments. -/
lemma HoldsElements.elemSection (holds : HoldsElements m sb segs patch) :
    m.elemSection = (segs.flatMap ElementSegment.elements).map patch := by
  obtain ⟨sb₀, empty, rfl⟩ := holds.built
  rw [holds.elemSection_eq, SegmentBuilder.globalElementSection_processElement, empty,
    List.nil_append]

/-- A range of the contents of a segment is found in the element section at the rewritten offset. -/
lemma HoldsElements.range_eq (holds : HoldsElements m sb segs patch) (hseg : segs[i]? = some seg)
    (flags : e.store.emptyElemSegments.isEmpty (i + 1) → ElemDropped past i)
    (range : s.toNat + n.toNat ≤ (seg.contents patch (ElemDropped past i)).length) :
    ((visibleElems m e.store (i + 1)).drop
        (s + seg.remembered (List.flatStart ElementSegment.elements segs i)).toNat).take n.toNat =
      ((seg.contents patch (ElemDropped past i)).drop s.toNat).take n.toNat := by
  by_cases zero : n.toNat = 0
  · rw [zero, List.take_zero, List.take_zero]
  cases seg with
  | active offset table elements =>
    simp only [ElementSegment.contents, List.length_nil] at range
    omega
  | declared =>
    simp only [ElementSegment.contents, List.length_nil] at range
    omega
  | passive elements =>
    by_cases dropped : ElemDropped past i
    · simp only [ElementSegment.contents, if_pos dropped, List.length_nil] at range
      omega
    · have hidden : ¬ e.store.emptyElemSegments.isEmpty (i + 1) := fun h => dropped (flags h)
      simp only [ElementSegment.contents, if_neg dropped, List.length_map] at range ⊢
      have fits := List.flatStart_add_le (f := ElementSegment.elements) hseg
      have small := holds.length_lt
      rw [holds.elemSection, List.length_map] at small
      simp only [ElementSegment.elements] at fits
      have start : (s + BitVec.ofNat 32 (List.flatStart ElementSegment.elements segs i)).toNat =
          List.flatStart ElementSegment.elements segs i + s.toNat := by
        rw [BitVec.toNat_add, BitVec.toNat_ofNat]
        omega
      rw [visibleElems, if_neg hidden, holds.elemSection, ElementSegment.remembered, start,
        ← List.map_drop, ← List.map_take, ← List.map_drop, ← List.map_take]
      exact congrArg (List.map patch) (List.take_drop_flatMap hseg range)

/-- The compiled `table.init` traps and copies exactly as Wasm does, after any history of the store
and with enough fuel for its charge, precisely when the operands are not a defect of its checks. -/
theorem tableInit_exact_iff (holds : HoldsElements m sb segs patch) (hseg : segs[i]? = some seg)
    (emitted : sb.tableInitCode i table inject = some ops)
    (placed : CodeAt m.codeSection e.ip ops) (found : e.store.tables table = some entity)
    (hist : History host s₀ past e.store) (fresh : s₀.DropsExactly [])
    (pushed : e.valueStack = n :: s :: d :: stack)
    (charged : chargeBulk e.store inject TABLE_ELEMS_PER_FUEL TABLE_ELEMS_PER_FUEL_LOG2 n =
      some store') :
    InitsLike m host e.ip (e.ip + ops.length) e
        (wasmInit entity.elements (seg.contents patch (ElemDropped past i)) d.toNat s.toNat n.toNat)
        (afterTableInit e store' ops stack table) .tableOutOfBounds ↔
      ¬ (tableInitSite m segs i seg patch past e entity).Defect d s n := by
  rw [SegmentBuilder.tableInitCode, holds.elementSections hseg, Option.map_some,
    Option.some.injEq] at emitted
  obtain ⟨copies, traps⟩ := tableInit_run host emitted.symm placed found pushed charged
  have flags : e.store.emptyElemSegments.isEmpty (i + 1) → ElemDropped past i := by
    rw [hist.flags.2]
    exact SegmentFlags.mem_of_isEmpty_dropAll fresh.2
  rw [← InitSite.accepts_iff_inRange]
  exact initsLike_iff Iff.rfl copies traps fun _ inRange =>
    holds.range_eq hseg flags inRange.1

/-- A passive segment that was not dropped has no defect, in an element section below `2 ^ 31`
references, unless the rewritten index wraps. -/
lemma tableInitSite_not_defect {elements : List UntypedValue}
    (holds : HoldsElements m sb segs patch) (hseg : segs[i]? = some (.passive elements))
    (small : m.elemSection.length < 2 ^ 31) (kept : ¬ ElemDropped past i)
    (hist : History host s₀ past e.store) (fresh : s₀.DropsExactly [])
    (hs : s.toNat + List.flatStart ElementSegment.elements segs i < 2 ^ 32) :
    ¬ (tableInitSite m segs i (.passive elements) patch past e entity).Defect d s n := by
  have fits := List.flatStart_add_le (f := ElementSegment.elements) hseg
  have total : m.elemSection.length = (segs.flatMap ElementSegment.elements).length := by
    rw [holds.elemSection, List.length_map]
  rw [← total, ElementSegment.elements] at fits
  have unflagged : ¬ e.store.emptyElemSegments.isEmpty (i + 1) := by
    rw [hist.flags.2]
    exact fun h => kept (SegmentFlags.mem_of_isEmpty_dropAll fresh.2 h)
  have len : (BitVec.ofNat 32 elements.length).toNat = elements.length := by
    rw [BitVec.toNat_ofNat]
    omega
  have start : (BitVec.ofNat 32 (List.flatStart ElementSegment.elements segs i)).toNat =
      List.flatStart ElementSegment.elements segs i := by
    rw [BitVec.toNat_ofNat]
    omega
  refine InitSite.not_defect trivial ?_ ?_ ?_ (show 2 ^ 31 ≤ 2 ^ 32 by decide) d.isLt ?_
  · simp only [tableInitSite, ElementSegment.elements, ElementSegment.contents, if_neg kept, len,
      List.length_map]
  · simp only [tableInitSite, ElementSegment.remembered, ElementSegment.contents, if_neg kept, start,
      visibleElems, if_neg unflagged, List.length_map]
    exact fits
  · simp only [tableInitSite, visibleElems, if_neg unflagged]
    exact small
  · simp only [tableInitSite, ElementSegment.remembered, start]
    exact hs

/-- A store with one table of four null references. -/
def oneTable : Store Unit :=
  { Store.new () none none with tables := fun t => if t = 0 then some ⟨[0, 0, 0, 0]⟩ else none }

/-- No segment of this store has been dropped. -/
lemma oneTable_fresh : oneTable.DropsExactly [] :=
  Store.dropsExactly_new () none none

/-- Two passive element segments. -/
def twoPassiveElems : List ElementSegment :=
  [.passive [1, 2], .passive [3]]

/-- The builder of two passive element segments. -/
def twoPassiveElemsBuilder : SegmentBuilder :=
  SegmentBuilder.processElement {} 0 twoPassiveElems

/-- The addresses of three functions. -/
def threeFunctions : UntypedValue → UntypedValue :=
  SegmentBuilder.patchElement [0, 10, 20] 50

/-- A module with two passive element segments and the code of `table.init` for the second. -/
def twoPassiveElemsModule : RwasmModule where
  codeSection := opTableInitChecked 2 0 1 2 false
  elemSection := [50, 60, 70]

/-- The module holds the two segments. -/
lemma twoPassiveElemsModule_holds :
    HoldsElements twoPassiveElemsModule twoPassiveElemsBuilder twoPassiveElems threeFunctions :=
  ⟨⟨{}, rfl, rfl⟩, rfl, by decide⟩

/-- The state before `table.init` with the operands `d`, `s` and `n`. -/
def beforeTableInit (d s n : UntypedValue) : Executor Unit :=
  { Executor.fresh oneTable 0 with valueStack := [n, s, d] }

/-- Its code is what the builder emits. -/
lemma twoPassiveElems_emitted :
    twoPassiveElemsBuilder.tableInitCode 1 0 false = some twoPassiveElemsModule.codeSection := rfl

/-- Copying the whole second segment is no defect, and happens. -/
theorem tableInit_exact_iff_second :
    InitsLike twoPassiveElemsModule Host.empty 0 13 (beforeTableInit 3 0 1)
      (wasmInit [0, 0, 0, 0] [70] 3 0 1)
      (afterTableInit (beforeTableInit 3 0 1) oneTable twoPassiveElemsModule.codeSection [] 0)
      .tableOutOfBounds := by
  refine (tableInit_exact_iff (e := beforeTableInit 3 0 1) twoPassiveElemsModule_holds (i := 1) rfl
    twoPassiveElems_emitted .self rfl .start oneTable_fresh rfl rfl).mpr ?_
  intro defect
  cases defect with
  | signedLength _ _ gt => exact absurd gt (by decide)
  | signedIndex _ past => exact absurd past (by decide)
  | hidden _ past => exact absurd past (by decide)
  | slips past _ => exact absurd past (by decide)

/-- Reading two references from index `2 ^ 32 - 2` of the second segment installs those of the first
one. -/
theorem tableInit_not_exact :
    ¬ ∀ (m : RwasmModule) (sb : SegmentBuilder) (segs : List ElementSegment)
      (patch : UntypedValue → UntypedValue) (i table : Nat) (seg : ElementSegment) (inject : Bool)
      (ops past : List Opcode) (e : Executor Unit) (s₀ store' : Store Unit) (entity : TableEntity)
      (n s d : UntypedValue) (stack : List UntypedValue),
      HoldsElements m sb segs patch → segs[i]? = some seg →
      sb.tableInitCode i table inject = some ops → CodeAt m.codeSection e.ip ops →
      e.store.tables table = some entity → History Host.empty s₀ past e.store →
      s₀.DropsExactly [] → e.valueStack = n :: s :: d :: stack →
      chargeBulk e.store inject TABLE_ELEMS_PER_FUEL TABLE_ELEMS_PER_FUEL_LOG2 n = some store' →
      InitsLike m Host.empty e.ip (e.ip + ops.length) e
        (wasmInit entity.elements (seg.contents patch (ElemDropped past i)) d.toNat s.toNat n.toNat)
        (afterTableInit e store' ops stack table) .tableOutOfBounds := by
  intro h
  have claimed := h _ _ _ _ 1 _ _ false _ _ (beforeTableInit 0 (-2) 2) _ _ _ _ _ _ _
    twoPassiveElemsModule_holds rfl twoPassiveElems_emitted .self rfl .start oneTable_fresh rfl rfl
  obtain ⟨e', trapped⟩ := claimed
  have code : twoPassiveElemsModule.codeSection = opTableInitChecked 2 0 1 2 false := rfl
  have run := tableInit_run Host.empty (m := twoPassiveElemsModule) (e := beforeTableInit 0 (-2) 2)
    code .self rfl rfl rfl
  have copied := run.1 ⟨by decide, by decide, by decide, by decide, by decide, by decide⟩
  cases trapped.unique copied

end Rwasm
