import Rwasm.Vm.History

/-!
# `table.get`, `table.set`, `table.fill` and `table.copy`

The accesses to tables against their meaning in Wasm. A copy within one table and one between two
tables check their bounds in two ways; both are measured against the tables as they were before.
-/

namespace Rwasm

/-- No table has more elements than a table can have. -/
def Store.Limited {T : Type} (store : Store T) : Prop :=
  ∀ table entity, store.tables table = some entity → entity.size ≤ N_MAX_TABLE_SIZE

section History

variable {T : Type} {m : RwasmModule} {host : Host T} {e e' : Executor T} {op : Opcode}
  {s t : Store T} {ops : List Opcode}

namespace TableEntity

variable {table table' source : TableEntity} {dst src len : Nat} {val : UntypedValue}
  {element : List UntypedValue} {code : TrapCode}

/-- A grown table is limited when the old one was. -/
lemma size_growUntyped (le : table.size ≤ N_MAX_TABLE_SIZE) (delta : Nat) (init : UntypedValue) :
    (table.growUntyped delta init).2.size ≤ N_MAX_TABLE_SIZE := by
  unfold growUntyped
  split
  · exact le
  next fits =>
    simp only [size, List.length_append, List.length_replicate] at fits ⊢
    omega

/-- Initializing keeps the size. -/
lemma size_initUntyped (h : table.initUntyped dst element src len = .ok table') :
    table'.size = table.size := by
  unfold initUntyped at h
  split at h
  next first second =>
    cases h
    refine List.length_setSlice ?_
    rw [List.length_of_getSlice? second]
    exact List.getSlice?_isSome.mp (by rw [first]; rfl)
  · cases h

/-- Copying from another table keeps the size. -/
lemma size_copy (h : table.copy dst source src len = .ok table') : table'.size = table.size := by
  unfold copy at h
  split at h
  next first second =>
    cases h
    refine List.length_setSlice ?_
    rw [List.length_of_getSlice? second]
    exact List.getSlice?_isSome.mp (by rw [first]; rfl)
  · cases h

/-- Copying within the table keeps the size. -/
lemma size_copyWithin (h : table.copyWithin dst src len = .ok table') :
    table'.size = table.size := by
  unfold copyWithin at h
  split at h
  next fits =>
    cases h
    refine List.length_setSlice ?_
    have inside := fits.2
    simp only [size, List.length_take, List.length_drop] at inside ⊢
    omega
  · cases h

/-- Filling keeps the size. -/
lemma size_fillUntyped (h : table.fillUntyped dst val len = .ok table') :
    table'.size = table.size := by
  unfold fillUntyped at h
  split at h
  next first =>
    cases h
    refine List.length_setSlice ?_
    rw [List.length_replicate]
    exact List.getSlice?_isSome.mp (by rw [first]; rfl)
  · cases h

end TableEntity

/-- What a step can do to the tables: it overwrites elements of one, or grows one. -/
inductive Store.Writes (store : Store T) (tables : Nat → Option TableEntity) : Prop
  | keep :
    tables = store.tables →
    Writes store tables
  | set {table entity entity'} :
    store.tables table = some entity →
    entity'.size = entity.size →
    tables = Function.update store.tables table (some entity') →
    Writes store tables
  | grow {table delta init} :
    tables = Function.update store.tables table
      (some (((store.tables table).getD {}).growUntyped delta init).2) →
    Writes store tables

/-- What is written to limited tables leaves them limited. -/
lemma Store.Writes.limited (writes : s.Writes t.tables) (h : s.Limited) : t.Limited := by
  intro table entity found
  cases writes with
  | keep eq =>
    rw [eq] at found
    exact h table entity found
  | @set written old new there size eq =>
    rw [eq] at found
    rcases eq_or_ne table written with rfl | ne
    · rw [Function.update_self] at found
      cases found
      exact size.trans_le (h table old there)
    · rw [Function.update_of_ne ne] at found
      exact h table entity found
  | @grow grown delta init eq =>
    rw [eq] at found
    rcases eq_or_ne table grown with rfl | ne
    · rw [Function.update_self] at found
      cases found
      refine TableEntity.size_growUntyped ?_ delta init
      cases there : s.tables table with
      | none => exact Nat.zero_le _
      | some old => exact h table old there
    · rw [Function.update_of_ne ne] at found
      exact h table entity found

namespace Executor

/-- An operation on a table that keeps its size. -/
lemma tryTable_writes {n table : Nat} {entity : TableEntity} {r : Except TrapCode TableEntity}
    {stack : List UntypedValue} (there : e.store.tables table = some entity)
    (size : ∀ entity', r = .ok entity' → entity'.size = entity.size)
    (hs : ({ e with valueStack := stack } : Executor T).tryTable n table r = .next e') :
    e.store.Writes e'.store.tables := by
  cases r with
  | ok entity' =>
    cases hs
    exact .set there (size entity' rfl) rfl
  | error code => cases hs

/-- What a step does to the tables. -/
lemma step_writes (hs : e.step m host op = .next e') : e.store.Writes e'.store.tables := by
  have hf := step_frame hs
  cases op
  case tableGrow table =>
    simp only [step, visitTableGrow] at hs
    split at hs
    · cases hs
      exact .grow rfl
    · cases hs
  case tableFill table =>
    simp only [step, visitTableFill] at hs
    split at hs
    next there => exact tryTable_writes there (fun _ => TableEntity.size_fillUntyped) hs
    · cases hs
  case tableSet table =>
    simp only [step, visitTableSet] at hs
    split at hs
    next there =>
      split at hs
      next ok =>
        cases hs
        refine .set there ?_ rfl
        unfold TableEntity.setUntyped at ok
        split at ok
        · cases ok
          exact List.length_set
        · cases ok
      · cases hs
    · cases hs
  case tableCopy dst src =>
    simp only [step, visitTableCopy] at hs
    split at hs
    next there _ =>
      refine tryTable_writes there (fun entity' ok => ?_) hs
      split at ok
      · exact TableEntity.size_copy ok
      · exact TableEntity.size_copyWithin ok
    · cases hs
  case tableInit segment =>
    simp only [step, visitTableInit] at hs
    split at hs
    · split at hs
      next there => exact tryTable_writes there (fun _ => TableEntity.size_initUntyped) hs
      · cases hs
    · cases hs
  all_goals
    simp only [Frame] at hf
    rw [hf]
    exact .keep rfl

end Executor

/-- Every history keeps the tables limited. -/
lemma History.limited (hist : History host s ops t) (h : s.Limited) : t.Limited := by
  induction hist with
  | start => exact h
  | step _ _ hs ih => exact (Executor.step_writes hs).limited ih
  | stop _ _ hs he ih =>
    have same := Executor.step_halt_frame hs he
    exact Store.Writes.limited (.keep (congrArg Store.tables same)) ih
  | settle _ ih => exact ih
  | reset _ ih => exact ih

end History

/-- An instruction that accesses tables, and its operands. -/
inductive BulkTable
  | get (table : Nat) (i : UntypedValue)
  | set (table : Nat) (i val : UntypedValue)
  | fill (table : Nat) (d val n : UntypedValue)
  | copy (dst src : Nat) (d s n : UntypedValue)
  deriving DecidableEq

namespace BulkTable

/-- The instruction itself. -/
def opcode : BulkTable → Opcode
  | get table _ => .tableGet table
  | set table _ _ => .tableSet table
  | fill table _ _ _ => .tableFill table
  | copy dst src _ _ _ => .tableCopy dst src

/-- The operands as they lie on the stack, the topmost first. -/
def operands : BulkTable → List UntypedValue
  | get _ i => [i]
  | set _ i val => [val, i]
  | fill _ d val n => [n, val, d]
  | copy _ _ d s n => [n, s, d]

/-- The tables that are accessed, and where. -/
def starts : BulkTable → List (Nat × UntypedValue)
  | get table i => [(table, i)]
  | set table i _ => [(table, i)]
  | fill table d _ _ => [(table, d)]
  | copy dst src d s _ => [(dst, d), (src, s)]

/-- The number of slots that are accessed from each start. -/
def count : BulkTable → Nat
  | get .. => 1
  | set .. => 1
  | fill _ _ _ n => n.toNat
  | copy _ _ _ _ n => n.toNat

/-- The table that is written, where its range starts, and what comes to each place of the range:
the value, or the slot at the same place of the source before the instruction. -/
def target (b : BulkTable) (tables : Nat → Option TableEntity) :
    Option (Nat × Nat × (Nat → Option UntypedValue)) :=
  match b with
  | get .. => none
  | set table i val => some (table, i.toNat, fun _ => some val)
  | fill table d val _ => some (table, d.toNat, fun _ => some val)
  | copy dst src d s _ =>
    some (dst, d.toNat, fun i => (tables src).bind (·.getUntyped (s.toNat + i)))

/-- What Wasm has in a slot after the instruction. -/
def slotAt (b : BulkTable) (tables : Nat → Option TableEntity) (table i : Nat) :
    Option UntypedValue :=
  match b.target tables with
  | some (written, d, item) =>
    if table = written ∧ d ≤ i ∧ i < d + b.count then item (i - d)
    else (tables table).bind (·.getUntyped i)
  | none => (tables table).bind (·.getUntyped i)

/-- What the instruction leaves on the stack. -/
def results (b : BulkTable) (tables : Nat → Option TableEntity) : List UntypedValue :=
  match b with
  | get table i => ((tables table).bind (·.getUntyped i.toNat)).toList
  | _ => []

variable {T : Type}

/-- The accessed tables are there. -/
def Resolved (b : BulkTable) (store : Store T) : Prop :=
  ∀ access ∈ b.starts, (store.tables access.1).isSome

/-- The accessed ranges end inside their tables. -/
def InRange (b : BulkTable) (store : Store T) : Prop :=
  ∀ access ∈ b.starts, ∀ entity, store.tables access.1 = some entity →
    access.2.toNat + b.count ≤ entity.size

/-- The instruction does on an executor what Wasm says. -/
structure Exact (b : BulkTable) (m : RwasmModule) (host : Host T) (e : Executor T)
    (below : List UntypedValue) : Prop where
  performed : b.InRange e.store → ∃ tables,
    e.step m host b.opcode = .next { e with
      ip := e.ip + 1
      valueStack := b.results e.store.tables ++ below
      store := { e.store with tables := tables } } ∧
    (∀ table, (tables table).map (·.size) = (e.store.tables table).map (·.size)) ∧
    ∀ table i, (tables table).bind (·.getUntyped i) = b.slotAt e.store.tables table i
  trapped : ¬ b.InRange e.store → ∃ e',
    e.step m host b.opcode = .halt (.trapped .tableOutOfBounds e') ∧ e'.store = e.store

variable {m : RwasmModule} {host : Host T} {e : Executor T} {below : List UntypedValue}
  {b : BulkTable} {store : Store T} {entity target source : TableEntity} {table dst src : Nat}
  {i d s n val : UntypedValue}

/-- An access to one table. -/
lemma inRange_one {access : Nat × UntypedValue} (starts : b.starts = [access])
    (there : store.tables access.1 = some entity) :
    b.InRange store ↔ access.2.toNat + b.count ≤ entity.size := by
  rw [InRange, starts, List.forall_mem_singleton]
  constructor
  · intro inRange
    exact inRange entity there
  · intro fits entity' there'
    obtain rfl := Option.some.inj (there.symm.trans there')
    exact fits

/-- A copy accesses its source and its destination. -/
lemma inRange_copy (there : store.tables dst = some target) (here : store.tables src = some source) :
    (copy dst src d s n).InRange store ↔
      d.toNat + n.toNat ≤ target.size ∧ s.toNat + n.toNat ≤ source.size := by
  constructor
  · intro inRange
    exact ⟨inRange (dst, d) List.mem_cons_self target there,
      inRange (src, s) (List.mem_cons_of_mem _ List.mem_cons_self) source here⟩
  · rintro ⟨first, second⟩ access mem entity found
    rcases List.mem_cons.mp mem with rfl | mem
    · obtain rfl := Option.some.inj (there.symm.trans found)
      exact first
    · obtain rfl := List.mem_singleton.mp mem
      obtain rfl := Option.some.inj (here.symm.trans found)
      exact second

/-- Tables with a range of one overwritten. -/
def overwrite (tables : Nat → Option TableEntity) (table : Nat) (entity : TableEntity) (d : Nat)
    (items : List UntypedValue) : Nat → Option TableEntity :=
  Function.update tables table (some ⟨entity.elements.setSlice d items⟩)

/-- Overwriting the target range with what comes to it leaves what Wasm has. -/
lemma overwrite_spec {tables : Nat → Option TableEntity} {start : Nat}
    {item : Nat → Option UntypedValue} {items : List UntypedValue}
    (target : b.target tables = some (table, start, item)) (there : tables table = some entity)
    (len : items.length = b.count) (fits : start + b.count ≤ entity.size)
    (spec : ∀ i < b.count, items[i]? = item i) :
    (∀ t, (overwrite tables table entity start items t).map (·.size) = (tables t).map (·.size)) ∧
      ∀ t i, (overwrite tables table entity start items t).bind (·.getUntyped i) =
        b.slotAt tables t i := by
  rw [← len] at fits
  constructor
  · intro t
    rcases eq_or_ne t table with rfl | ne
    · rw [overwrite, Function.update_self, there]
      exact congrArg some (List.length_setSlice fits)
    · rw [overwrite, Function.update_of_ne ne]
  · intro t i
    rw [slotAt, target]
    dsimp only
    rcases eq_or_ne t table with rfl | ne
    · rw [overwrite, Function.update_self, there]
      show (entity.elements.setSlice start items)[i]? = _
      rw [List.getElem?_setSlice fits, len]
      by_cases inside : start ≤ i ∧ i < start + b.count
      · rw [if_pos inside, if_pos ⟨rfl, inside⟩]
        exact spec _ (by omega)
      · rw [if_neg inside, if_neg fun h => inside h.2]
        rfl
    · rw [overwrite, Function.update_of_ne ne, if_neg fun h => ne h.1]

/-- Writing one slot overwrites a range of one. -/
lemma setUntyped_eq (k : Nat) (val : UntypedValue) : entity.setUntyped k val =
    if k + 1 ≤ entity.size then some ⟨entity.elements.setSlice k [val]⟩ else none := by
  unfold TableEntity.setUntyped
  by_cases fits : k + 1 ≤ entity.size
  · have lt : k < entity.elements.length := fits
    rw [if_pos lt, if_pos fits, List.set_eq_take_append_cons_drop, if_pos lt, List.setSlice,
      List.append_assoc]
    rfl
  · rw [if_neg fits]
    exact if_neg fits

/-- Both ways to copy check the same bounds, and take the source as it was. -/
lemma copied (limited : store.Limited) (there : store.tables dst = some target)
    (here : store.tables src = some source) :
    (if src ≠ dst then TableEntity.copy target d.toNat source s.toNat n.toNat
      else target.copyWithin d.toNat s.toNat n.toNat) =
      if d.toNat + n.toNat ≤ target.size ∧ s.toNat + n.toNat ≤ source.size then
        .ok ⟨target.elements.setSlice d.toNat ((source.elements.drop s.toNat).take n.toNat)⟩
      else .error .tableOutOfBounds := by
  by_cases same : src = dst
  · subst same
    obtain rfl := Option.some.inj (there.symm.trans here)
    have small : target.size ≤ N_MAX_TABLE_SIZE := limited src target there
    rw [if_neg fun ne => ne rfl, TableEntity.copyWithin]
    -- the checked sum does not wrap, since tables are small
    have bounds : max d.toNat s.toNat + n.toNat < 2 ^ 32 ∧
        max d.toNat s.toNat + n.toNat ≤ target.size ↔
        d.toNat + n.toNat ≤ target.size ∧ s.toNat + n.toNat ≤ target.size := by
      rw [N_MAX_TABLE_SIZE] at small
      omega
    exact if_congr bounds rfl rfl
  · rw [if_pos same, TableEntity.copy]
    by_cases first : d.toNat + n.toNat ≤ target.size
    · by_cases second : s.toNat + n.toNat ≤ source.size
      · rw [if_pos ⟨first, second⟩, List.getSlice?_eq_some first, List.getSlice?_eq_some second]
      · rw [if_neg fun h => second h.2, List.getSlice?_eq_some first,
          List.getSlice?_eq_none (Nat.lt_of_not_le second)]
    · rw [if_neg fun h => first h.1, List.getSlice?_eq_none (Nat.lt_of_not_le first)]

/-- `table.get` does what its definition says. -/
lemma exact_get (pushed : e.valueStack = (get table i).operands ++ below)
    (there : e.store.tables table = some entity) : (get table i).Exact m host e below := by
  have range := inRange_one (b := get table i) rfl there
  have run : e.step m host (get table i).opcode = e.visitTableGet table := rfl
  simp only [Executor.visitTableGet, pushed, there, operands, List.cons_append, List.nil_append] at run
  refine ⟨fun inRange => ?_, fun outside => ?_⟩
  · obtain ⟨v, read⟩ : ∃ v, entity.getUntyped i.toNat = some v :=
      ⟨_, List.getElem?_eq_getElem (range.mp inRange)⟩
    refine ⟨e.store.tables, ?_, fun _ => rfl, fun _ _ => rfl⟩
    rw [run, results, there, Option.bind_some, read]
    rfl
  · have unread : entity.getUntyped i.toNat = none :=
      List.getElem?_eq_none (Nat.le_of_lt_succ (Nat.lt_of_not_le (mt range.mpr outside)))
    refine ⟨{ e with valueStack := below }, ?_, rfl⟩
    rw [run, unread]

/-- So does `table.set`. -/
lemma exact_set (pushed : e.valueStack = (set table i val).operands ++ below)
    (there : e.store.tables table = some entity) : (set table i val).Exact m host e below := by
  have range := inRange_one (b := set table i val) rfl there
  have run : e.step m host (set table i val).opcode = e.visitTableSet table := rfl
  simp only [Executor.visitTableSet, pushed, there, operands, List.cons_append, List.nil_append] at run
  refine ⟨fun inRange => ?_, fun outside => ?_⟩
  · have fits := range.mp inRange
    have write := (setUntyped_eq i.toNat val).trans (if_pos fits)
    refine ⟨overwrite e.store.tables table entity i.toNat [val], ?_,
      overwrite_spec rfl there rfl fits fun k hk => ?_⟩
    · rw [run, write]
      rfl
    · obtain rfl := Nat.lt_one_iff.mp hk
      rfl
  · have refused := (setUntyped_eq i.toNat val).trans (if_neg (mt range.mpr outside))
    refine ⟨{ e with valueStack := below }, ?_, rfl⟩
    rw [run, refused]

/-- So does `table.fill`. -/
lemma exact_fill (pushed : e.valueStack = (fill table d val n).operands ++ below)
    (there : e.store.tables table = some entity) : (fill table d val n).Exact m host e below := by
  have range := inRange_one (b := fill table d val n) rfl there
  have run : e.step m host (fill table d val n).opcode =
      ({ e with valueStack := below } : Executor T).tryTable 1 table
        (entity.fillUntyped d.toNat val n.toNat) := by
    show e.visitTableFill table = _
    rw [Executor.visitTableFill, pushed, there]
    rfl
  refine ⟨fun inRange => ?_, fun outside => ?_⟩
  · have fits : d.toNat + n.toNat ≤ entity.elements.length := range.mp inRange
    refine ⟨overwrite e.store.tables table entity d.toNat (List.replicate n.toNat val), ?_,
      overwrite_spec rfl there List.length_replicate fits fun k hk => ?_⟩
    · rw [run, TableEntity.fillUntyped, List.getSlice?_eq_some fits]
      rfl
    · exact List.getElem?_replicate_of_lt hk
  · have refused : entity.elements.length < d.toNat + n.toNat :=
      Nat.lt_of_not_le (mt range.mpr outside)
    refine ⟨{ e with valueStack := below }, ?_, rfl⟩
    rw [run, TableEntity.fillUntyped, List.getSlice?_eq_none refused]
    rfl

/-- So does `table.copy`, within a table and between two. -/
lemma exact_copy (limited : e.store.Limited)
    (pushed : e.valueStack = (copy dst src d s n).operands ++ below)
    (there : e.store.tables dst = some target) (here : e.store.tables src = some source) :
    (copy dst src d s n).Exact m host e below := by
  have range := inRange_copy (d := d) (s := s) (n := n) there here
  have run : e.step m host (copy dst src d s n).opcode =
      ({ e with valueStack := below } : Executor T).tryTable 1 dst
        (if d.toNat + n.toNat ≤ target.size ∧ s.toNat + n.toNat ≤ source.size then
          .ok ⟨target.elements.setSlice d.toNat ((source.elements.drop s.toNat).take n.toNat)⟩
        else .error .tableOutOfBounds) := by
    show e.visitTableCopy dst src = _
    rw [Executor.visitTableCopy, pushed, there, here, ← copied limited there here]
    rfl
  refine ⟨fun inRange => ?_, fun outside => ?_⟩
  · have fits := range.mp inRange
    have read := List.getSlice?_eq_some fits.2
    refine ⟨overwrite e.store.tables dst target d.toNat
      ((source.elements.drop s.toNat).take n.toNat), ?_,
      overwrite_spec rfl there (List.length_of_getSlice? read) fits.1 fun k hk => ?_⟩
    · rw [run, if_pos fits]
      rfl
    · rw [here]
      exact List.getElem?_of_getSlice? read hk
  · refine ⟨{ e with valueStack := below }, ?_, rfl⟩
    rw [run, if_neg (mt range.mpr outside)]
    rfl

end BulkTable

/-- After any history of the store, an access to tables traps exactly when it leaves one of them, and
then nothing has changed; otherwise the written range holds what it should and everything else is as
it was. -/
theorem bulkTable_exact {T : Type} {m : RwasmModule} {host : Host T} {e : Executor T}
    {s₀ : Store T} {past : List Opcode} {below : List UntypedValue} (b : BulkTable)
    (hist : History host s₀ past e.store) (fresh : s₀.Limited)
    (pushed : e.valueStack = b.operands ++ below) (resolved : b.Resolved e.store) :
    b.Exact m host e below := by
  have limited := hist.limited fresh
  cases b with
  | get table i =>
    obtain ⟨entity, there⟩ := Option.isSome_iff_exists.mp (resolved _ List.mem_cons_self)
    exact BulkTable.exact_get pushed there
  | set table i val =>
    obtain ⟨entity, there⟩ := Option.isSome_iff_exists.mp (resolved _ List.mem_cons_self)
    exact BulkTable.exact_set pushed there
  | fill table d val n =>
    obtain ⟨entity, there⟩ := Option.isSome_iff_exists.mp (resolved _ List.mem_cons_self)
    exact BulkTable.exact_fill pushed there
  | copy dst src d s n =>
    obtain ⟨target, there⟩ := Option.isSome_iff_exists.mp (resolved _ List.mem_cons_self)
    obtain ⟨source, here⟩ := Option.isSome_iff_exists.mp
      (resolved _ (List.mem_cons_of_mem _ List.mem_cons_self))
    exact BulkTable.exact_copy limited pushed there here

/-- An executor on a table of four references. -/
def fourReferences (stack : List UntypedValue) : Executor Unit :=
  ⟨stack, N_DEFAULT_STACK_SIZE, [], 0,
    { Store.new () none none with
      tables := fun table => if table = 0 then some ⟨[1, 2, 3, 4]⟩ else none }⟩

/-- A copy onto an overlapping range of the same table. -/
theorem bulkTable_exact_overlap :
    (BulkTable.copy 0 0 1 0 3).Exact ⟨[.tableCopy 0 0], [], [], [], 0⟩ Host.empty
      (fourReferences [3, 0, 1]) [] := by
  refine bulkTable_exact (.copy 0 0 1 0 3) .start ?_ rfl ?_
  · intro table entity found
    simp only [fourReferences] at found
    split at found
    · cases found
      decide
    · cases found
  · intro access mem
    rcases List.mem_cons.mp mem with rfl | mem
    · rfl
    · obtain rfl := List.mem_singleton.mp mem
      rfl

end Rwasm
