import Rwasm.Vm.Signatures
import Rwasm.Library.Slice

/-!
# What tables hold

A slot of a table is a number, and an indirect call takes it for an address. A number gets into a table from
another one, from the element section, or as an operand of `table.set`, `table.fill` or `table.grow`. So in a
run that gives these three nothing but references, the tables hold nothing else, and every indirect call finds
null or a function.
-/

namespace Rwasm

/-- Null, or one of the addresses. -/
def IsReference (A : Nat → Prop) (v : UntypedValue) : Prop :=
  v = NULL_FUNC_IDX ∨ A v.toNat

namespace TableEntity

variable {table table' source : TableEntity} {dst src len : Nat} {v val : UntypedValue}
  {element : List UntypedValue}

/-- Growing adds the initial value. -/
lemma mem_growUntyped {delta : Nat} (mem : v ∈ (table.growUntyped delta val).2.elements) :
    v ∈ table.elements ∨ v = val := by
  unfold growUntyped at mem
  split at mem
  · exact .inl mem
  · rcases List.mem_append.mp mem with mem | mem
    · exact .inl mem
    · exact .inr (List.eq_of_mem_replicate mem)

/-- Writing one slot adds the value. -/
lemma mem_setUntyped {index : Nat} (h : table.setUntyped index val = some table') (mem : v ∈ table'.elements) :
    v ∈ table.elements ∨ v = val := by
  unfold setUntyped at h
  split at h
  · cases h
    exact List.mem_or_eq_of_mem_set mem
  · cases h

/-- Initializing adds elements of the section. -/
lemma mem_initUntyped (h : table.initUntyped dst element src len = .ok table') (mem : v ∈ table'.elements) :
    v ∈ table.elements ∨ v ∈ element := by
  unfold initUntyped at h
  split at h
  next slice =>
    cases h
    exact (List.mem_setSlice mem).imp_right (List.mem_of_getSlice? slice)
  · cases h

/-- Copying from another table adds what that one holds. -/
lemma mem_copy (h : table.copy dst source src len = .ok table') (mem : v ∈ table'.elements) :
    v ∈ table.elements ∨ v ∈ source.elements := by
  unfold copy at h
  split at h
  next slice =>
    cases h
    exact (List.mem_setSlice mem).imp_right (List.mem_of_getSlice? slice)
  · cases h

/-- Copying within the table adds nothing. -/
lemma mem_copyWithin (h : table.copyWithin dst src len = .ok table') (mem : v ∈ table'.elements) :
    v ∈ table.elements := by
  unfold copyWithin at h
  split at h
  · cases h
    rcases List.mem_setSlice mem with mem | mem
    · exact mem
    · exact List.mem_of_mem_drop (List.mem_of_mem_take mem)
  · cases h

/-- Filling adds the value. -/
lemma mem_fillUntyped (h : table.fillUntyped dst val len = .ok table') (mem : v ∈ table'.elements) :
    v ∈ table.elements ∨ v = val := by
  unfold fillUntyped at h
  split at h
  · cases h
    exact (List.mem_setSlice mem).imp_right List.eq_of_mem_replicate
  · cases h

end TableEntity

variable {T : Type}

/-- A table of the store holds the value. -/
def Store.Holds (store : Store T) (v : UntypedValue) : Prop :=
  ∃ table entity, store.tables table = some entity ∧ v ∈ entity.elements

/-- What another table of the store holds, or holds in its place. -/
lemma Store.Holds.update {store : Store T} {table : Nat} {entity : TableEntity} {v : UntypedValue}
    {P : Prop} (new : v ∈ entity.elements → store.Holds v ∨ P)
    (h : ({ store with tables := Function.update store.tables table entity } : Store T).Holds v) :
    store.Holds v ∨ P := by
  obtain ⟨table', entity', found, mem⟩ := h
  dsimp only at found
  rcases eq_or_ne table' table with rfl | ne
  · rw [Function.update_self] at found
    cases found
    exact new mem
  · rw [Function.update_of_ne ne] at found
    exact .inl ⟨table', entity', found, mem⟩

namespace Executor

variable {m : RwasmModule} {host : Host T} {e e' : Executor T} {op : Opcode} {v : UntypedValue}
  {P : UntypedValue → Prop} {A : Nat → Prop}

/-- The value that an instruction takes from the stack and puts into a table. -/
inductive Puts (e : Executor T) : Opcode → UntypedValue → Prop
  | set {table v below} :
    e.valueStack = v :: below →
    Puts e (.tableSet table) v
  | fill {table n v below} :
    e.valueStack = n :: v :: below →
    Puts e (.tableFill table) v
  | grow {table n v below} :
    e.valueStack = n :: v :: below →
    Puts e (.tableGrow table) v

/-- An operation on a table that adds some values. -/
lemma tryTable_holds {n table : Nat} {r : Except TrapCode TableEntity} {stack : List UntypedValue}
    {Q : Prop} (new : ∀ entity, r = .ok entity → v ∈ entity.elements → e.store.Holds v ∨ Q)
    (hs : ({ e with valueStack := stack } : Executor T).tryTable n table r = .next e')
    (held : e'.store.Holds v) : e.store.Holds v ∨ Q := by
  cases r with
  | ok entity =>
    cases hs
    exact Store.Holds.update (new entity rfl) held
  | error code => cases hs

/-- What a table holds after a step, a table held before, or it is of the element section, or was put there. -/
lemma holds_step (hs : e.step m host op = .next e') (held : e'.store.Holds v) :
    e.store.Holds v ∨ v ∈ m.elemSection ∨ e.Puts op v := by
  have frame := step_frame hs
  cases op
  case tableGrow table =>
    simp only [step, visitTableGrow] at hs
    split at hs
    next stack =>
      cases hs
      refine Store.Holds.update (fun mem => ?_) held
      rcases TableEntity.mem_growUntyped mem with mem | rfl
      · cases there : e.store.tables table with
        | none =>
          rw [there] at mem
          cases mem
        | some entity =>
          rw [there] at mem
          exact .inl ⟨table, entity, there, mem⟩
      · exact .inr (.inr (.grow stack))
    · cases hs
  case tableFill table =>
    simp only [step, visitTableFill] at hs
    split at hs
    next stack there =>
      refine tryTable_holds (fun entity ok mem => ?_) hs held
      rcases TableEntity.mem_fillUntyped ok mem with mem | rfl
      · exact .inl ⟨table, _, there, mem⟩
      · exact .inr (.inr (.fill stack))
    · cases hs
  case tableSet table =>
    simp only [step, visitTableSet] at hs
    split at hs
    next stack there =>
      split at hs
      next ok =>
        cases hs
        refine Store.Holds.update (fun mem => ?_) held
        rcases TableEntity.mem_setUntyped ok mem with mem | rfl
        · exact .inl ⟨table, _, there, mem⟩
        · exact .inr (.inr (.set stack))
      · cases hs
    · cases hs
  case tableCopy dst src =>
    simp only [step, visitTableCopy] at hs
    split at hs
    next there source =>
      refine tryTable_holds (fun entity ok mem => ?_) hs held
      split at ok
      · rcases TableEntity.mem_copy ok mem with mem | mem
        · exact .inl ⟨dst, _, there, mem⟩
        · exact .inl ⟨src, _, source, mem⟩
      · exact .inl ⟨dst, _, there, TableEntity.mem_copyWithin ok mem⟩
    · cases hs
  case tableInit segment =>
    simp only [step, visitTableInit] at hs
    split at hs
    next table _ _ _ _ _ _ =>
      split at hs
      next there =>
        refine tryTable_holds (fun entity ok mem => ?_) hs held
        rcases TableEntity.mem_initUntyped ok mem with mem | mem
        · exact .inl ⟨table, _, there, mem⟩
        · split at mem
          · cases mem
          · exact .inr (.inl mem)
      · cases hs
    · cases hs
  all_goals
    simp only [Frame] at frame
    rw [frame] at held
    exact .inl held

/-- A run that puts only such values into tables. -/
def RunsPutting (m : RwasmModule) (host : Host T) (P : UntypedValue → Prop) : Executor T → Executor T → Prop :=
  Relation.ReflTransGen fun e e' =>
    (∀ op v, m.codeSection[e.ip]? = some op → e.Puts op v → P v) ∧ (vm m host).step e = .next e'

/-- What a step that puts only such values preserves. -/
lemma holds_putting (elements : ∀ x ∈ m.elemSection, P x)
    (puts : ∀ op v, m.codeSection[e.ip]? = some op → e.Puts op v → P v)
    (next : (vm m host).step e = .next e') (holds : ∀ v, e.store.Holds v → P v) :
    ∀ v, e'.store.Holds v → P v := by
  simp only [vm] at next
  split at next
  next op code =>
    intro v held
    rcases holds_step next held with held | mem | put
    · exact holds v held
    · exact elements v mem
    · exact puts op v code put
  · cases next

/-- Where tables hold only null and addresses, an indirect call finds one of them. -/
lemma findsIn_of_holds (holds : ∀ v, e.store.Holds v → IsReference A v) : e.FindsIn m A := by
  rintro signature func e' - found
  unfold resolveIndirect at found
  split at found
  next table index stack named pushed =>
    dsimp only at found
    split at found
    · cases found
    next entity there =>
      split at found
      · cases found
      next slot =>
        split at found
        · cases found
        next known =>
          cases found
          exact (holds func ⟨table, entity, there, List.mem_of_getElem? slot⟩).resolve_left known
  · cases found

/-- In a run that puts only references into tables, indirect calls find functions. -/
lemma RunsPutting.runsIn (run : RunsPutting m host (IsReference A) e e')
    (elements : ∀ x ∈ m.elemSection, IsReference A x)
    (holds : ∀ v, e.store.Holds v → IsReference A v) :
    RunsIn m host A e e' ∧ e'.FindsIn m A := by
  have all : RunsIn m host A e e' ∧ ∀ v, e'.store.Holds v → IsReference A v := by
    induction run with
    | refl => exact ⟨.refl, holds⟩
    | tail _ step ih =>
      exact ⟨ih.1.tail ⟨findsIn_of_holds ih.2, step.2⟩, holds_putting elements step.1 step.2 ih.2⟩
  exact ⟨all.1, findsIn_of_holds all.2⟩

end Executor

end Rwasm
