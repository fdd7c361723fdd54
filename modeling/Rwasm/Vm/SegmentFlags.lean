import Rwasm.Vm.Engine
import Rwasm.Vm.History

/-!
# Segment drop flags

What the drop flags of a store say after any history of it: the instructions of any number of calls,
of any modules, from the entrypoint on. A drop first resizes the flags to one more than its index, so
it keeps the flags below the index and loses those above it. The flags are therefore exact at every
point of a history precisely when the indices it drops never decrease.
-/

namespace Rwasm

namespace SegmentFlags

variable {flags : SegmentFlags} {idx j : Nat}

/-- A drop sets its own flag, keeps the lower ones and loses the higher ones. -/
lemma isEmpty_drop :
    (flags.drop idx).isEmpty j ↔ j = idx ∨ j < idx ∧ flags.isEmpty j := by
  unfold drop resize isEmpty
  have len : (flags.take (idx + 1) ++ List.replicate (idx + 1 - flags.length) false).length
      = idx + 1 := by
    simp only [List.length_append, List.length_take, List.length_replicate]
    omega
  rcases lt_trichotomy j idx with lt | rfl | gt
  · rw [List.getD_eq_getElem?_getD, List.getElem?_set_ne (by omega),
      List.getD_eq_getElem?_getD]
    rcases Nat.lt_or_ge j flags.length with hj | hj
    · rw [List.getElem?_append_left (by simp only [List.length_take]; omega),
        List.getElem?_take_of_lt (by omega)]
      simp [lt, Nat.ne_of_lt lt]
    · rw [List.getElem?_append_right (by simp only [List.length_take]; omega),
        List.getElem?_eq_none hj, List.getElem?_replicate]
      split <;> simp [Nat.ne_of_lt lt]
  · rw [List.getD_eq_getElem?_getD, List.getElem?_set_self (by omega)]
    simp
  · rw [List.getD_eq_getElem?_getD, List.getElem?_eq_none (by rw [List.length_set, len]; omega)]
    simp [Nat.ne_of_gt gt, Nat.not_lt.mpr gt.le]

/-- The flags after a sequence of drops. -/
def dropAll (flags : SegmentFlags) (idxs : List Nat) : SegmentFlags :=
  idxs.foldl drop flags

/-- No drops. -/
@[simp] lemma dropAll_nil : flags.dropAll [] = flags := rfl

/-- Drops in two parts. -/
lemma dropAll_append {xs ys : List Nat} :
    flags.dropAll (xs ++ ys) = (flags.dropAll xs).dropAll ys :=
  List.foldl_append

/-- Exactly the segments of the list are flagged. -/
def Exact (flags : SegmentFlags) (idxs : List Nat) : Prop :=
  ∀ j, flags.isEmpty j ↔ j ∈ idxs

/-- Unflagged segments stay unflagged through drops of others, whatever their order. -/
lemma mem_of_isEmpty_dropAll {idxs : List Nat} (none : flags.Exact [])
    (h : (flags.dropAll idxs).isEmpty j) : j ∈ idxs := by
  induction idxs using List.reverseRecOn with
  | nil => exact (none j).mp h
  | append_singleton xs i ih =>
    rw [dropAll_append] at h
    rcases isEmpty_drop.mp h with rfl | ⟨_, h⟩
    · simp
    · exact List.mem_append_left _ (ih h)

/-- Dropping a segment behind those that are flagged keeps the flags exact. -/
lemma Exact.drop {idxs : List Nat} (h : flags.Exact idxs) (le : ∀ j ∈ idxs, j ≤ idx) :
    (flags.drop idx).Exact (idxs ++ [idx]) := by
  intro j
  rw [isEmpty_drop, h j, List.mem_append, List.mem_singleton]
  constructor
  · rintro (rfl | ⟨_, mem⟩)
    · exact .inr rfl
    · exact .inl mem
  · rintro (mem | rfl)
    · rcases (le j mem).lt_or_eq with lt | eq
      · exact .inr ⟨lt, mem⟩
      · exact .inl eq
    · exact .inl rfl

/-- Drops of indices that never decrease leave exact flags. -/
lemma exact_dropAll {idxs : List Nat} (none : flags.Exact []) (sorted : idxs.Pairwise (· ≤ ·)) :
    (flags.dropAll idxs).Exact idxs := by
  induction idxs using List.reverseRecOn with
  | nil => exact none
  | append_singleton xs i ih =>
    obtain ⟨hxs, -, hi⟩ := List.pairwise_append.mp sorted
    rw [dropAll_append]
    exact (ih hxs).drop fun j hj => hi j hj i (List.mem_singleton_self i)

/-- Flags that are exact after a drop, and before it, were only so because no flagged index is
higher. -/
lemma le_of_exact_drop {xs : List Nat} {i : Nat} (h : (flags.dropAll (xs ++ [i])).Exact (xs ++ [i])) :
    ∀ j ∈ xs, j ≤ i := by
  intro j hj
  have e := (h j).mpr (List.mem_append_left _ hj)
  rw [dropAll_append] at e
  rcases isEmpty_drop.mp e with rfl | ⟨lt, _⟩
  · exact le_rfl
  · exact lt.le

/-- The flags are exact after every part of a sequence of drops precisely when the indices never
decrease. -/
lemma exact_prefixes_iff {idxs : List Nat} (none : flags.Exact []) :
    (∀ xs, xs <+: idxs → (flags.dropAll xs).Exact xs) ↔ idxs.Pairwise (· ≤ ·) := by
  constructor
  · intro h
    induction idxs using List.reverseRecOn with
    | nil => exact .nil
    | append_singleton xs i ih =>
      refine List.pairwise_append.mpr
        ⟨ih fun ys hys => h ys (hys.trans (List.prefix_append _ _)), List.pairwise_singleton _ _, ?_⟩
      intro j hj i' hi'
      rw [List.mem_singleton.mp hi']
      exact le_of_exact_drop (h _ (List.prefix_refl _)) j hj
  · intro sorted xs hxs
    exact exact_dropAll none (sorted.sublist hxs.sublist)

end SegmentFlags

/-- The data segment an instruction drops. -/
def Opcode.droppedData : Opcode → Option Nat
  | .dataDrop idx => some idx
  | _ => none

/-- The element segment an instruction drops. -/
def Opcode.droppedElem : Opcode → Option Nat
  | .elemDrop idx => some idx
  | _ => none

/-- The segments dropped in a store are exactly those named by a list of instructions. -/
def Store.DropsExactly {T : Type} (store : Store T) (ops : List Opcode) : Prop :=
  store.emptyDataSegments.Exact (ops.filterMap Opcode.droppedData) ∧
    store.emptyElemSegments.Exact (ops.filterMap Opcode.droppedElem)

variable {T : Type} {m : RwasmModule} {host : Host T} {e e' : Executor T} {op : Opcode}
  {s t : Store T} {ops : List Opcode}

/-- A step changes the drop flags by the drops of its instruction only. -/
lemma Executor.step_flags (h : e.step m host op = .next e') :
    e'.store.emptyDataSegments = e.store.emptyDataSegments.dropAll op.droppedData.toList ∧
      e'.store.emptyElemSegments = e.store.emptyElemSegments.dropAll op.droppedElem.toList := by
  have hf := step_frame h
  cases op <;> simp only [Frame] at hf <;> rw [hf] <;> exact ⟨rfl, rfl⟩

/-- Instructions that drop a segment do not stop the machine. -/
lemma Executor.no_drops_of_halt {exit} (h : e.step m host op = .halt exit) :
    op.droppedData = none ∧ op.droppedElem = none := by
  cases op <;> first | exact ⟨rfl, rfl⟩ | cases h

/-- The flags of a store are those of all drops in its history. -/
lemma History.flags (hist : History host s ops t) :
    t.emptyDataSegments = s.emptyDataSegments.dropAll (ops.filterMap Opcode.droppedData) ∧
      t.emptyElemSegments = s.emptyElemSegments.dropAll (ops.filterMap Opcode.droppedElem) := by
  induction hist with
  | start => exact ⟨rfl, rfl⟩
  | step _ _ h ih =>
    obtain ⟨hd, he⟩ := Executor.step_flags h
    rw [hd, he, ih.1, ih.2]
    simp only [List.filterMap_append, SegmentFlags.dropAll_append]
    constructor <;> congr 1
  | stop _ _ h hs ih =>
    have hf := Executor.step_halt_frame h hs
    obtain ⟨hd, he⟩ := Executor.no_drops_of_halt h
    rw [hf]
    simp only [List.filterMap_append, List.filterMap_cons, hd, he, List.filterMap_nil,
      List.append_nil]
    exact ih
  | settle _ ih => exact ih
  | reset _ ih => exact ih

/-- Every part of what a list is filtered to comes from a part of the list. -/
lemma prefix_of_filterMap {α β : Type*} {f : α → Option β} {l : List α} {xs : List β}
    (h : xs <+: l.filterMap f) : ∃ l', l' <+: l ∧ l'.filterMap f = xs := by
  obtain ⟨ys, hy⟩ := h
  obtain ⟨l₁, l₂, rfl, h₁, -⟩ := List.filterMap_eq_append_iff.mp hy.symm
  exact ⟨l₁, List.prefix_append _ _, h₁⟩

/-- The drop flags are exact at every point of a history precisely when the data segments it drops
come in an order that never decreases, and so do the element segments. -/
theorem drops_exact_iff_ascending (hist : History host s ops t) (fresh : s.DropsExactly []) :
    (∀ ops' t', ops' <+: ops → History host s ops' t' → t'.DropsExactly ops') ↔
      (ops.filterMap Opcode.droppedData).Pairwise (· ≤ ·) ∧
        (ops.filterMap Opcode.droppedElem).Pairwise (· ≤ ·) := by
  rw [← SegmentFlags.exact_prefixes_iff fresh.1, ← SegmentFlags.exact_prefixes_iff fresh.2]
  constructor
  · intro h
    constructor
    · intro xs hxs
      obtain ⟨ops', hp, rfl⟩ := prefix_of_filterMap hxs
      obtain ⟨t', hist'⟩ := hist.of_prefix hp
      rw [← hist'.flags.1]
      exact (h ops' t' hp hist').1
    · intro xs hxs
      obtain ⟨ops', hp, rfl⟩ := prefix_of_filterMap hxs
      obtain ⟨t', hist'⟩ := hist.of_prefix hp
      rw [← hist'.flags.2]
      exact (h ops' t' hp hist').2
  · intro ⟨hd, he⟩ ops' t' hp hist'
    unfold Store.DropsExactly
    rw [hist'.flags.1, hist'.flags.2]
    exact ⟨hd _ (hp.filterMap _), he _ (hp.filterMap _)⟩

/-- Nothing is dropped in a new store. -/
lemma Store.dropsExactly_new (data : T) (fuelLimit maxPages : Option Nat) :
    (Store.new data fuelLimit maxPages).DropsExactly [] :=
  ⟨fun _ => by simp [new, SegmentFlags.isEmpty], fun _ => by simp [new, SegmentFlags.isEmpty]⟩

/-- Dropping segment `2` and then segment `1` leaves segment `2` undropped. -/
theorem drops_not_exact :
    ¬ ∀ (s t : Store Unit) (ops : List Opcode),
      s.DropsExactly [] → History Host.empty s ops t → t.DropsExactly ops := by
  intro h
  let m : RwasmModule := { codeSection := [.dataDrop 2, .dataDrop 1] }
  let s : Store Unit := .new () none none
  have hist : History Host.empty s [.dataDrop 2, .dataDrop 1] _ :=
    .step (m := m) (.step (m := m) (e := .fresh s 0) .start rfl rfl) rfl rfl
  have exact := h s _ _ (Store.dropsExactly_new () none none) hist
  exact absurd ((exact.1 2).mpr (by decide)) (by decide)

/-- Dropping segment `1` and then segment `2` drops both. -/
theorem drops_exact_iff_ascending_pair :
    ∃ t : Store Unit, History Host.empty (.new () none none) [.dataDrop 1, .dataDrop 2] t ∧
      t.DropsExactly [.dataDrop 1, .dataDrop 2] := by
  let m : RwasmModule := { codeSection := [.dataDrop 1, .dataDrop 2] }
  let s : Store Unit := .new () none none
  have hist : History Host.empty s [.dataDrop 1, .dataDrop 2] _ :=
    .step (m := m) (.step (m := m) (e := .fresh s 0) .start rfl rfl) rfl rfl
  have exact := (drops_exact_iff_ascending hist (Store.dropsExactly_new () none none)).mpr
    ⟨by decide, by decide⟩
  exact ⟨_, hist, exact _ _ (List.prefix_refl _) hist⟩

end Rwasm
