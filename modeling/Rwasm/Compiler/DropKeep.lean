import Rwasm.Compiler.ControlFlow
import Rwasm.Segments.Bulk

/-!
# Dropping slots beneath others

The instructions of `translate_drop_keep` (`compiler/drop_keep.rs`). Where at least as many slots are
dropped as are kept, the kept ones are popped one by one into the deepest of the dropped ones.
Otherwise each is copied down, the deepest first, which takes one more slot than there are.
-/

namespace Rwasm

open Opcode

variable {T : Type} {m : RwasmModule} {host : Host T} {lo hi p : Nat} {cap : Nat} {calls : List Nat}
  {store : Store T} {args dropped below : List UntypedValue}

/-! ## The run of the code -/

section Moves

variable {drop : Nat}

/-- A copy of the slot at a depth. -/
lemma localGet_copies (y : UntypedValue) (above below : List UntypedValue) :
    (⟨above ++ y :: below, cap, calls, p, store⟩ : Executor T).step m host
        (.localGet (above.length + 1)) =
      .next ⟨y :: (above ++ y :: below), cap, calls, p + 1, store⟩ := by
  have slot : (above ++ y :: below)[above.length]? = some y := by simp
  simp only [Executor.step, Executor.visitLocalGet, slot]
  rfl

/-- A pop into the slot at a depth. -/
lemma localSet_moves (x y : UntypedValue) (above below : List UntypedValue) :
    (⟨x :: (above ++ y :: below), cap, calls, p, store⟩ : Executor T).step m host
        (.localSet (above.length + 1)) =
      .next ⟨above ++ x :: below, cap, calls, p + 1, store⟩ := by
  have inside : above.length < (above ++ y :: below).length := by simp
  simp only [Executor.step, Executor.visitLocalSet, if_pos inside]
  rw [List.set_append_right _ _ (Nat.le_refl _), Nat.sub_self]
  rfl

/-- What is dropped. -/
lemma bulkDrop_drops (above below : List UntypedValue) :
    (⟨above ++ below, cap, calls, p, store⟩ : Executor T).step m host (.bulkDrop above.length) =
      .next ⟨below, cap, calls, p + 1, store⟩ := by
  have inside : above.length ≤ (above ++ below).length := by simp
  simp only [Executor.step, Executor.visitBulkDrop, if_pos inside, List.drop_left]
  rfl

/-- No more slots than are dropped are moved onto the deepest of those. -/
lemma moveOnto_run {front done back : List UntypedValue} (same : back.length = args.length)
    (deep : args.length + front.length + done.length = drop)
    (placed : CodeAt m.codeSection p (List.replicate args.length (localSet drop))) (hlo : lo ≤ p)
    (hhi : p + args.length ≤ hi) :
    (vmWithin m host lo hi).Steps
      ⟨args ++ (front ++ (done ++ (back ++ below))), cap, calls, p, store⟩
      ⟨front ++ (done ++ (args ++ below)), cap, calls, p + args.length, store⟩ := by
  induction args generalizing done back p with
  | nil =>
    cases List.eq_nil_of_length_eq_zero same
    exact .refl
  | cons a args ih =>
    cases back with
    | nil => cases same
    | cons b back =>
      simp only [List.length_cons] at same deep hhi ⊢
      rw [List.length_cons, List.replicate_succ, CodeAt.cons_iff] at placed
      obtain ⟨set, rest⟩ := placed
      -- What is above the slot that is overwritten.
      have depth : drop = (args ++ (front ++ done)).length + 1 := by
        simp only [List.length_append]
        omega
      have before : a :: args ++ (front ++ (done ++ (b :: back ++ below))) =
          a :: ((args ++ (front ++ done)) ++ b :: (back ++ below)) := by simp
      have after : (args ++ (front ++ done)) ++ a :: (back ++ below) =
          args ++ (front ++ ((done ++ [a]) ++ (back ++ below))) := by simp
      have moved : front ++ ((done ++ [a]) ++ (args ++ below)) =
          front ++ (done ++ (a :: args ++ below)) := by simp
      rw [before, ← moved, Nat.add_comm args.length, ← Nat.add_assoc]
      rw [depth] at set
      refine vmWithin_next ⟨hlo, by dsimp only; omega⟩ set (localSet_moves a b _ _) ?_
      · rw [after]
        refine ih (by omega) ?_ rest (by omega) (by omega)
        rw [List.length_append, List.length_singleton]
        omega

/-- The code that moves slots one by one over the slots that are dropped, deepest first. -/
def moves (drop : Nat) : Nat → List Opcode
  | 0 => []
  | keep + 1 => localGet (keep + 1) :: localSet (keep + 1 + drop) :: moves drop keep

/-- Two instructions move each kept slot. -/
lemma length_moves {keep : Nat} : (moves drop keep).length = 2 * keep := by
  induction keep with
  | zero => rfl
  | succ keep ih =>
    rw [moves, List.length_cons, List.length_cons, ih]
    omega

/-- More slots than are dropped are moved one by one. -/
lemma moves_run {front : List UntypedValue} (deep : front.length = drop) (pos : 0 < drop)
    (placed : CodeAt m.codeSection p (moves drop args.length)) (hlo : lo ≤ p)
    (hhi : p + 2 * args.length ≤ hi) :
    ∃ front', front'.length = drop ∧ (vmWithin m host lo hi).Steps
      ⟨args ++ (front ++ below), cap, calls, p, store⟩
      ⟨front' ++ (args ++ below), cap, calls, p + 2 * args.length, store⟩ := by
  induction args using List.reverseRecOn generalizing front below p with
  | nil => exact ⟨front, deep, .refl⟩
  | append_singleton args a ih =>
    -- The last of the slots is copied over the deepest of those beneath it.
    obtain ⟨mid, w, rfl⟩ : ∃ mid w, front = mid ++ [w] := by
      have ne : front ≠ [] := List.ne_nil_of_length_pos (by omega)
      exact ⟨front.dropLast, front.getLast ne, (List.dropLast_append_getLast ne).symm⟩
    rw [List.length_append, List.length_singleton] at placed hhi deep
    rw [moves] at placed
    obtain ⟨get, set, rest⟩ := placed
    have shorter : (a :: mid).length = drop := deep
    have depth : args.length + 1 + drop = (args ++ a :: mid).length + 1 := by
      rw [List.length_append, shorter]
      omega
    obtain ⟨front', len, st⟩ : ∃ front', front'.length = drop ∧ (vmWithin m host lo hi).Steps
        ⟨args ++ (a :: mid ++ (a :: below)), cap, calls, p + 1 + 1, store⟩
        ⟨front' ++ (args ++ (a :: below)), cap, calls, p + 1 + 1 + 2 * args.length, store⟩ :=
      ih shorter rest (by omega) (by omega)
    refine ⟨front', len, ?_⟩
    have first : args ++ [a] ++ (mid ++ [w] ++ below) = args ++ a :: (mid ++ w :: below) := by simp
    have second : a :: (args ++ a :: (mid ++ w :: below)) =
        a :: ((args ++ a :: mid) ++ w :: below) := by simp
    have third : (args ++ a :: mid) ++ a :: below = args ++ (a :: mid ++ (a :: below)) := by simp
    have last : front' ++ (args ++ [a] ++ below) = front' ++ (args ++ (a :: below)) := by simp
    rw [first, last, List.length_append, List.length_singleton,
      show p + 2 * (args.length + 1) = p + 1 + 1 + 2 * args.length by omega]
    refine vmWithin_next ⟨hlo, by dsimp only; omega⟩ get (localGet_copies a _ _) ?_
    rw [second]
    rw [depth] at set
    refine vmWithin_next ⟨by dsimp only; omega, by dsimp only; omega⟩ set (localSet_moves a w _ _) ?_
    rw [third]
    exact st

/-- Where fewer slots are dropped than kept, they are moved and the rest dropped at once. -/
lemma DropKeep.code_of_lt {dk : DropKeep} (pos : dk.drop ≠ 0) (lt : dk.drop < dk.keep) :
    dk.code = moves dk.drop dk.keep ++ [bulkDrop dk.drop] := by
  have shuffle (n : Nat) : (List.range n).flatMap
      (fun i => [localGet (n - i), localSet (n + dk.drop - i)]) = moves dk.drop n := by
    induction n with
    | zero => rfl
    | succ n ih =>
      have shift : ∀ i, [localGet (n + 1 - (i + 1)), localSet (n + 1 + dk.drop - (i + 1))] =
          [localGet (n - i), localSet (n + dk.drop - i)] := by
        intro i
        rw [Nat.add_sub_add_right, Nat.add_right_comm, Nat.add_sub_add_right]
      rw [List.range_succ_eq_map, List.flatMap_cons, List.flatMap_map, moves, ← ih]
      simp only [Nat.succ_eq_add_one, shift]
      rfl
  rw [code, if_neg pos, if_neg (Nat.not_le.mpr lt), shuffle]

/-- The code of a `DropKeep` drops the slots beneath those it keeps. -/
theorem dropKeep_run {dk : DropKeep} (keep : args.length = dk.keep) (drop : dropped.length = dk.drop)
    (placed : CodeAt m.codeSection p dk.code) (hlo : lo ≤ p) (hhi : p + dk.code.length ≤ hi) :
    (vmWithin m host lo hi).Steps ⟨args ++ (dropped ++ below), cap, calls, p, store⟩
      ⟨args ++ below, cap, calls, p + dk.code.length, store⟩ := by
  by_cases noop : dk.drop = 0
  · rw [noop] at drop
    have code_eq : dk.code = [] := by rw [DropKeep.code, if_pos noop]
    rw [code_eq, List.eq_nil_of_length_eq_zero drop]
    exact .refl
  · rcases Nat.lt_or_ge dk.drop dk.keep with lt | le
    · rw [DropKeep.code_of_lt noop lt, ← keep, ← drop] at placed hhi ⊢
      rw [List.length_append, length_moves, List.length_singleton] at hhi ⊢
      obtain ⟨moved, bulk, -⟩ := CodeAt.append_iff.mp placed
      rw [length_moves] at bulk
      obtain ⟨front, len, st⟩ : ∃ front, front.length = dropped.length ∧
          (vmWithin m host lo hi).Steps ⟨args ++ (dropped ++ below), cap, calls, p, store⟩
            ⟨front ++ (args ++ below), cap, calls, p + 2 * args.length, store⟩ :=
        moves_run rfl (by omega) moved hlo (by omega)
      rw [← len] at bulk
      exact st.trans (vmWithin_next ⟨by dsimp only; omega, by dsimp only; omega⟩ bulk
        (bulkDrop_drops front _) .refl)
    · have code_eq : dk.code = List.replicate args.length (localSet dk.drop) ++
          [bulkDrop (dk.drop - dk.keep)] := by
        rw [DropKeep.code, if_neg noop, if_pos le, keep]
      rw [code_eq, List.length_append, List.length_replicate, List.length_singleton] at hhi ⊢
      rw [code_eq] at placed
      obtain ⟨moved, bulk, -⟩ := CodeAt.append_iff.mp placed
      rw [List.length_replicate] at bulk
      obtain ⟨front, back, rfl, len⟩ : ∃ front back, dropped = front ++ back ∧
          front.length = dk.drop - dk.keep :=
        ⟨_, _, (List.take_append_drop (dk.drop - dk.keep) dropped).symm, by
          rw [List.length_take]
          omega⟩
      rw [List.length_append] at drop
      have st : (vmWithin m host lo hi).Steps
          ⟨args ++ (front ++ ([] ++ (back ++ below))), cap, calls, p, store⟩
          ⟨front ++ ([] ++ (args ++ below)), cap, calls, p + args.length, store⟩ :=
        moveOnto_run (by omega) (by rw [List.length_nil]; omega) moved hlo (by omega)
      rw [← len] at bulk
      rw [List.append_assoc]
      exact st.trans (vmWithin_next ⟨by dsimp only; omega, by dsimp only; omega⟩ bulk
        (bulkDrop_drops front _) .refl)

end Moves

/-! ## The height of the stack -/

/-- By how many slots an instruction of the code raises the stack. -/
def Opcode.rise : Opcode → Option Int
  | localGet _ => some 1
  | localSet _ => some (-1)
  | bulkDrop n => some (-n)
  | _ => none

/-- How far such code raises the stack above where it begins. -/
def peak : List Opcode → Option Int
  | [] => some 0
  | op :: ops => do return max 0 ((← op.rise) + (← peak ops))

section Height

variable {op : Opcode} {code : List Opcode} {e e' : Executor T} {k : Int}

/-- The greatest rise of a sequence is that of its first instruction and what follows it. -/
lemma peak_cons_iff :
    peak (op :: code) = some k ↔
      ∃ r j, op.rise = some r ∧ peak code = some j ∧ k = max 0 (r + j) := by
  simp only [peak, Option.bind_eq_bind, Option.bind_eq_some_iff, Option.pure_def, Option.some.injEq]
  constructor
  · rintro ⟨r, rise, j, rest, rfl⟩
    exact ⟨r, j, rise, rest, rfl⟩
  · rintro ⟨r, j, rise, rest, rfl⟩
    exact ⟨r, rise, j, rest, rfl⟩

/-- A sequence never rises by less than nothing. -/
lemma peak_nonneg (h : peak code = some k) : 0 ≤ k := by
  cases code with
  | nil =>
    cases h
    exact le_refl 0
  | cons op code =>
    obtain ⟨r, j, -, -, rfl⟩ := peak_cons_iff.mp h
    exact le_max_left _ _

/-- A step raises the stack by what its instruction does, and falls through. -/
lemma Executor.step_rise {r : Int} (rise : op.rise = some r) (h : e.step m host op = .next e') :
    (e'.valueStack.length : Int) = e.valueStack.length + r ∧ e'.ip = e.ip + 1 := by
  cases op
  case localGet depth =>
    cases rise
    simp only [step, visitLocalGet] at h
    split at h
    · cases h
    · split at h
      · cases h
        exact ⟨by simp, rfl⟩
      · cases h
  case localSet depth =>
    cases rise
    simp only [step, visitLocalSet] at h
    split at h
    next v stack pushed =>
      split at h
      · cases h
        exact ⟨by simp [pushed], rfl⟩
      · cases h
    · cases h
  case bulkDrop n =>
    cases rise
    simp only [step, visitBulkDrop] at h
    split at h
    next le =>
      cases h
      refine ⟨?_, rfl⟩
      simp only [List.length_drop]
      omega
    · cases h
  all_goals cases rise

/-- No state of the run of such code is higher than its peak. -/
lemma height_le (placed : CodeAt m.codeSection p code) (hk : peak code = some k) (hlo : lo ≤ p)
    (end_eq : hi = p + code.length) (start : e.ip = p) (st : (vmWithin m host lo hi).Steps e e') :
    (e'.valueStack.length : Int) ≤ e.valueStack.length + k := by
  induction code generalizing e p k with
  | nil =>
    cases hk
    rcases st.cases with rfl | ⟨e₁, first, -⟩
    · omega
    · -- the machine stops where the code ends
      obtain ⟨inside, -⟩ := Machine.within_step_iff.mp first
      rw [List.length_nil] at end_eq
      omega
  | cons op code ih =>
    obtain ⟨r, j, rise, rest, rfl⟩ := peak_cons_iff.mp hk
    obtain ⟨found, placed⟩ := CodeAt.cons_iff.mp placed
    rcases st.cases with rfl | ⟨e₁, first, st⟩
    · omega
    · obtain ⟨-, stepped⟩ := Machine.within_step_iff.mp first
      rw [← start] at found
      rw [vm_step found] at stepped
      obtain ⟨raised, next⟩ := Executor.step_rise rise stepped
      rw [List.length_cons] at end_eq
      have le := ih placed rest (by omega) (by omega) (by omega) st
      omega

/-- Setting locals rises by nothing. -/
lemma peak_localSets (drop n : Nat) {ops : List Opcode} (hk : peak ops = some 0) :
    peak (List.replicate n (localSet drop) ++ ops) = some 0 := by
  induction n with
  | zero => exact hk
  | succ n ih =>
    rw [List.replicate_succ, List.cons_append]
    exact peak_cons_iff.mpr ⟨-1, 0, rfl, ih, rfl⟩

/-- Moving slots rises by at most one. -/
lemma peak_moves (drop n : Nat) {ops : List Opcode} (hk : peak ops = some 0) :
    ∃ k ≤ 1, peak (moves drop n ++ ops) = some k := by
  induction n with
  | zero => exact ⟨0, zero_le_one, hk⟩
  | succ n ih =>
    obtain ⟨k, le, rest⟩ := ih
    have nonneg := peak_nonneg rest
    rw [moves, List.cons_append, List.cons_append]
    have set : peak (localSet (n + 1 + drop) :: (moves drop n ++ ops)) = some (max 0 (-1 + k)) :=
      peak_cons_iff.mpr ⟨-1, k, rfl, rest, rfl⟩
    refine ⟨_, ?_, peak_cons_iff.mpr ⟨1, _, rfl, set, rfl⟩⟩
    omega

end Height

/-- Only a shuffle needs one more slot. -/
lemma DropKeep.peak_code (dk : DropKeep) : ∃ k, peak dk.code = some k ∧
    k ≤ if dk.drop = 0 ∨ dk.keep ≤ dk.drop then 0 else 1 := by
  have last (n : Nat) : peak [bulkDrop n] = some 0 :=
    peak_cons_iff.mpr ⟨-n, 0, rfl, rfl, by omega⟩
  by_cases noop : dk.drop = 0
  · rw [if_pos (.inl noop), code, if_pos noop]
    exact ⟨0, rfl, le_refl 0⟩
  · by_cases le : dk.keep ≤ dk.drop
    · rw [if_pos (.inr le), code, if_neg noop, if_pos le]
      exact ⟨0, peak_localSets _ _ (last _), le_refl 0⟩
    · rw [if_neg (fun h => h.elim noop le), DropKeep.code_of_lt noop (Nat.lt_of_not_le le)]
      obtain ⟨k, small, peak_eq⟩ := peak_moves dk.drop dk.keep (last dk.drop)
      exact ⟨k, peak_eq, small⟩

/-! ## The translation -/

namespace ValueStackHeight

variable {h h' : ValueStackHeight} {n : Nat}

/-- The recorded peak is no lower than the height. -/
def Recorded (h : ValueStackHeight) : Prop :=
  h.height ≤ h.maxHeight

/-- An empty stack has recorded its greatest height. -/
lemma recorded_new : ({} : ValueStackHeight).Recorded :=
  Nat.le_refl 0

/-- Popping keeps the greatest height recorded. -/
lemma Recorded.popN (ok : h.Recorded) (popped : h.popN n = .ok h') : h'.Recorded := by
  unfold ValueStackHeight.popN at popped
  split at popped
  · cases popped
    exact (Nat.sub_le _ _).trans ok
  · cases popped

/-- Shrinking keeps the greatest height recorded. -/
lemma Recorded.shrinkTo (ok : h.Recorded) (shrunk : h.shrinkTo n = .ok h') : h'.Recorded := by
  unfold ValueStackHeight.shrinkTo at shrunk
  split at shrunk
  next le =>
    cases shrunk
    exact Nat.le_trans le ok
  · cases shrunk

/-- A push followed by a pop of as much raises the peak only. -/
lemma pushN_popN : (h.pushN n).popN n = .ok (h.touch n) := by
  have le : n ≤ (h.pushN n).height := Nat.le_add_left _ _
  rw [ValueStackHeight.popN, if_pos le, pushN, touch, Nat.add_sub_cancel]

end ValueStackHeight

namespace DropKeep

/-- `translate_drop_keep`: the instructions after it, the height, and the number of instructions that
it reports. -/
def translateDropKeep (dk : DropKeep) (instr : List Opcode) (height : ValueStackHeight) :
    Compile (List Opcode × ValueStackHeight × Nat) :=
  if dk.drop = 0 then
    return (instr, height, 0)
  else if dk.keep ≤ dk.drop then
    let (instr, count) := (List.range dk.keep).foldl
      (fun (instr, count) _ => (instr ++ [localSet dk.drop], count + 1)) (instr, 0)
    return (instr ++ [bulkDrop (dk.drop - dk.keep)], height, count + 1)
  else do
    let height ← (height.pushN 1).popN 1
    let (instr, count) := (List.range dk.keep).foldl
      (fun (instr, count) i =>
        (instr ++ [localGet (dk.keep - i), localSet (dk.keep + dk.drop - i)], count + 2)) (instr, 0)
    return (instr ++ [bulkDrop dk.drop], height, count + 1)

/-- A loop that appends as many instructions as it counts. -/
lemma foldl_emits (f : Nat → List Opcode) (n : Nat) (len : ∀ i, (f i).length = n) (is : List Nat)
    (instr : List Opcode) (count : Nat) :
    is.foldl (fun (instr, count) i => (instr ++ f i, count + n)) (instr, count) =
      (instr ++ is.flatMap f, count + (is.flatMap f).length) := by
  induction is generalizing instr count with
  | nil => simp
  | cons i is ih =>
    rw [List.foldl_cons, ih, List.flatMap_cons, List.length_append, len, List.append_assoc,
      Nat.add_assoc]

/-- It appends the code, records the peak, and reports how many instructions there are. -/
lemma translateDropKeep_eq (dk : DropKeep) (instr : List Opcode) (height : ValueStackHeight) :
    dk.translateDropKeep instr height =
      .ok (instr ++ dk.code, dk.touch height, dk.code.length) := by
  unfold translateDropKeep code touch
  by_cases noop : dk.drop = 0
  · simp [noop]
    rfl
  · rw [if_neg noop, if_neg noop]
    by_cases le : dk.keep ≤ dk.drop
    · have sets : (List.range dk.keep).flatMap (fun _ => [localSet dk.drop]) =
          List.replicate dk.keep (localSet dk.drop) := by
        rw [← List.map_eq_flatMap, List.map_const', List.length_range]
      rw [if_pos le, if_pos le, if_pos (.inr le),
        foldl_emits (fun _ => [localSet dk.drop]) 1 (fun _ => rfl), sets]
      simp
      rfl
    · rw [if_neg le, if_neg le, if_neg (fun h => h.elim noop le), ValueStackHeight.pushN_popN,
        foldl_emits (fun i => [localGet (dk.keep - i), localSet (dk.keep + dk.drop - i)]) 2
          (fun _ => rfl)]
      simp

end DropKeep

/-- The emitted code leaves the kept slots on those beneath the dropped ones; as many instructions are
reported as there are; and the stack never rises above the recorded peak. -/
theorem translateDropKeep_exact (dk : DropKeep) (instr : List Opcode) {height : ValueStackHeight}
    (recorded : height.Recorded) :
    ∃ emitted height',
      dk.translateDropKeep instr height = .ok (instr ++ emitted, height', emitted.length) ∧
      height'.height = height.height ∧
      height'.Recorded ∧
      ∀ {T : Type} (m : RwasmModule) (host : Host T) (e : Executor T)
        (args dropped below : List UntypedValue),
        CodeAt m.codeSection e.ip emitted →
        args.length = dk.keep →
        dropped.length = dk.drop →
        e.valueStack = args ++ (dropped ++ below) →
        (vmWithin m host e.ip (e.ip + emitted.length)).Steps e
          { e with valueStack := args ++ below, ip := e.ip + emitted.length } ∧
        ∀ base e', e.valueStack.length = base + height.height →
          (vmWithin m host e.ip (e.ip + emitted.length)).Steps e e' →
          e'.valueStack.length ≤ base + height'.maxHeight := by
  refine ⟨dk.code, dk.touch height, dk.translateDropKeep_eq instr height, ?_, ?_, ?_⟩
  · unfold DropKeep.touch
    split <;> rfl
  · unfold DropKeep.touch
    split
    · exact recorded
    · exact Nat.le_trans (Nat.le_add_right _ 1) (Nat.le_max_left _ _)
  · intro T m host e args dropped below placed keep drop pushed
    obtain ⟨stack, cap, calls, p, store⟩ := e
    subst pushed
    refine ⟨dropKeep_run keep drop placed (Nat.le_refl _) (Nat.le_refl _), ?_⟩
    intro base e' start st
    obtain ⟨k, peak_eq, small⟩ := dk.peak_code
    have le := height_le placed peak_eq (Nat.le_refl _) rfl rfl st
    dsimp only at le start
    unfold ValueStackHeight.Recorded at recorded
    unfold DropKeep.touch
    split at small
    next quiet =>
      rw [if_pos quiet]
      omega
    next shuffles =>
      have raised : height.height + 1 ≤ (height.touch 1).maxHeight := Nat.le_max_left _ _
      rw [if_neg shuffles]
      omega

/-- Four slots are moved over two. -/
theorem translateDropKeep_exact_shuffle :
    ∃ emitted height',
      DropKeep.translateDropKeep ⟨2, 4⟩ [] {} = .ok (emitted, height', emitted.length) ∧
      height'.height = 0 ∧
      height'.Recorded ∧
      ∀ {T : Type} (m : RwasmModule) (host : Host T) (e : Executor T)
        (args dropped below : List UntypedValue),
        CodeAt m.codeSection e.ip emitted →
        args.length = 4 →
        dropped.length = 2 →
        e.valueStack = args ++ (dropped ++ below) →
        (vmWithin m host e.ip (e.ip + emitted.length)).Steps e
          { e with valueStack := args ++ below, ip := e.ip + emitted.length } ∧
        ∀ base e', e.valueStack.length = base + 0 →
          (vmWithin m host e.ip (e.ip + emitted.length)).Steps e e' →
          e'.valueStack.length ≤ base + height'.maxHeight :=
  translateDropKeep_exact ⟨2, 4⟩ [] ValueStackHeight.recorded_new

end Rwasm
