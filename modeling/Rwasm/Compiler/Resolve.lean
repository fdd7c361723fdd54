import Rwasm.Compiler.Skeleton

/-!
# Code that is there already

Code that has been emitted is changed again in two ways: a `ConsumeFuel` instruction is charged as
long as it is the current one of reachable code, and branches get their offsets once their labels are
pinned. `Skeleton.Extends` says what an operator may do to the code before it.
-/

namespace Rwasm

open Opcode

/-- An instruction, and what it may become by being charged. -/
inductive Opcode.ChargeLe : Opcode → Opcode → Prop
  | refl {op} :
    ChargeLe op op
  | charged {a b} :
    a ≤ b →
    ChargeLe (consumeFuel a) (consumeFuel b)

/-- A charge raised twice. -/
lemma Opcode.ChargeLe.trans {a b c : Opcode} (h : a.ChargeLe b) (h' : b.ChargeLe c) :
    a.ChargeLe c := by
  cases h with
  | refl => exact h'
  | charged le =>
    cases h' with
    | refl => exact .charged le
    | charged le' => exact .charged (le.trans le')

/-- Only the charges of `ConsumeFuel` instructions change. -/
lemma Opcode.ChargeLe.eq {op op' : Opcode} (h : op.ChargeLe op')
    (other : ∀ fuel, op ≠ consumeFuel fuel) : op' = op := by
  cases h with
  | refl => rfl
  | charged => exact absurd rfl (other _)

/-- What happens to labels while code is emitted from the location `n` on: they are only used there,
and they stay pinned. -/
structure LabelRegistry.Grows (n : Nat) (a b : LabelRegistry) : Prop where
  users : ∃ us, b.users = a.users ++ us ∧ ∀ u ∈ us, n ≤ u.user
  pinned : ∀ l p : Nat, a.labels[l]? = some (some p) → b.labels[l]? = some (some p)

namespace LabelRegistry

variable {a b c : LabelRegistry} {n m label instr : Nat}

/-- Labels grow by nothing. -/
lemma Grows.refl : Grows n a a where
  users := ⟨[], by simp, by simp⟩
  pinned _ _ h := h

/-- Labels that grow twice have grown. -/
lemma Grows.trans (h : Grows n a b) (h' : Grows m b c) (le : n ≤ m) : Grows n a c where
  users := by
    obtain ⟨us, hu, ge⟩ := h.users
    obtain ⟨us', hu', ge'⟩ := h'.users
    refine ⟨us ++ us', by rw [hu', hu, List.append_assoc], ?_⟩
    intro u mem
    rcases List.mem_append.mp mem with mem | mem
    · exact ge u mem
    · exact le.trans (ge' u mem)
  pinned l p hp := h'.pinned l p (h.pinned l p hp)

/-- A new label grows the registry. -/
lemma newLabel_grows : Grows n a a.newLabel.2 where
  users := ⟨[], by simp [newLabel], by simp⟩
  pinned l p h := by
    have lt : l < a.labels.length := (List.getElem?_eq_some_iff.mp h).1
    simpa [newLabel, List.getElem?_append_left lt] using h

/-- Pinning a label. -/
lemma pinLabel_ok (h : a.pinLabel label instr = .ok b) :
    a.labels[label]? = some none ∧ b = { a with labels := a.labels.set label (some instr) } := by
  unfold pinLabel at h
  split at h
  next hl =>
    cases h
    exact ⟨hl, rfl⟩
  · cases h

/-- Giving a label its position grows the registry. -/
lemma set_grows (unpinned : a.labels[label]? = some none) :
    Grows n a { a with labels := a.labels.set label (some instr) } where
  users := ⟨[], by simp, by simp⟩
  pinned l p h := by
    have ne : label ≠ l := by
      rintro rfl
      rw [unpinned] at h
      cases h
    simpa [List.getElem?_set_ne ne] using h

/-- Pinning a label grows the registry. -/
lemma pinLabel_grows (h : a.pinLabel label instr = .ok b) : Grows n a b := by
  obtain ⟨unpinned, rfl⟩ := pinLabel_ok h
  exact set_grows unpinned

/-- Pinning a label unless it is pinned. -/
lemma tryPinLabel_ok (h : a.tryPinLabel label instr = .ok b) :
    (∃ p, a.labels[label]? = some (some p) ∧ b = a) ∨
      a.labels[label]? = some none ∧ b = { a with labels := a.labels.set label (some instr) } := by
  unfold tryPinLabel at h
  split at h
  next hl =>
    cases h
    exact .inr ⟨hl, rfl⟩
  next p hl =>
    cases h
    exact .inl ⟨p, hl, rfl⟩
  · cases h

/-- Pinning a label unless it is pinned grows the registry. -/
lemma tryPinLabel_grows (h : a.tryPinLabel label instr = .ok b) : Grows n a b := by
  rcases tryPinLabel_ok h with ⟨p, _, rfl⟩ | ⟨unpinned, rfl⟩
  · exact .refl
  · exact set_grows unpinned

/-- The offset to a pinned label is final, that to another is left open. -/
lemma tryResolveLabel_ok {offset} (h : a.tryResolveLabel label instr = .ok (offset, b)) :
    (∃ target, a.labels[label]? = some (some target) ∧
        Rwasm.branchOffset instr target = some offset ∧ b = a) ∨
      a.labels[label]? = some none ∧ b = { a with users := a.users ++ [⟨label, instr⟩] } := by
  unfold tryResolveLabel at h
  split at h
  next target hl =>
    split at h
    next ho =>
      cases h
      exact .inl ⟨target, hl, ho, rfl⟩
    · cases h
  next hl =>
    cases h
    exact .inr ⟨hl, rfl⟩
  · cases h

/-- The branch at `loc` goes to the label: it has the offset, or it is going to get it. -/
def Leads (registry : LabelRegistry) (label loc : Nat) (offset : Int) : Prop :=
  ⟨label, loc⟩ ∈ registry.users ∨
    ∃ target, registry.labels[label]? = some (some target) ∧ Rwasm.branchOffset loc target = some offset ∧
      ∀ u ∈ registry.users, u.user ≠ loc

/-- A branch that is emitted where no label is used yet goes to its label. -/
lemma tryResolveLabel_leads {offset : Int} (h : a.tryResolveLabel label instr = .ok (offset, b))
    (free : ∀ u ∈ a.users, u.user ≠ instr) : b.Leads label instr offset := by
  rcases tryResolveLabel_ok h with ⟨target, pinned, eq, rfl⟩ | ⟨-, rfl⟩
  · exact .inr ⟨target, pinned, eq, free⟩
  · exact .inl (List.mem_append_right _ (.head _))

/-- Later uses of labels are elsewhere. -/
lemma Leads.of_users {loc : Nat} {offset : Int} {us : List LabelUser} (h : a.Leads label loc offset)
    (users : b.users = a.users ++ us) (others : ∀ u ∈ us, u.user ≠ loc)
    (pinned : ∀ l p : Nat, a.labels[l]? = some (some p) → b.labels[l]? = some (some p)) :
    b.Leads label loc offset := by
  rcases h with mem | ⟨target, found, eq, free⟩
  · exact .inl (users ▸ List.mem_append_left us mem)
  · refine .inr ⟨target, pinned _ _ found, eq, ?_⟩
    intro u mem
    rw [users] at mem
    rcases List.mem_append.mp mem with mem | mem
    · exact free u mem
    · exact others u mem

end LabelRegistry

namespace Skeleton

variable {cx : Context} {s s' s'' : Skeleton} {ops : List Opcode} {i delta lo : Nat}

/-- The location that may still be charged. -/
def IsOpen (cx : Context) (s : Skeleton) (i : Nat) : Prop :=
  cx.withConsumeFuel = true ∧ s.reachable = true ∧ s.fuelInstr = some i

/-- Whether a label is used at a location. -/
def IsUser (s : Skeleton) (i : Nat) : Prop :=
  ∃ u ∈ s.labels.users, u.user = i

/-- Whether a snippet is called at a location. -/
def IsCall (s : Skeleton) (i : Nat) : Prop :=
  ∃ c ∈ s.snippetCalls, c.loc = i

/-- Labels are used, and snippets called, by instructions that are there. -/
def Inside (s : Skeleton) : Prop :=
  ∀ i, s.IsUser i ∨ s.IsCall i → i < s.code.length

/-- Where fuel is metered, the code is charged to a `ConsumeFuel` instruction, not in front of `lo`. -/
def Fueled (cx : Context) (lo : Nat) (s : Skeleton) : Prop :=
  cx.withConsumeFuel = true → ∀ i, s.fuelInstr = some i →
    lo ≤ i ∧ ∃ fuel, s.code[i]? = some (consumeFuel fuel)

/-- What later code leaves of the state before it. -/
structure Extends (cx : Context) (s s' : Skeleton) : Prop where
  charged : ∀ (i : Nat) (op : Opcode), s.code[i]? = some op →
    ∃ op', s'.code[i]? = some op' ∧ op.ChargeLe op' ∧ (¬ s.IsOpen cx i → op' = op ∧ ¬ s'.IsOpen cx i)
  labels : s.labels.Grows s.code.length s'.labels
  calls : ∃ cs, s'.snippetCalls = s.snippetCalls ++ cs ∧ ∀ c ∈ cs, s.code.length ≤ c.loc
  inside : s.Inside → s'.Inside
  fueled : ∀ lo ≤ s.code.length, s.Fueled cx lo → s'.Fueled cx lo

namespace Extends

/-- A state extends itself. -/
lemma refl : s.Extends cx s where
  charged _ op h := ⟨op, h, .refl, fun o => ⟨rfl, o⟩⟩
  labels := .refl
  calls := ⟨[], (List.append_nil _).symm, List.forall_mem_nil _⟩
  inside := id
  fueled _ _ := id

/-- Code is never removed. -/
lemma length_le (h : s.Extends cx s') : s.code.length ≤ s'.code.length := by
  by_contra lt
  obtain ⟨op, hop, -⟩ := h.charged s'.code.length _ (List.getElem?_eq_getElem (by omega))
  simp at hop

/-- A state extended twice. -/
lemma trans (h : s.Extends cx s') (h' : s'.Extends cx s'') : s.Extends cx s'' where
  charged i op hi := by
    obtain ⟨op', hi', le, closed⟩ := h.charged i op hi
    obtain ⟨op'', hi'', le', closed'⟩ := h'.charged i op' hi'
    refine ⟨op'', hi'', le.trans le', fun o => ?_⟩
    obtain ⟨rfl, o'⟩ := closed o
    exact closed' o'
  labels := h.labels.trans h'.labels h.length_le
  calls := by
    obtain ⟨cs, eq, le⟩ := h.calls
    obtain ⟨cs', eq', le'⟩ := h'.calls
    refine ⟨cs ++ cs', by rw [eq', eq, List.append_assoc], ?_⟩
    intro c mem
    rcases List.mem_append.mp mem with mem | mem
    · exact le c mem
    · exact h.length_le.trans (le' c mem)
  inside := h'.inside ∘ h.inside
  fueled lo le fueled := h'.fueled lo (le.trans h.length_le) (h.fueled lo le fueled)

/-- The code of reachable operators is charged. -/
lemma charge (live : s.reachable = true) : s.Extends cx (s.charge cx delta) where
  charged i op hi := by
    unfold Skeleton.charge
    split
    next instr on hf =>
      split
      next fuel hfuel =>
        by_cases eq : instr = i
        · -- the location that is charged is open, as the operators are reachable
          subst eq
          rw [hi] at hfuel
          cases hfuel
          have lt : instr < s.code.length := (List.getElem?_eq_some_iff.mp hi).1
          refine ⟨consumeFuel (fuel + delta), List.getElem?_set_self lt, .charged (Nat.le_add_right _ _), ?_⟩
          exact fun o => absurd ⟨on, live, hf⟩ o
        · exact ⟨op, (List.getElem?_set_ne eq).trans hi, .refl, fun o => ⟨rfl, o⟩⟩
      · exact ⟨op, hi, .refl, fun o => ⟨rfl, o⟩⟩
    · exact ⟨op, hi, .refl, fun o => ⟨rfl, o⟩⟩
  labels := by
    rw [charge_labels]
    exact .refl
  calls := ⟨[], by rw [charge_snippetCalls, List.append_nil], List.forall_mem_nil _⟩
  inside inside i used := by
    rw [length_charge]
    rw [IsUser, IsCall, charge_labels, charge_snippetCalls] at used
    exact inside i used
  fueled lo _ fueled on i hi := by
    have same : (s.charge cx delta).fuelInstr = s.fuelInstr := by
      rw [fuelInstr, charge_controlFrames, fuelInstr]
    rw [same] at hi
    obtain ⟨le, fuel, found⟩ := fueled on i hi
    have lt : i < s.code.length := (List.getElem?_eq_some_iff.mp found).1
    refine ⟨le, fuel + delta, ?_⟩
    unfold Skeleton.charge
    rw [on, hi]
    dsimp only
    rw [found]
    exact List.getElem?_set_self lt

/-- Code is added, and what follows is charged to the same location or to a new one. The labels used and
the snippets called in the code that is added stand in it. -/
lemma of_append (code : s'.code = s.code ++ ops)
    (next : ∀ i, s'.IsOpen cx i → s.IsOpen cx i ∨ s.code.length ≤ i)
    (labels : s.labels.Grows s.code.length s'.labels)
    (calls : ∃ cs, s'.snippetCalls = s.snippetCalls ++ cs ∧ ∀ c ∈ cs, s.code.length ≤ c.loc)
    (inside : s.Inside → s'.Inside)
    (fueled : cx.withConsumeFuel = true → ∀ i, s'.fuelInstr = some i →
      s.fuelInstr = some i ∨ s.code.length ≤ i ∧ ∃ fuel, s'.code[i]? = some (consumeFuel fuel)) :
    s.Extends cx s' where
  charged i op hi := by
    have lt : i < s.code.length := (List.getElem?_eq_some_iff.mp hi).1
    refine ⟨op, by rw [code, List.getElem?_append_left lt, hi], .refl, fun o => ⟨rfl, fun o' => ?_⟩⟩
    rcases next i o' with o' | le
    · exact o o'
    · omega
  labels := labels
  calls := calls
  inside := inside
  fueled lo le before on i hi := by
    rcases fueled on i hi with same | ⟨le', found⟩
    · obtain ⟨le', fuel, found⟩ := before on i same
      have lt : i < s.code.length := (List.getElem?_eq_some_iff.mp found).1
      exact ⟨le', fuel, by rw [code, List.getElem?_append_left lt, found]⟩
    · exact ⟨le.trans le', found⟩

/-- Code is added without the use of a label or the call of a snippet. -/
lemma of_plain (code : s'.code = s.code ++ ops)
    (next : ∀ i, s'.IsOpen cx i → s.IsOpen cx i ∨ s.code.length ≤ i)
    (labels : s.labels.Grows s.code.length s'.labels) (users : s'.labels.users = s.labels.users)
    (calls : s'.snippetCalls = s.snippetCalls)
    (fueled : cx.withConsumeFuel = true → ∀ i, s'.fuelInstr = some i →
      s.fuelInstr = some i ∨ s.code.length ≤ i ∧ ∃ fuel, s'.code[i]? = some (consumeFuel fuel)) :
    s.Extends cx s' := by
  refine of_append code next labels ⟨[], by rw [calls, List.append_nil], List.forall_mem_nil _⟩ ?_ fueled
  intro inside i used
  rw [IsUser, IsCall, users, calls] at used
  have lt := inside i used
  rw [code, List.length_append]
  omega

/-- Only what does not concern the code changes. -/
lemma of_eq (code : s'.code = s.code) (reachable : s'.reachable = true → s.reachable = true)
    (fuel : s'.fuelInstr = s.fuelInstr) (labels : s'.labels = s.labels)
    (calls : s'.snippetCalls = s.snippetCalls) : s.Extends cx s' := by
  refine @of_plain _ _ _ [] (by rw [code, List.append_nil]) ?_ ?_ (by rw [labels]) calls ?_
  · rintro i ⟨on, live, open_⟩
    exact .inl ⟨on, reachable live, fuel ▸ open_⟩
  · rw [labels]
    exact .refl
  · exact fun _ i hi => .inl (fuel ▸ hi)

/-- Emitting extends the code. -/
lemma emit : s.Extends cx (s.emit ops) :=
  of_plain rfl (fun _ => .inl) .refl rfl rfl fun _ _ => .inl

/-- The call of a snippet is recorded where it stands. -/
lemma record {snippet : Snippet} {op : Opcode} : s.Extends cx ((s.record (some snippet)).emit [op]) := by
  refine of_append rfl (fun _ => .inl) .refl ⟨_, rfl, ?_⟩ ?_ fun _ _ => .inl
  · intro c mem
    rw [List.mem_singleton.mp mem]
  · intro inside i used
    have length : ((s.record (some snippet)).emit [op]).code.length = s.code.length + 1 :=
      List.length_append
    rw [length]
    rcases used with used | ⟨c, mem, rfl⟩
    · exact Nat.lt_succ_of_lt (inside i (.inl used))
    · rcases List.mem_append.mp mem with mem | mem
      · exact Nat.lt_succ_of_lt (inside c.loc (.inr ⟨c, mem, rfl⟩))
      · rw [List.mem_singleton.mp mem]
        exact Nat.lt_succ_self _

end Extends

end Skeleton

end Rwasm
