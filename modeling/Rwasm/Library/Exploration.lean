import Mathlib

/-!
# Exploring what can be reached

A worklist computes a set of abstract states that is closed under a successor function, from a first
state and with a bound on the turns. Where the abstract states describe those of a system, and each
step of the system leads from what a state describes to what one of its successors describes, every
run stays within what the set describes.

Nothing here depends on what the states are.
-/

namespace Exploration

variable {α σ : Type*} {next : α → Option (List α)} {a b : α} {n : Nat} {seen work found : List α}

/-- A set of abstract states that holds the successors of each of its states. -/
def Closed (next : α → Option (List α)) (found : List α) : Prop :=
  ∀ a ∈ found, ∃ succ, next a = some succ ∧ ∀ b ∈ succ, b ∈ found

section Explore

variable [DecidableEq α]

/-- Adds what is still to be seen, and its successors, to what was seen. It fails where a successor
function does, and when there are too many turns. -/
def explore (next : α → Option (List α)) : Nat → List α → List α → Option (List α)
  | 0, _, _ => none
  | _ + 1, seen, [] => some seen
  | n + 1, seen, a :: work =>
    if a ∈ seen then explore next n seen work
    else
      match next a with
      | some succ => explore next n (a :: seen) (succ ++ work)
      | none => none

/-- What was seen, and is to be seen, is found; what is found is closed when the successors of what
was seen are seen or to be seen. -/
lemma explore_spec (h : explore next n seen work = some found)
    (pending : ∀ a ∈ seen, ∃ succ, next a = some succ ∧ ∀ b ∈ succ, b ∈ seen ∨ b ∈ work) :
    (∀ a ∈ seen, a ∈ found) ∧ (∀ a ∈ work, a ∈ found) ∧ Closed next found := by
  induction n generalizing seen work with
  | zero => cases h
  | succ n ih =>
    cases work with
    | nil =>
      cases h
      refine ⟨fun a mem => mem, List.forall_mem_nil _, fun a mem => ?_⟩
      obtain ⟨succ, eq, inside⟩ := pending a mem
      exact ⟨succ, eq, fun b hb => (inside b hb).resolve_right List.not_mem_nil⟩
    | cons a work =>
      rw [explore] at h
      split at h
      next old =>
        obtain ⟨first, rest, closed⟩ := ih h fun b mem => by
          obtain ⟨succ, eq, inside⟩ := pending b mem
          refine ⟨succ, eq, fun c hc => (inside c hc).elim .inl fun later => ?_⟩
          rcases List.mem_cons.mp later with rfl | later
          · exact .inl old
          · exact .inr later
        exact ⟨first, List.forall_mem_cons.mpr ⟨first a old, rest⟩, closed⟩
      next new =>
        split at h
        next succ eq =>
          obtain ⟨first, rest, closed⟩ := ih h fun b mem => by
            rcases List.mem_cons.mp mem with rfl | mem
            · exact ⟨succ, eq, fun c hc => .inr (List.mem_append_left work hc)⟩
            · obtain ⟨succ', eq', inside⟩ := pending b mem
              refine ⟨succ', eq', fun c hc => (inside c hc).elim
                (fun mem => .inl (List.mem_cons_of_mem a mem)) fun later => ?_⟩
              rcases List.mem_cons.mp later with rfl | later
              · exact .inl List.mem_cons_self
              · exact .inr (List.mem_append_right succ later)
          refine ⟨fun b mem => first b (List.mem_cons_of_mem a mem), ?_, closed⟩
          refine List.forall_mem_cons.mpr ⟨first a List.mem_cons_self, fun b mem => ?_⟩
          exact rest b (List.mem_append_right succ mem)
        · cases h

/-- What is found from a first state is closed and holds that state. -/
theorem closed_of_explore (h : explore next n [] [a] = some found) :
    a ∈ found ∧ Closed next found := by
  obtain ⟨-, rest, closed⟩ := explore_spec h (List.forall_mem_nil _)
  exact ⟨rest a (List.mem_singleton_self a), closed⟩

end Explore

/-- A state of the system is described by an abstract state whose successors are found. -/
def Tracked (next : α → Option (List α)) (found : List α) (describes : α → σ → Prop) (s : σ) : Prop :=
  ∃ a succ, describes a s ∧ next a = some succ ∧ ∀ b ∈ succ, b ∈ found

variable {step : σ → σ → Prop} {describes : α → σ → Prop} {s s' : σ}

/-- A state that is described by what is found is tracked. -/
lemma Closed.tracked (closed : Closed next found) (mem : a ∈ found) (first : describes a s) :
    Tracked next found describes s := by
  obtain ⟨succ, eq, inside⟩ := closed a mem
  exact ⟨a, succ, first, eq, inside⟩

/-- A run stays tracked when each step leads to another state that has the same successors, or to
what one of the successors describes. -/
theorem Closed.run (closed : Closed next found)
    (sound : ∀ a succ s s', describes a s → next a = some succ → step s s' →
      (∃ a', describes a' s' ∧ next a' = some succ) ∨ ∃ b ∈ succ, describes b s')
    (tracked : Tracked next found describes s) (st : Relation.ReflTransGen step s s') :
    Tracked next found describes s' := by
  induction st with
  | refl => exact tracked
  | tail _ moved ih =>
    obtain ⟨a, succ, here, eq, inside⟩ := ih
    rcases sound a succ _ _ here eq moved with ⟨a', there, eq'⟩ | ⟨b, mem, there⟩
    · exact ⟨a', succ, there, eq', inside⟩
    · exact closed.tracked (inside b mem) there

end Exploration
