import Mathlib

/-!
# Sequences of partial updates

Updates are applied one after another until one of them fails; the state it was applied to stays as it
is. Where one kind of update does whatever another does, but fails more often, the two sequences agree
unless they part: at the first update that fails for the one only.
-/

variable {σ α : Type*}

/-- Applies updates in order until one fails: the state reached, and whether none has failed. -/
def applyUpdates (f : σ → α → Option σ) (s : σ) : List α → σ × Bool
  | [] => (s, true)
  | a :: as =>
    match f s a with
    | some s' => applyUpdates f s' as
    | none => (s, false)

namespace Updates

variable {f g : σ → α → Option σ} {s s' s'' : σ} {a : α} {as pre post : List α}

/-- An update that succeeds is followed by the rest. -/
lemma apply_cons_some (h : f s a = some s') : applyUpdates f s (a :: as) = applyUpdates f s' as := by
  simp only [applyUpdates, h]

/-- An update that fails is the last one. -/
lemma apply_cons_none (h : f s a = none) : applyUpdates f s (a :: as) = (s, false) := by
  simp only [applyUpdates, h]

/-- What every update keeps is kept. -/
lemma apply_preserves {I : σ → Prop} (keep : ∀ s a s', a ∈ as → f s a = some s' → I s → I s')
    (h : I s) : I (applyUpdates f s as).1 := by
  induction as generalizing s with
  | nil => exact h
  | cons a as ih =>
    cases hf : f s a with
    | none =>
      rw [apply_cons_none hf]
      exact h
    | some t =>
      rw [apply_cons_some hf]
      refine ih (fun s b s' mem => keep s b s' (List.mem_cons_of_mem a mem)) ?_
      exact keep s a t List.mem_cons_self hf h

/-- The sequences part: an update is reached that fails for `g` only. -/
def Part (f g : σ → α → Option σ) (s : σ) (as : List α) : Prop :=
  ∃ pre a post s', as = pre ++ a :: post ∧ applyUpdates f s pre = (s', true) ∧
    (f s' a).isSome ∧ g s' a = none

/-- `g` does what `f` does, or fails. -/
def Refines (g f : σ → α → Option σ) : Prop :=
  ∀ s a s', g s a = some s' → f s a = some s'

/-- Sequences part behind an update that succeeds when what follows it does. -/
lemma part_cons (hf : f s a = some s') (h : Part f g s' as) : Part f g s (a :: as) := by
  obtain ⟨pre, b, post, t, rfl, reached, last⟩ := h
  refine ⟨a :: pre, b, post, t, rfl, ?_, last⟩
  rw [apply_cons_some hf]
  exact reached

/-- Without parting, the sequences agree. -/
lemma apply_eq (refines : Refines g f) (h : ¬ Part f g s as) :
    applyUpdates g s as = applyUpdates f s as := by
  induction as generalizing s with
  | nil => rfl
  | cons a as ih =>
    cases hg : g s a with
    | some t =>
      have hf := refines s a t hg
      rw [apply_cons_some hg, apply_cons_some hf]
      exact ih fun part => h (part_cons hf part)
    | none =>
      cases hf : f s a with
      | none => rw [apply_cons_none hg, apply_cons_none hf]
      | some t => exact absurd ⟨[], a, as, s, rfl, rfl, by simp [hf], hg⟩ h

/-- Where they part first, `g` stops, and `f` goes on. -/
lemma Part.first (refines : Refines g f) (h : Part f g s as) :
    ∃ pre a post s' t, as = pre ++ a :: post ∧ applyUpdates f s pre = (s', true) ∧
      f s' a = some t ∧ g s' a = none ∧ applyUpdates g s as = (s', false) ∧
      applyUpdates f s as = applyUpdates f t post := by
  induction as generalizing s with
  | nil =>
    obtain ⟨pre, a, post, _, eq, _⟩ := h
    exact absurd eq (by simp)
  | cons a as ih =>
    cases hg : g s a with
    | none =>
      cases hf : f s a with
      | none =>
        obtain ⟨pre, b, post, t, eq, reached, succeeds, _⟩ := h
        cases pre with
        | nil =>
          cases eq
          cases reached
          rw [hf] at succeeds
          cases succeeds
        | cons c pre =>
          cases eq
          rw [apply_cons_none hf] at reached
          cases reached
      | some t => exact ⟨[], a, as, s, t, rfl, rfl, hf, hg, apply_cons_none hg, apply_cons_some hf⟩
    | some u =>
      have hf := refines s a u hg
      have later : Part f g u as := by
        obtain ⟨pre, b, post, t, eq, reached, succeeds, fails⟩ := h
        cases pre with
        | nil =>
          cases eq
          cases reached
          rw [hg] at fails
          cases fails
        | cons c pre =>
          cases eq
          rw [apply_cons_some hf] at reached
          exact ⟨pre, b, post, t, rfl, reached, succeeds, fails⟩
      obtain ⟨pre, b, post, s', t, rfl, reached, next, fails, stops, goes⟩ := ih later
      refine ⟨a :: pre, b, post, s', t, rfl, ?_, next, fails, ?_, ?_⟩
      · rw [apply_cons_some hf, reached]
      · rw [apply_cons_some hg, stops]
      · rw [apply_cons_some hf, goes]

end Updates
