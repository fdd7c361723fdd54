import Rwasm.Library.Machine

/-!
# Machines under a budget

A machine follows another one as long as what that one has spent stays within a budget, and stops as
exhausted where it would not. The two then agree on every run that stays within the budget, and the follower
is exhausted on every other run that stops.

Nothing here depends on what is spent.
-/

namespace Machine

variable {σ τ ρ ρ' : Type*} {M : Machine σ ρ} {N : Machine τ ρ'} {s s' : σ} {t : τ} {r : ρ} {r' : ρ'}

/-- `N` follows `M` from related states. The states and results of `M` that are within the budget are given by
`Fits` and `Within`; where a step of `M` leaves the budget, `N` stops with an exhausted result. What is spent
is never given back, which `I` may be needed for. -/
structure Follows (M : Machine σ ρ) (N : Machine τ ρ') (I Fits : σ → Prop) (Within : ρ → Prop)
    (R : σ → τ → Prop) (Q : ρ → ρ' → Prop) (Exhausted : ρ' → Prop) : Prop where
  invariant : ∀ s t, R s t → I s
  keep : ∀ s s', I s → M.step s = .next s' → I s'
  spent : ∀ s s', I s → M.step s = .next s' → Fits s' → Fits s
  spent_halt : ∀ s r, I s → M.step s = .halt r → Within r → Fits s
  next : ∀ s t s', R s t → M.step s = .next s' → Fits s' → ∃ t', N.step t = .next t' ∧ R s' t'
  exhausted : ∀ s t s', R s t → M.step s = .next s' → ¬ Fits s' →
    ∃ r', N.step t = .halt r' ∧ Exhausted r'
  halt : ∀ s t r, R s t → M.step s = .halt r →
    ∃ r', N.step t = .halt r' ∧ (Q r r' ∨ ¬ Within r ∧ Exhausted r')

namespace Follows

variable {I Fits : σ → Prop} {Within : ρ → Prop} {R : σ → τ → Prop} {Q : ρ → ρ' → Prop}
  {Exhausted : ρ' → Prop}

/-- A run that ends within the budget has been within it all along. -/
lemma fits (h : M.Follows N I Fits Within R Q Exhausted) (i : I s) (halts : M.Halts s r)
    (within_ : Within r) : Fits s := by
  obtain ⟨t, st, e⟩ := halts
  induction st using Relation.ReflTransGen.head_induction_on with
  | refl => exact h.spent_halt _ _ i e within_
  | head hs _ ih => exact h.spent _ _ i hs (ih (h.keep _ _ i hs))

/-- Each state of the follower is related to one of the machine it follows. -/
theorem steps (h : M.Follows N I Fits Within R Q Exhausted) {t' : τ} (related : R s t)
    (st : N.Steps t t') : ∃ s', M.Steps s s' ∧ R s' t' := by
  induction st with
  | refl => exact ⟨s, .refl, related⟩
  | @tail t₁ t₂ _ ht ih =>
    rw [Step] at ht
    obtain ⟨s₁, st₁, related₁⟩ := ih
    cases hs : M.step s₁ with
    | next s₂ =>
      by_cases fits : Fits s₂
      · obtain ⟨u, step, related₂⟩ := h.next _ _ _ related₁ hs fits
        rw [ht] at step
        cases step
        exact ⟨s₂, st₁.trans (.single hs), related₂⟩
      · obtain ⟨r', step, -⟩ := h.exhausted _ _ _ related₁ hs fits
        rw [ht] at step
        cases step
    | halt r =>
      obtain ⟨r', step, -⟩ := h.halt _ _ _ related₁ hs
      rw [ht] at step
      cases step

/-- A run that ends within the budget is followed to its end. -/
theorem halts_within (h : M.Follows N I Fits Within R Q Exhausted) (related : R s t)
    (halts : M.Halts s r) (within_ : Within r) : ∃ r', N.Halts t r' ∧ Q r r' := by
  obtain ⟨u, st, e⟩ := halts
  induction st using Relation.ReflTransGen.head_induction_on generalizing t with
  | refl =>
    obtain ⟨r', stops, q | ⟨over_, -⟩⟩ := h.halt _ _ _ related e
    · exact ⟨r', .now stops, q⟩
    · exact absurd within_ over_
  | head hs st ih =>
    have i := h.keep _ _ (h.invariant _ _ related) hs
    have fits := h.fits i ⟨u, st, e⟩ within_
    obtain ⟨t', step, related'⟩ := h.next _ _ _ related hs fits
    obtain ⟨r', stops, q⟩ := ih related'
    exact ⟨r', (Steps.single step).halts stops, q⟩

/-- A run that ends is followed to its end, or the follower is exhausted. -/
theorem halts_or_exhausted (h : M.Follows N I Fits Within R Q Exhausted) (related : R s t)
    (halts : M.Halts s r) : ∃ r', N.Halts t r' ∧ (Q r r' ∨ Exhausted r') := by
  obtain ⟨u, st, e⟩ := halts
  induction st using Relation.ReflTransGen.head_induction_on generalizing t with
  | refl =>
    obtain ⟨r', stops, result⟩ := h.halt _ _ _ related e
    exact ⟨r', .now stops, result.imp id (·.2)⟩
  | @head s s' hs st ih =>
    by_cases fits : Fits s'
    · obtain ⟨t', step, related'⟩ := h.next _ _ _ related hs fits
      obtain ⟨r', stops, result⟩ := ih related'
      exact ⟨r', (Steps.single step).halts stops, result⟩
    · obtain ⟨r', step, exhausted⟩ := h.exhausted _ _ _ related hs fits
      exact ⟨r', .now step, .inr exhausted⟩

/-- A follower that is not exhausted has followed a run to its end. -/
theorem exhausted_or_halts (h : M.Follows N I Fits Within R Q Exhausted) (related : R s t)
    (halts : N.Halts t r') : Exhausted r' ∨ ∃ r, M.Halts s r ∧ Q r r' := by
  obtain ⟨u, st, e⟩ := halts
  induction st using Relation.ReflTransGen.head_induction_on generalizing s with
  | refl =>
    cases hs : M.step s with
    | next s' =>
      by_cases fits : Fits s'
      · obtain ⟨t', step, -⟩ := h.next _ _ _ related hs fits
        rw [e] at step
        cases step
      · obtain ⟨r₁, step, exhausted⟩ := h.exhausted _ _ _ related hs fits
        rw [e] at step
        cases step
        exact .inl exhausted
    | halt r =>
      obtain ⟨r₁, step, result⟩ := h.halt _ _ _ related hs
      rw [e] at step
      cases step
      rcases result with q | ⟨-, exhausted⟩
      · exact .inr ⟨r, .now hs, q⟩
      · exact .inl exhausted
  | @head t t' ht st ih =>
    rw [Step] at ht
    cases hs : M.step s with
    | next s' =>
      by_cases fits : Fits s'
      · obtain ⟨t₁, step, related'⟩ := h.next _ _ _ related hs fits
        rw [ht] at step
        cases step
        rcases ih related' with exhausted | ⟨r, stops, q⟩
        · exact .inl exhausted
        · exact .inr ⟨r, (Steps.single hs).halts stops, q⟩
      · obtain ⟨r₁, step, -⟩ := h.exhausted _ _ _ related hs fits
        rw [ht] at step
        cases step
    | halt r =>
      obtain ⟨r₁, step, -⟩ := h.halt _ _ _ related hs
      rw [ht] at step
      cases step

end Follows

end Machine
