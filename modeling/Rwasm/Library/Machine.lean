import Mathlib

/-!
# Deterministic machines

A machine is a step function that either moves to a next state or stops with a result. This file
holds the run relations of such machines and the rules used to reason about them: runs compose, a
result is unique, an invariant of one step is an invariant of a run, a measure that every step
decreases bounds the run, and a relation kept by one step of two machines is kept by their runs.

Nothing here depends on what the states are.
-/

/-- The outcome of one step: a next state, or a final result. -/
inductive Turn (σ ρ : Type*) where
  | next (s : σ)
  | halt (r : ρ)

/-- Turns that go on with related states, or stop with related results. -/
inductive Turn.Rel {σ τ ρ ρ' : Type*} (R : σ → τ → Prop) (Q : ρ → ρ' → Prop) : Turn σ ρ → Turn τ ρ' → Prop
  | next {s t} :
    R s t →
    Rel R Q (.next s) (.next t)
  | halt {r r'} :
    Q r r' →
    Rel R Q (.halt r) (.halt r')

/-- Related turns are related the other way round. -/
lemma Turn.Rel.flip {σ τ ρ ρ' : Type*} {R : σ → τ → Prop} {Q : ρ → ρ' → Prop} {t : Turn σ ρ}
    {u : Turn τ ρ'} (h : Turn.Rel R Q t u) : Turn.Rel (flip R) (flip Q) u t := by
  cases h with
  | next h => exact .next h
  | halt h => exact .halt h

/-- A deterministic machine with states `σ` and results `ρ`. -/
structure Machine (σ ρ : Type*) where
  step : σ → Turn σ ρ

namespace Machine

variable {σ ρ τ : Type*} {M : Machine σ ρ} {s s' s'' : σ} {r r' : ρ}

/-- One step of the machine that does not stop it. -/
def Step (M : Machine σ ρ) (s s' : σ) : Prop :=
  M.step s = .next s'

/-- Finitely many steps. -/
def Steps (M : Machine σ ρ) : σ → σ → Prop :=
  Relation.ReflTransGen M.Step

/-- The run from `s` stops with the result `r`. -/
def Halts (M : Machine σ ρ) (s : σ) (r : ρ) : Prop :=
  ∃ s', M.Steps s s' ∧ M.step s' = .halt r

/-- The machine run for at most `n` steps. -/
def run (M : Machine σ ρ) : Nat → σ → Turn σ ρ
  | 0, s => .next s
  | n + 1, s =>
    match M.step s with
    | .next s' => M.run n s'
    | .halt r => .halt r

/-- A run of no steps. -/
@[simp] lemma run_zero : M.run 0 s = .next s := rfl

/-- A run that starts with a step goes on from the next state. -/
lemma run_succ_next {n} (h : M.step s = .next s') : M.run (n + 1) s = M.run n s' := by
  simp [run, h]

/-- A run that starts with a stop has stopped. -/
lemma run_succ_halt {n} (h : M.step s = .halt r) : M.run (n + 1) s = .halt r := by
  simp [run, h]

/-- A step is a run of one step. -/
lemma Steps.single (h : M.step s = .next s') : M.Steps s s' :=
  Relation.ReflTransGen.single h

/-- No steps lead where they began. -/
lemma Steps.refl : M.Steps s s :=
  Relation.ReflTransGen.refl

/-- Runs one after the other. -/
lemma Steps.trans (h : M.Steps s s') (h' : M.Steps s' s'') : M.Steps s s'' :=
  Relation.ReflTransGen.trans h h'

/-- A run that starts with one known step. -/
lemma Steps.head (h : M.step s = .next s') (h' : M.Steps s' s'') : M.Steps s s'' :=
  Relation.ReflTransGen.head h h'

/-- A run is empty or starts with a step. -/
lemma Steps.cases (st : M.Steps s s') : s = s' ∨ ∃ s₁, M.step s = .next s₁ ∧ M.Steps s₁ s' :=
  st.cases_head

/-- A bounded run that has not stopped is a run. -/
lemma steps_of_run {n} (h : M.run n s = .next s') : M.Steps s s' := by
  induction n generalizing s with
  | zero =>
    cases h
    exact .refl
  | succ n ih =>
    simp only [run] at h
    split at h
    · exact .head ‹_› (ih h)
    · cases h

/-- A bounded run that has stopped is a run that stops. -/
lemma halts_of_run {n} (h : M.run n s = .halt r) : M.Halts s r := by
  induction n generalizing s with
  | zero => cases h
  | succ n ih =>
    simp only [run] at h
    split at h
    next s' hs =>
      obtain ⟨t, st, e⟩ := ih h
      exact ⟨t, .head hs st, e⟩
    next r' hs =>
      cases h
      exact ⟨s, .refl, hs⟩

/-- A run that stops does so within some bound. -/
lemma Halts.run (h : M.Halts s r) : ∃ n, M.run n s = .halt r := by
  obtain ⟨t, st, e⟩ := h
  induction st using Relation.ReflTransGen.head_induction_on with
  | refl => exact ⟨1, run_succ_halt e⟩
  | head hs _ ih =>
    obtain ⟨n, hn⟩ := ih
    exact ⟨n + 1, by rw [run_succ_next hs, hn]⟩

/-- The states of a run that stops after `n` steps are the first `n` of them. -/
lemma Steps.run_lt {n} (halts : M.run n s = .halt r) (st : M.Steps s s') :
    ∃ k < n, M.run k s = .next s' := by
  induction n generalizing s with
  | zero => cases halts
  | succ n ih =>
    rcases st.cases with rfl | ⟨s₁, step, st⟩
    · exact ⟨0, Nat.succ_pos n, rfl⟩
    · rw [run_succ_next step] at halts
      obtain ⟨k, lt, reached⟩ := ih halts st
      exact ⟨k + 1, Nat.succ_lt_succ lt, by rw [run_succ_next step, reached]⟩

/-- What the machine does after a run is what it does. -/
lemma Steps.halts (h : M.Steps s s') (h' : M.Halts s' r) : M.Halts s r := by
  obtain ⟨t, st, e⟩ := h'
  exact ⟨t, h.trans st, e⟩

/-- A state that stops in one step stops. -/
lemma Halts.now (h : M.step s = .halt r) : M.Halts s r :=
  ⟨s, .refl, h⟩

/-- A run that stops, and starts with a step, stops from the next state. -/
lemma Halts.tail (h : M.Halts s r) (hs : M.step s = .next s') : M.Halts s' r := by
  obtain ⟨t, st, e⟩ := h
  cases st using Relation.ReflTransGen.head_induction_on with
  | refl => rw [hs] at e; cases e
  | head hs' st =>
    rw [Step, hs] at hs'
    cases hs'
    exact ⟨t, st, e⟩

/-- A run that stops still stops with the same result after any part of it. -/
lemma Halts.of_steps (h : M.Halts s r) (st : M.Steps s s') : M.Halts s' r := by
  induction st using Relation.ReflTransGen.head_induction_on with
  | refl => exact h
  | head hs _ ih => exact ih (h.tail hs)

/-- A machine has at most one result. -/
lemma Halts.unique (h : M.Halts s r) (h' : M.Halts s r') : r = r' := by
  obtain ⟨t, st, e⟩ := h'
  obtain ⟨t', st', e'⟩ := h.of_steps st
  cases st' using Relation.ReflTransGen.head_induction_on with
  | refl =>
    rw [e] at e'
    cases e'
    rfl
  | head hs _ =>
    rw [Step, e] at hs
    cases hs

/-- A property kept by each step is kept by a run. -/
lemma Steps.preserves {I : σ → Prop} (keep : ∀ s s', I s → M.step s = .next s' → I s')
    (st : M.Steps s s') (h : I s) : I s' := by
  induction st with
  | refl => exact h
  | tail _ hs ih => exact keep _ _ ih hs

section Lockstep

variable {ρ' : Type*} {N : Machine τ ρ'} {R : σ → τ → Prop} {Q : ρ → ρ' → Prop} {t t' : τ}

/-- A relation kept by each step of two machines is kept by their runs. -/
lemma Steps.lockstep (sim : ∀ s t, R s t → Turn.Rel R Q (M.step s) (N.step t))
    (st : M.Steps s s') (h : R s t) : ∃ t', N.Steps t t' ∧ R s' t' := by
  induction st with
  | refl => exact ⟨t, .refl, h⟩
  | tail _ hs ih =>
    obtain ⟨t₁, st₁, h₁⟩ := ih
    have rel := sim _ _ h₁
    rw [Step] at hs
    rw [hs] at rel
    generalize ht : N.step t₁ = turn at rel
    cases rel with
    | next h₂ => exact ⟨_, st₁.trans (.single ht), h₂⟩

/-- Machines in lockstep stop with related results. -/
lemma Halts.lockstep (sim : ∀ s t, R s t → Turn.Rel R Q (M.step s) (N.step t))
    (halts : M.Halts s r) (h : R s t) : ∃ r', N.Halts t r' ∧ Q r r' := by
  obtain ⟨s', st, e⟩ := halts
  obtain ⟨t', st', h'⟩ := st.lockstep sim h
  have rel := sim _ _ h'
  rw [e] at rel
  generalize ht : N.step t' = turn at rel
  cases rel with
  | halt q => exact ⟨_, ⟨t', st', ht⟩, q⟩

end Lockstep

/-- The machine that runs only inside `P`: it stops with the first state outside, and with what the
machine itself stops with. -/
def within (M : Machine σ ρ) (P : σ → Prop) [DecidablePred P] : Machine σ (Turn σ ρ) where
  step s :=
    if P s then
      match M.step s with
      | .next s' => .next s'
      | .halt r => .halt (.halt r)
    else
      .halt (.next s)

section Within

variable {P : σ → Prop} [DecidablePred P]

/-- Inside the machine goes on as it does. -/
lemma within_next (hP : P s) (h : M.step s = .next s') : (M.within P).step s = .next s' := by
  simp [within, hP, h]

/-- Inside it halts as it does. -/
lemma within_halt (hP : P s) (h : M.step s = .halt r) :
    (M.within P).Halts s (.halt r) :=
  .now (by simp [within, hP, h])

/-- Outside it halts at once. -/
lemma within_exit (hP : ¬ P s) : (M.within P).Halts s (.next s) :=
  .now (by simp [within, hP])

/-- What a step inside `P` is. -/
lemma within_step_iff : (M.within P).step s = .next s' ↔ P s ∧ M.step s = .next s' := by
  constructor
  · intro h
    unfold within at h
    dsimp only at h
    split at h
    next hP =>
      split at h
      · cases h
        exact ⟨hP, ‹_›⟩
      · cases h
    · cases h
  · rintro ⟨hP, h⟩
    exact within_next hP h

/-- What runs inside `P` runs. -/
lemma Steps.of_within (st : (M.within P).Steps s s') : M.Steps s s' := by
  induction st with
  | refl => exact .refl
  | tail _ h ih => exact ih.trans (.single (within_step_iff.mp h).2)

/-- What stops the machine inside `P` stops it. -/
lemma Halts.of_within (h : (M.within P).Halts s (.halt r)) : M.Halts s r := by
  obtain ⟨t, st, e⟩ := h
  refine ⟨t, st.of_within, ?_⟩
  unfold within at e
  dsimp only at e
  split at e
  · split at e
    · cases e
    · cases e
      assumption
  · cases e

/-- What stops the machine inside `P`. -/
lemma within_halt_iff {t : Turn σ ρ} : (M.within P).step s = .halt t ↔
    P s ∧ (∃ r, M.step s = .halt r ∧ t = .halt r) ∨ ¬ P s ∧ t = .next s := by
  by_cases hP : P s
  · cases step : M.step s <;> simp [within, hP, step, eq_comm]
  · simp [within, hP, eq_comm]

section Nested

variable {Q : σ → Prop} [DecidablePred Q] {t : Turn σ ρ}

/-- A run inside `Q` that stops where `P` is left too is one inside `P`. -/
lemma Halts.widen (h : (M.within Q).Halts s t) (inner : ∀ s', Q s' → P s')
    (left : ∀ s', t = .next s' → ¬ P s') : (M.within P).Halts s t := by
  obtain ⟨u, st, stop⟩ := h
  refine ⟨u, ?_, within_halt_iff.mpr ?_⟩
  · refine st.lift id fun s₁ s₂ step => ?_
    obtain ⟨hQ, step⟩ := within_step_iff.mp step
    exact within_next (inner _ hQ) step
  · rcases within_halt_iff.mp stop with ⟨hQ, stop⟩ | ⟨-, rfl⟩
    · exact .inl ⟨inner _ hQ, stop⟩
    · exact .inr ⟨left u rfl, rfl⟩

/-- A run inside `P` that never leaves `Q` before is one inside `Q`. -/
lemma Halts.narrow (h : (M.within P).Halts s t) (inner : ∀ s', Q s' → P s')
    (inside : ∀ s', (M.within P).Steps s s' → P s' → Q s') : (M.within Q).Halts s t := by
  obtain ⟨u, st, stop⟩ := h
  refine ⟨u, ?_, within_halt_iff.mpr ?_⟩
  · clear stop
    induction st with
    | refl => exact .refl
    | @tail s₁ s₂ st step ih =>
      obtain ⟨hP, step⟩ := within_step_iff.mp step
      exact ih.trans (.single (within_next (inside _ st hP) step))
  · rcases within_halt_iff.mp stop with ⟨hP, stop⟩ | ⟨hP, rfl⟩
    · exact .inl ⟨inside u st hP, stop⟩
    · exact .inr ⟨fun hQ => hP (inner u hQ), rfl⟩

/-- If the run stops where `P` is left too, it is in `Q` until then. -/
lemma Halts.inside (h : (M.within Q).Halts s t) (left : ∀ s', t = .next s' → ¬ P s')
    (st : (M.within P).Steps s s') (hP : P s') : Q s' := by
  have stays : ∀ u, (M.within Q).Halts u t → P u → Q u := by
    intro u halts hP
    by_contra hQ
    exact left u (halts.unique (within_exit hQ)) hP
  refine stays s' ?_ hP
  clear hP
  induction st with
  | refl => exact h
  | tail _ step ih =>
    obtain ⟨hP, step⟩ := within_step_iff.mp step
    exact ih.tail (within_next (stays _ ih hP) step)

end Nested

end Within

section Until

variable {N : Machine σ ρ} {P : σ → Prop} {t : σ}

/-- The first state of a run in `P`. -/
inductive Until (M : Machine σ ρ) (P : σ → Prop) : σ → σ → Prop
  | here {u} :
    P u →
    Until M P u u
  | step {u u' v} :
    ¬ P u →
    M.step u = .next u' →
    Until M P u' v →
    Until M P u v

/-- The run ends where the property holds. -/
lemma Until.mem (h : M.Until P s t) : P t := by
  induction h with
  | here hP => exact hP
  | step _ _ _ ih => exact ih

/-- It is a run. -/
lemma Until.steps (h : M.Until P s t) : M.Steps s t := by
  induction h with
  | here => exact .refl
  | step _ step _ ih => exact .head step ih

/-- Machines that do the same outside of `P` come to the same states in it. -/
lemma Until.congr (agree : ∀ s, ¬ P s → M.step s = N.step s) (h : M.Until P s t) : N.Until P s t := by
  induction h with
  | here hP => exact .here hP
  | step hP step _ ih => exact .step hP ((agree _ hP).symm.trans step) ih

/-- A run that stops either never comes to `P`, or comes to a first state in it. -/
lemma Halts.until_or (agree : ∀ s, ¬ P s → M.step s = N.step s) (h : M.Halts s r) :
    N.Halts s r ∨ ∃ t, M.Until P s t := by
  obtain ⟨u, st, stop⟩ := h
  induction st using Relation.ReflTransGen.head_induction_on with
  | refl =>
    by_cases hP : P u
    · exact .inr ⟨u, .here hP⟩
    · exact .inl (.now ((agree u hP).symm.trans stop))
  | @head s s' step _ ih =>
    by_cases hP : P s
    · exact .inr ⟨s, .here hP⟩
    · rcases ih with halts | ⟨t, reached⟩
      · exact .inl ((Steps.single ((agree s hP).symm.trans step)).halts halts)
      · exact .inr ⟨t, .step hP step reached⟩

/-- Machines that do the same outside of `P` have the same results exactly when they have from the first
state in `P` on. -/
theorem halts_iff_of_until (agree : ∀ s, ¬ P s → M.step s = N.step s) :
    (∀ r, M.Halts s r ↔ N.Halts s r) ↔
      ∀ t, M.Until P s t → ∀ r, M.Halts t r ↔ N.Halts t r := by
  constructor
  · intro same t reached r
    have reached' := reached.congr agree
    exact ⟨fun h => ((same r).mp (reached.steps.halts h)).of_steps reached'.steps,
      fun h => ((same r).mpr (reached'.steps.halts h)).of_steps reached.steps⟩
  · intro same r
    by_cases comes : ∃ t, M.Until P s t
    · obtain ⟨t, reached⟩ := comes
      have reached' := reached.congr agree
      exact ⟨fun h => reached'.steps.halts ((same t reached r).mp (h.of_steps reached.steps)),
        fun h => reached.steps.halts ((same t reached r).mpr (h.of_steps reached'.steps))⟩
    · refine ⟨fun h => (h.until_or agree).resolve_right comes, fun h => ?_⟩
      have agree' : ∀ s, ¬ P s → N.step s = M.step s := fun s hP => (agree s hP).symm
      refine (h.until_or agree').resolve_right ?_
      rintro ⟨t, reached⟩
      exact comes ⟨t, reached.congr agree'⟩

end Until

end Machine

/-- A turn, unless it is not allowed: then the machine stops with `bad` instead. -/
def Turn.guarded {σ ρ : Type*} (ok : Turn σ ρ → Prop) [DecidablePred ok] (bad : ρ) (t : Turn σ ρ) :
    Turn σ ρ :=
  if ok t then t else .halt bad

namespace Machine

variable {σ ρ : Type*} {M : Machine σ ρ} {s s' : σ} {r : ρ}

/-- The machine that stops with `bad` where a step of `M` is not allowed. -/
def guarded (M : Machine σ ρ) (ok : Turn σ ρ → Prop) [DecidablePred ok] (bad : ρ) : Machine σ ρ where
  step s := (M.step s).guarded ok bad

section Guarded

variable {ok : Turn σ ρ → Prop} [DecidablePred ok] {bad : ρ}

/-- What is allowed happens. -/
lemma guarded_step (h : ok (M.step s)) : (M.guarded ok bad).step s = M.step s :=
  if_pos h

/-- What is not allowed stops the machine. -/
lemma guarded_bad (h : ¬ ok (M.step s)) : (M.guarded ok bad).step s = .halt bad :=
  if_neg h

/-- A step of the guarded machine is one of the machine, and allowed. -/
lemma guarded_next_iff :
    (M.guarded ok bad).step s = .next s' ↔ M.step s = .next s' ∧ ok (.next s') := by
  constructor
  · intro h
    by_cases allowed : ok (M.step s)
    · rw [guarded_step allowed] at h
      rw [h] at allowed
      exact ⟨h, allowed⟩
    · rw [guarded_bad allowed] at h
      cases h
  · rintro ⟨h, allowed⟩
    rw [guarded_step (h ▸ allowed), h]

end Guarded

end Machine
