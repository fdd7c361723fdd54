import Rwasm.Isa.StackMachine
import Rwasm.Isa.Limbs
import Rwasm.Library.LongDivision

/-!
# The loops of the divisions

The expansions of the 64-bit divisions share one loop: shift a bit of the dividend into the remainder,
compare the remainder with the divisor limb by limb, subtract. They differ in where on the stack they
keep the limbs.
-/

namespace Rwasm

open UntypedValue LongDivision

/-- The limbs of the registers of a division. -/
structure DivisionLimbs where
  restLo : UntypedValue
  restHi : UntypedValue
  remLo : UntypedValue
  remHi : UntypedValue
  quotLo : UntypedValue
  quotHi : UntypedValue

namespace DivisionLimbs

variable {r : DivisionLimbs} {lo hi : UntypedValue}

/-- The numbers the limbs stand for. -/
def registers (r : DivisionLimbs) : Registers 64 :=
  ⟨joinLimbs r.restLo r.restHi, joinLimbs r.remLo r.remHi, joinLimbs r.quotLo r.quotHi⟩

/-- The low limb of the remainder with the next bit of the dividend. -/
def nextLo (r : DivisionLimbs) : UntypedValue :=
  r.remLo <<< 1 ||| r.restHi >>> 31

/-- The high limb of the remainder with the next bit of the dividend. -/
def nextHi (r : DivisionLimbs) : UntypedValue :=
  r.remHi <<< 1 ||| r.remLo >>> 31

/-- The limbs after a turn without a subtraction. -/
def skip (r : DivisionLimbs) : DivisionLimbs where
  restLo := r.restLo <<< 1
  restHi := r.restHi <<< 1 ||| r.restLo >>> 31
  remLo := r.nextLo
  remHi := r.nextHi
  quotLo := ofBool false ||| r.quotLo <<< 1
  quotHi := r.quotHi <<< 1 ||| r.quotLo >>> 31

/-- The limbs after a turn that subtracts the divisor. -/
def take (lo hi : UntypedValue) (r : DivisionLimbs) : DivisionLimbs where
  restLo := r.restLo <<< 1
  restHi := r.restHi <<< 1 ||| r.restLo >>> 31
  remLo := r.nextLo - lo
  remHi := r.nextHi - hi - ofBool (r.nextLo.ult lo)
  quotLo := ofBool true ||| r.quotLo <<< 1
  quotHi := r.quotHi <<< 1 ||| r.quotLo >>> 31

/-- The remainder with the next bit, over both limbs. -/
lemma joinLimbs_next (r : DivisionLimbs) :
    joinLimbs r.nextLo r.nextHi = r.registers.rem.shiftConcat r.registers.rest.msb := by
  rw [nextLo, nextHi, joinLimbs_shiftIn]
  simp only [registers, msb_joinLimbs]

/-- A turn in which the divisor does not fit. -/
lemma registers_skip (lt : joinLimbs r.nextLo r.nextHi < joinLimbs lo hi) :
    r.skip.registers = r.registers.turn (joinLimbs lo hi) := by
  rw [Registers.turn, ← joinLimbs_next, if_pos lt]
  simp only [registers, skip, joinLimbs_shl, joinLimbs_shiftBit]

/-- A turn in which the divisor is taken off. -/
lemma registers_take (nlt : ¬ joinLimbs r.nextLo r.nextHi < joinLimbs lo hi) :
    (r.take lo hi).registers = r.registers.turn (joinLimbs lo hi) := by
  rw [Registers.turn, ← joinLimbs_next, if_neg nlt]
  simp only [registers, take, joinLimbs_shl, joinLimbs_shiftBit, joinLimbs_sub]

end DivisionLimbs

section Loop

variable {code : List Opcode} {s : Cursor} {lo hi lo' hi' : UntypedValue} {i i₁ i₂ i₃ below above : Nat}
  {o₁ o₂ o₃ : Int} {st st' : List UntypedValue}

/-- Two numbers are compared by their high limbs, and by their low ones where these agree. -/
lemma compareLimbs (gt : (stackMachine code).Steps s ⟨i₁, ofBool (hi'.ult hi) :: st⟩)
    (fetch₁ : code[i₁]? = some (.brIfNez o₁)) (to₁ : (i₁ : Int) + o₁ = above)
    (ne : (stackMachine code).Steps ⟨i₁ + 1, st⟩ ⟨i₂, ofBool (hi != hi') :: st'⟩)
    (fetch₂ : code[i₂]? = some (.brIfNez o₂)) (to₂ : (i₂ : Int) + o₂ = below)
    (ge : (stackMachine code).Steps ⟨i₂ + 1, st'⟩ ⟨i₃, ofBool (lo'.ule lo) :: st'⟩)
    (fetch₃ : code[i₃]? = some (.brIfNez o₃)) (to₃ : (i₃ : Int) + o₃ = above) (next : i₃ + 1 = below) :
    joinLimbs lo hi < joinLimbs lo' hi' ∧ (stackMachine code).Steps s ⟨below, st'⟩ ∨
      ¬ joinLimbs lo hi < joinLimbs lo' hi' ∧
        ((stackMachine code).Steps s ⟨above, st⟩ ∨ (stackMachine code).Steps s ⟨above, st'⟩) := by
  rw [joinLimbs_lt_iff]
  cases h₁ : hi'.ult hi with
  | true =>
    have lt : hi' < hi := BitVec.ult_iff_lt.mp h₁
    refine .inr ⟨?_, .inl (gt.trans (brIfNez_taken fetch₁ (by rw [h₁]; rfl) to₁))⟩
    rintro (gt | ⟨eq, -⟩) <;> bv_omega
  | false =>
    have le : ¬ hi' < hi := by
      rw [← BitVec.ult_iff_lt, h₁]
      exact Bool.false_ne_true
    have passed := gt.trans ((brIfNez_passed fetch₁ (by rw [h₁]; rfl)).trans ne)
    cases h₂ : hi != hi' with
    | true =>
      have neq : hi ≠ hi' := bne_iff_ne.mp h₂
      exact .inl ⟨.inl (by bv_omega), passed.trans (brIfNez_taken fetch₂ (by rw [h₂]; rfl) to₂)⟩
    | false =>
      have eq : hi = hi' := by simpa using h₂
      have passed := passed.trans ((brIfNez_passed fetch₂ (by rw [h₂]; rfl)).trans ge)
      cases h₃ : lo'.ule lo with
      | true =>
        have le : lo' ≤ lo := BitVec.ule_iff_le.mp h₃
        refine .inr ⟨?_, .inr (passed.trans (brIfNez_taken fetch₃ (by rw [h₃]; rfl) to₃))⟩
        rintro (lt | ⟨-, lt⟩) <;> bv_omega
      | false =>
        have lt : ¬ lo' ≤ lo := by
          rw [← BitVec.ule_iff_le, h₃]
          exact Bool.false_ne_true
        refine .inl ⟨.inr ⟨eq, by bv_omega⟩, ?_⟩
        rw [← next]
        exact passed.trans (brIfNez_passed fetch₃ (by rw [h₃]; rfl))

/-- The branch at the end of a loop that counts down. -/
lemma brIfNez_back {k : UntypedValue} (fetch : code[i]? = some (.brIfNez o₁)) {head exit : Nat}
    (target : (i : Int) + o₁ = head) (next : i + 1 = exit) :
    (stackMachine code).Steps ⟨i, k :: st⟩ ⟨if k = 0 then exit else head, st⟩ := by
  split
  next zero =>
    rw [← next]
    exact brIfNez_passed fetch (by rw [zero]; rfl)
  next ne => exact brIfNez_taken fetch (by simpa [UntypedValue.toBool] using ne) target

variable {d n : BitVec 64} {head exit : Nat} {τ : Type}
  {frame : UntypedValue → DivisionLimbs → τ → List UntypedValue}

/-- A loop whose turns are those of long division by `d`, over some layout of its stack that has a
counter, the limbs of the registers and what else the turns overwrite. -/
def DivisionLoop (code : List Opcode) (head exit : Nat) (d : BitVec 64)
    (frame : UntypedValue → DivisionLimbs → τ → List UntypedValue) : Prop :=
  ∀ k r t, ∃ r' t', DivisionLimbs.registers r' = r.registers.turn d ∧
    (stackMachine code).Steps ⟨head, frame k r t⟩
      ⟨if k + -1 = 0 then exit else head, frame (k + -1) r' t'⟩

/-- A turn as the expansions have it: the comparison, the two ways through it and the branch back. -/
lemma division_turn {k : UntypedValue} {r : DivisionLimbs} {t : τ} {o : Int}
    (i₂ i₃ below above last : Nat) (st' : List UntypedValue) (t₁ t₂ : τ)
    (gt : (stackMachine code).Steps ⟨head, frame k r t⟩ ⟨i₁, ofBool (hi.ult r.nextHi) :: st⟩)
    (fetch₁ : code[i₁]? = some (.brIfNez o₁)) (to₁ : (i₁ : Int) + o₁ = above)
    (ne : (stackMachine code).Steps ⟨i₁ + 1, st⟩ ⟨i₂, ofBool (r.nextHi != hi) :: st'⟩)
    (fetch₂ : code[i₂]? = some (.brIfNez o₂)) (to₂ : (i₂ : Int) + o₂ = below)
    (ge : (stackMachine code).Steps ⟨i₂ + 1, st'⟩ ⟨i₃, ofBool (lo.ule r.nextLo) :: st'⟩)
    (fetch₃ : code[i₃]? = some (.brIfNez o₃)) (to₃ : (i₃ : Int) + o₃ = above) (next : i₃ + 1 = below)
    (skip : (stackMachine code).Steps ⟨below, st'⟩ ⟨last, (k + -1) :: frame (k + -1) r.skip t₁⟩)
    (take : (stackMachine code).Steps ⟨above, st⟩
      ⟨last, (k + -1) :: frame (k + -1) (r.take lo hi) t₂⟩)
    (take' : (stackMachine code).Steps ⟨above, st'⟩
      ⟨last, (k + -1) :: frame (k + -1) (r.take lo hi) t₂⟩)
    (fetch : code[last]? = some (.brIfNez o)) (back : (last : Int) + o = head) (out : last + 1 = exit) :
    ∃ r' t', DivisionLimbs.registers r' = r.registers.turn (joinLimbs lo hi) ∧
      (stackMachine code).Steps ⟨head, frame k r t⟩
        ⟨if k + -1 = 0 then exit else head, frame (k + -1) r' t'⟩ := by
  have branch := fun st => @brIfNez_back code last _ st (k + -1) fetch head exit back out
  rcases compareLimbs gt fetch₁ to₁ ne fetch₂ to₂ ge fetch₃ to₃ next with ⟨lt, run⟩ | ⟨nlt, run | run⟩
  · exact ⟨r.skip, t₁, DivisionLimbs.registers_skip lt, run.trans (skip.trans (branch _))⟩
  · exact ⟨r.take lo hi, t₂, DivisionLimbs.registers_take nlt, run.trans (take.trans (branch _))⟩
  · exact ⟨r.take lo hi, t₂, DivisionLimbs.registers_take nlt, run.trans (take'.trans (branch _))⟩

/-- The stack of a loop with `k` turns to go before the registers are `final`. -/
def TurnsLeft (d : BitVec 64) (frame : UntypedValue → DivisionLimbs → τ → List UntypedValue)
    (final : Registers 64) (k : Nat) (st : List UntypedValue) : Prop :=
  k ≤ 64 ∧ ∃ r t, st = frame (BitVec.ofNat 32 k) r t ∧ (Registers.turn d)^[k] r.registers = final

/-- A turn of the loop leaves one turn less. -/
lemma DivisionLoop.turnsLeft {final : Registers 64} (loop : DivisionLoop code head exit d frame) (k : Nat)
    (st : List UntypedValue) (h : TurnsLeft d frame final (k + 1) st) :
    ∃ st', TurnsLeft d frame final k st' ∧
      (stackMachine code).Steps ⟨head, st⟩ ⟨if k = 0 then exit else head, st'⟩ := by
  obtain ⟨le, r, t, rfl, iter⟩ := h
  obtain ⟨r', t', step, run⟩ := loop (BitVec.ofNat 32 (k + 1)) r t
  have down : BitVec.ofNat 32 (k + 1) + -1 = BitVec.ofNat 32 k := by
    rw [Nat.add_comm, ofNat_add_cancel (m := 1) (y := 0) rfl, zero_add]
  have zero : BitVec.ofNat 32 k = 0 ↔ k = 0 := by
    rw [BitVec.toNat_eq, BitVec.toNat_ofNat]
    show _ = 0 ↔ _
    omega
  simp only [down, zero] at run
  refine ⟨_, ⟨by omega, r', t', rfl, ?_⟩, run⟩
  rw [step]
  exact iter

/-- A loop of long division divides. -/
lemma DivisionLoop.divides (loop : DivisionLoop code head exit d frame) (ne : d ≠ 0)
    (eq : joinLimbs lo hi = n) (t : τ) :
    ∃ r t', joinLimbs r.quotLo r.quotHi = n / d ∧ joinLimbs r.remLo r.remHi = n % d ∧
      (stackMachine code).Steps ⟨head, frame 64 ⟨lo, hi, 0, 0, 0, 0⟩ t⟩ ⟨exit, frame 0 r t'⟩ := by
  obtain ⟨quot, rem⟩ := Registers.turns_eq n d ne
  have registers : (⟨lo, hi, 0, 0, 0, 0⟩ : DivisionLimbs).registers = ⟨n, 0, 0⟩ := by
    simp only [DivisionLimbs.registers, eq]
    rfl
  have start : TurnsLeft d frame ((Registers.turn d)^[64] ⟨n, 0, 0⟩) 64
      (frame 64 ⟨lo, hi, 0, 0, 0, 0⟩ t) :=
    ⟨le_refl 64, ⟨lo, hi, 0, 0, 0, 0⟩, t, rfl, by rw [registers]⟩
  obtain ⟨_, ⟨-, r, t', rfl, final⟩, run⟩ := countdown loop.turnsLeft start
  refine ⟨r, t', ?_, ?_, run⟩
  · rw [← quot, ← final]
    rfl
  · rw [← rem, ← final]
    rfl

end Loop

end Rwasm
