import Rwasm.Isa.DivisionLoop
import Rwasm.Isa.Division

/-!
# The signed division

The sequence of `i64.div_s` traps for a divisor of zero and for the one quotient that is too large. It
divides the magnitudes in a single loop and negates the quotient where the signs differ.
-/

namespace Rwasm

open UntypedValue LongDivision InstructionSet

variable {below : List UntypedValue} {lo hi nl nh dl dh a b c d e f g h i : UntypedValue}

/-- The stack of the loop; the high limbs of the operands stay for their signs. -/
def divSStack (lo hi nh dh : UntypedValue) (below : List UntypedValue) (k : UntypedValue)
    (r : DivisionLimbs) (t : UntypedValue × UntypedValue) : List UntypedValue :=
  t.1 :: r.quotLo :: r.quotHi :: r.remLo :: k :: lo :: hi :: r.restHi :: r.restLo :: dh :: r.remHi ::
    nh :: t.2 :: below

/-- The loop of the signed division is that of long division. -/
lemma divS_loop (lo hi nh dh : UntypedValue) (below : List UntypedValue) :
    DivisionLoop opI64DivS 96 173 (joinLimbs lo hi) (divSStack lo hi nh dh below) := by
  intro k r t
  have gt : (stackMachine opI64DivS).Steps ⟨96, divSStack lo hi nh dh below k r t⟩
      ⟨114, ofBool (hi.ult r.nextHi) :: t.1 :: r.quotLo :: r.quotHi :: r.remLo :: k :: lo :: hi ::
        r.restHi :: r.restLo :: dh :: r.nextHi :: nh :: r.nextLo :: below⟩ := straight 18 rfl
  exact division_turn 120 124 125 128 172 _ (0, r.nextLo) (1, r.nextLo) gt rfl rfl (straight 5 rfl)
    rfl rfl (straight 3 rfl) rfl rfl rfl (straight 33 rfl) (straight 44 rfl) (straight 44 rfl)
    rfl rfl rfl

/-- Negation, with the carry read off the limb before. -/
lemma joinLimbs_neg' (lo hi : UntypedValue) :
    joinLimbs (0 - lo) (ofBool (lo == 0) + (hi ^^^ -1)) = -joinLimbs lo hi := by
  have carry : (lo == 0) = (0 - lo == 0) := by
    rw [Bool.eq_iff_iff, beq_iff_eq, beq_iff_eq, zero_sub, neg_eq_zero]
  rw [carry, joinLimbs_neg]

/-- The quotient is that of the magnitudes, negated where the signs differ. -/
lemma sdiv_magnitudes (n d : BitVec 64) :
    n.sdiv d = if (d.msb ^^ n.msb) then -(n.abs / d.abs) else n.abs / d.abs := by
  rw [BitVec.sdiv_eq, BitVec.abs, BitVec.abs]
  cases n.msb <;> cases d.msb <;> rfl

section Start

/-- The stack in front of the loop, with room for the magnitudes. -/
def divSOperands (below : List UntypedValue) (nl nh dl dh nl' nh' dl' dh' : UntypedValue) :
    List UntypedValue :=
  0 :: 0 :: 0 :: 0 :: 0 :: dl' :: dh' :: nh' :: nl' :: dh :: dl :: nh :: nl :: below

/-- The magnitude of the divisor, for a dividend whose magnitude is there. -/
lemma divS_negate_divisor :
    (stackMachine opI64DivS).Steps ⟨75, divSOperands below nl nh dl dh a b c d⟩
      ⟨86, divSOperands below nl nh dl dh a b (0 - dl) (ofBool (dl == 0) + (dh ^^^ -1))⟩ :=
  straight 11 rfl

/-- The magnitudes of the operands, where the quotient is not too large for a reason seen in the
high limbs. -/
lemma divS_operands :
    ∃ nl' nh' dl' dh', joinLimbs nl' nh' = (joinLimbs nl nh).abs ∧
      joinLimbs dl' dh' = (joinLimbs dl dh).abs ∧
      (stackMachine opI64DivS).Steps ⟨29, divSOperands below nl nh dl dh 0 0 0 0⟩
        ⟨86, divSOperands below nl nh dl dh nl' nh' dl' dh'⟩ := by
  have sign : ofBool ((-1 : UntypedValue).slt nh) = ofBool (!(joinLimbs nl nh).msb) := by
    rw [msb_joinLimbs, ← sle_neg_one, BitVec.sle_eq_not_slt, Bool.not_not]
  have sign' : dh.slt 0 = (joinLimbs dl dh).msb := by
    rw [msb_joinLimbs, ← BitVec.slt_zero_eq_msb]
    rfl
  have sign'' : dh.sle (-1) = (joinLimbs dl dh).msb := by
    rw [sle_neg_one, msb_joinLimbs]
  have start : (stackMachine opI64DivS).Steps ⟨29, divSOperands below nl nh dl dh 0 0 0 0⟩
      ⟨32, ofBool ((-1 : UntypedValue).slt nh) :: divSOperands below nl nh dl dh 0 0 0 0⟩ :=
    straight 3 rfl
  rw [sign] at start
  rw [BitVec.abs, BitVec.abs]
  cases n_sign : (joinLimbs nl nh).msb with
  | true =>
    rw [n_sign] at start
    have negated : (stackMachine opI64DivS).Steps ⟨33, divSOperands below nl nh dl dh 0 0 0 0⟩
        ⟨47, ofBool (dh.slt 0) ::
          divSOperands below nl nh dl dh (0 - nl) (ofBool (nl == 0) + (nh ^^^ -1)) 0 0⟩ :=
      straight 14 rfl
    rw [sign'] at negated
    have run := start.trans ((brIfNez_passed rfl rfl).trans negated)
    cases d_sign : (joinLimbs dl dh).msb with
    | true =>
      rw [d_sign] at run
      exact ⟨_, _, _, _, joinLimbs_neg' nl nh, joinLimbs_neg' dl dh,
        run.trans ((brIfNez_taken rfl rfl rfl).trans divS_negate_divisor)⟩
    | false =>
      rw [d_sign] at run
      exact ⟨_, _, _, _, joinLimbs_neg' nl nh, rfl,
        run.trans ((brIfNez_passed rfl rfl).trans (straight 6 rfl))⟩
  | false =>
    rw [n_sign] at start
    have kept : (stackMachine opI64DivS).Steps ⟨49, divSOperands below nl nh dl dh 0 0 0 0⟩
        ⟨56, ofBool (dh.sle (-1)) :: divSOperands below nl nh dl dh nl nh 0 0⟩ := straight 7 rfl
    rw [sign''] at kept
    have run := start.trans ((brIfNez_taken rfl rfl rfl).trans kept)
    cases d_sign : (joinLimbs dl dh).msb with
    | true =>
      rw [d_sign] at run
      exact ⟨_, _, _, _, rfl, joinLimbs_neg' dl dh,
        run.trans ((brIfNez_taken rfl rfl rfl).trans divS_negate_divisor)⟩
    | false =>
      rw [d_sign] at run
      exact ⟨_, _, _, _, rfl, rfl, run.trans ((brIfNez_passed rfl rfl).trans (straight 9 rfl))⟩

end Start

section Finish

/-- The end of the sequence: the limbs are packed with shifts by the constant 32 and moved down. -/
lemma divS_pack :
    (stackMachine opI64DivS).Steps
      ⟨193, i :: h :: hi :: g :: f :: e :: d :: c :: b :: dh :: lo :: nh :: a :: below⟩
      ⟨257, pushValue (.i64 (joinLimbs lo hi)) below⟩ := by
  have run : (stackMachine opI64DivS).Steps
      ⟨193, i :: h :: hi :: g :: f :: e :: d :: c :: b :: dh :: lo :: nh :: a :: below⟩
      ⟨257, (0 ||| hi <<< 0) :: (lo ||| 0) :: below⟩ := straight 46 rfl
  have packed : pushValue (.i64 (joinLimbs lo hi)) below = (0 ||| hi <<< 0) :: (lo ||| 0) :: below := by
    simp [pushValue]
  rwa [packed]

/-- The quotient gets its sign. -/
lemma divS_finish :
    (stackMachine opI64DivS).Steps
      ⟨173, i :: lo :: hi :: g :: f :: e :: d :: c :: b :: dh :: a :: nh :: h :: below⟩
      ⟨257, pushValue (.i64 (if (dh.msb ^^ nh.msb) then -joinLimbs lo hi else joinLimbs lo hi))
        below⟩ := by
  have sign : (dh ^^^ nh).sle (-1) = (dh.msb ^^ nh.msb) := by
    rw [sle_neg_one, BitVec.msb_xor]
  have start : (stackMachine opI64DivS).Steps
      ⟨173, i :: lo :: hi :: g :: f :: e :: d :: c :: b :: dh :: a :: nh :: h :: below⟩
      ⟨178, ofBool ((dh ^^^ nh).sle (-1)) :: i :: lo :: hi :: g :: f :: e :: d :: c :: b :: dh :: a ::
        nh :: h :: below⟩ := straight 5 rfl
  rw [sign] at start
  refine start.trans ?_
  cases dh.msb ^^ nh.msb with
  | true =>
    show (stackMachine opI64DivS).Steps _ ⟨257, pushValue (.i64 (-joinLimbs lo hi)) below⟩
    rw [← joinLimbs_neg']
    exact (brIfNez_taken rfl rfl rfl).trans ((straight 11 rfl).trans divS_pack)
  | false => exact (brIfNez_passed rfl rfl).trans ((straight 3 rfl).trans divS_pack)

end Finish

/-- From the magnitudes on. -/
lemma divS_divides {nl' nh' dl' dh' : UntypedValue}
    (hn : joinLimbs nl' nh' = (joinLimbs nl nh).abs) (hd : joinLimbs dl' dh' = (joinLimbs dl dh).abs)
    (ne : joinLimbs dl dh ≠ 0) :
    (stackMachine opI64DivS).Steps ⟨86, divSOperands below nl nh dl dh nl' nh' dl' dh'⟩
      ⟨257, pushValue (.i64 ((joinLimbs nl nh).sdiv (joinLimbs dl dh))) below⟩ := by
  have ne' : joinLimbs dl' dh' ≠ 0 := by
    rw [hd, BitVec.abs]
    split
    · exact neg_ne_zero.mpr ne
    · exact ne
  obtain ⟨r, t, quot, -, run⟩ := (divS_loop dl' dh' nh dh below).divides ne' hn (0, nl)
  have enter : (stackMachine opI64DivS).Steps ⟨86, divSOperands below nl nh dl dh nl' nh' dl' dh'⟩
      ⟨96, divSStack dl' dh' nh dh below 64 ⟨nl', nh', 0, 0, 0, 0⟩ (0, nl)⟩ := straight 10 rfl
  rw [sdiv_magnitudes, ← hd, ← quot, msb_joinLimbs, msb_joinLimbs]
  exact enter.trans (run.trans divS_finish)

section Overflow

/-- The least number and minus one, limb by limb. -/
lemma overflow_iff :
    (joinLimbs nl nh).toInt = -2 ^ 63 ∧ (joinLimbs dl dh).toInt = -1 ↔
      nh = -2147483648 ∧ dh = -1 ∧ nl = 0 ∧ dl = -1 := by
  have least : (joinLimbs 0 (-2147483648)).toInt = -2 ^ 63 := by decide +kernel
  have minus : (joinLimbs (-1) (-1)).toInt = -1 := by decide +kernel
  rw [← least, ← minus, BitVec.toInt_inj, BitVec.toInt_inj, joinLimbs_inj, joinLimbs_inj]
  constructor
  · rintro ⟨⟨lo, hi⟩, lo', hi'⟩
    exact ⟨hi, hi', lo, lo'⟩
  · rintro ⟨hi, hi', lo, lo'⟩
    exact ⟨⟨lo, hi⟩, lo', hi'⟩

/-- Where the high limbs are those of the least number and of minus one, the high limb of the
magnitude is chosen by the low one. -/
lemma divS_least (hn : nh = -2147483648) (hd : dh = -1) :
    ∃ nl' nh' dl' dh', joinLimbs nl' nh' = (joinLimbs nl nh).abs ∧
      joinLimbs dl' dh' = (joinLimbs dl dh).abs ∧
      (stackMachine opI64DivS).Steps ⟨66, divSOperands below nl nh dl dh 0 0 0 0⟩
        ⟨86, divSOperands below nl nh dl dh nl' nh' dl' dh'⟩ := by
  have negative : (joinLimbs nl nh).msb = true ∧ (joinLimbs dl dh).msb = true := by
    rw [msb_joinLimbs, msb_joinLimbs, hn, hd]
    exact ⟨rfl, rfl⟩
  have chosen : (if nl.toBool then 2147483647 else -2147483648) = ofBool (nl == 0) + (nh ^^^ -1) := by
    rw [hn, UntypedValue.toBool, bne]
    cases nl == 0 <;> rfl
  have select : (stackMachine opI64DivS).Steps ⟨66, divSOperands below nl nh dl dh 0 0 0 0⟩
      ⟨75, divSOperands below nl nh dl dh (0 - nl)
        (if nl.toBool then 2147483647 else -2147483648) 0 0⟩ := straight 9 rfl
  rw [chosen] at select
  rw [BitVec.abs, BitVec.abs, if_pos negative.1, if_pos negative.2]
  exact ⟨_, _, _, _, joinLimbs_neg' nl nh, joinLimbs_neg' dl dh, select.trans divS_negate_divisor⟩

/-- The tests for the quotient that is too large. -/
lemma divS_tests :
    (stackMachine opI64DivS).Steps ⟨14, divSOperands below nl nh dl dh 0 0 0 0⟩
      ⟨if nh = -2147483648 ∧ dh = -1 then if nl = 0 ∧ dl = -1 then 28 else 66 else 29,
        divSOperands below nl nh dl dh 0 0 0 0⟩ := by
  have high : (stackMachine opI64DivS).Steps ⟨14, divSOperands below nl nh dl dh 0 0 0 0⟩
      ⟨17, ofBool (nh != -2147483648) :: divSOperands below nl nh dl dh 0 0 0 0⟩ := straight 3 rfl
  have high' : (stackMachine opI64DivS).Steps ⟨18, divSOperands below nl nh dl dh 0 0 0 0⟩
      ⟨21, ofBool (dh != -1) :: divSOperands below nl nh dl dh 0 0 0 0⟩ := straight 3 rfl
  have low : (stackMachine opI64DivS).Steps ⟨22, divSOperands below nl nh dl dh 0 0 0 0⟩
      ⟨23, nl :: divSOperands below nl nh dl dh 0 0 0 0⟩ := straight 1 rfl
  have low' : (stackMachine opI64DivS).Steps ⟨24, divSOperands below nl nh dl dh 0 0 0 0⟩
      ⟨27, ofBool (dl != -1) :: divSOperands below nl nh dl dh 0 0 0 0⟩ := straight 3 rfl
  by_cases h₁ : nh = -2147483648
  · have run := high.trans ((brIfNez_passed rfl (by rw [h₁]; rfl)).trans high')
    by_cases h₂ : dh = -1
    · have run := run.trans ((brIfNez_passed rfl (by rw [h₂]; rfl)).trans low)
      rw [if_pos ⟨h₁, h₂⟩]
      by_cases h₃ : nl = 0
      · have run := run.trans ((brIfNez_passed rfl (by rw [h₃]; rfl)).trans low')
        by_cases h₄ : dl = -1
        · rw [if_pos ⟨h₃, h₄⟩]
          exact run.trans (brIfNez_passed rfl (by rw [h₄]; rfl))
        · rw [if_neg (fun h => h₄ h.2)]
          exact run.trans (brIfNez_taken rfl (by simpa using h₄) rfl)
      · rw [if_neg (fun h => h₃ h.1)]
        exact run.trans (brIfNez_taken rfl (bne_iff_ne.mpr h₃) rfl)
    · rw [if_neg (fun h => h₂ h.2)]
      exact run.trans (brIfNez_taken rfl (by simpa using h₂) rfl)
  · rw [if_neg (fun h => h₁ h.1)]
    exact high.trans (brIfNez_taken rfl (by simpa using h₁) rfl)

end Overflow

/-- The length of the code, which is where it ends. -/
lemma length_opI64DivS : opI64DivS.length = 257 := by
  decide +kernel

/-- The test of the divisor. -/
lemma divS_start :
    (stackMachine opI64DivS).Steps ⟨0, dh :: dl :: nh :: nl :: below⟩
      ⟨12, (dh ||| dl) :: divSOperands below nl nh dl dh 0 0 0 0⟩ :=
  straight 12 rfl

/-- `i64.div_s` pushes the quotient rounded towards zero. It traps exactly where the divisor is zero,
and where the least number is divided by minus one. -/
theorem opI64DivS_implements :
    Implements opI64DivS fun n d =>
      if d = 0 then .error .integerDivisionByZero
      else if n.toInt = -2 ^ 63 ∧ d.toInt = -1 then .error .integerOverflow
      else .ok (BitVec.ofInt 64 (n.toInt.tdiv d.toInt)) := by
  have divisor : ∀ {below nl nh dl dh}, joinLimbs dl dh ≠ 0 →
      (stackMachine opI64DivS).Steps ⟨0, dh :: dl :: nh :: nl :: below⟩
        ⟨14, divSOperands below nl nh dl dh 0 0 0 0⟩ := by
    intro below nl nh dl dh ne
    have test : (dh ||| dl).toBool = true := by
      rw [UntypedValue.toBool, bne_iff_ne]
      intro zero
      obtain ⟨hi, lo⟩ := BitVec.or_eq_zero_iff.mp zero
      exact ne (joinLimbs_eq_zero_iff.mpr ⟨lo, hi⟩)
    exact divS_start.trans (brIfNez_taken rfl test rfl)
  refine @implements_of_stackMachine _ _ (fun n d v below eq => ?_) (fun n d trap below eq => ?_)
  · split at eq
    next => cases eq
    next ne =>
      split at eq
      next => cases eq
      next fits =>
        obtain rfl : n.sdiv d = v := by
          rw [← Except.ok.inj eq]
          apply BitVec.eq_of_toInt_eq
          rw [BitVec.toInt_ofInt, BitVec.toInt_sdiv]
        obtain ⟨nl, nh, rfl⟩ := exists_limbs n
        obtain ⟨dl, dh, rfl⟩ := exists_limbs d
        rw [overflow_iff] at fits
        have tests := @divS_tests below nl nh dl dh
        rw [length_opI64DivS]
        simp only [pushValue, split_joinLimbs]
        refine (divisor ne).trans ?_
        by_cases high : nh = -2147483648 ∧ dh = -1
        · have low : ¬ (nl = 0 ∧ dl = -1) := fun low => fits ⟨high.1, high.2, low⟩
          rw [if_pos high, if_neg low] at tests
          obtain ⟨nl', nh', dl', dh', hn, hd, run⟩ := @divS_least below nl nh dl dh high.1 high.2
          exact tests.trans (run.trans (divS_divides hn hd ne))
        · rw [if_neg high] at tests
          obtain ⟨nl', nh', dl', dh', hn, hd, run⟩ := @divS_operands below nl nh dl dh
          exact tests.trans (run.trans (divS_divides hn hd ne))
  · obtain ⟨nl, nh, rfl⟩ := exists_limbs n
    obtain ⟨dl, dh, rfl⟩ := exists_limbs d
    simp only [pushValue, split_joinLimbs]
    split at eq
    next zero =>
      cases eq
      obtain ⟨rfl, rfl⟩ := joinLimbs_eq_zero_iff.mp zero
      exact (divS_start.trans (brIfNez_passed rfl rfl)).halts (.now rfl)
    next ne =>
      split at eq
      next large =>
        cases eq
        obtain ⟨h₁, h₂, low⟩ := overflow_iff.mp large
        have tests := @divS_tests below nl nh dl dh
        rw [if_pos ⟨h₁, h₂⟩, if_pos low] at tests
        exact ((divisor ne).trans tests).halts (.now rfl)
      next => cases eq

end Rwasm
