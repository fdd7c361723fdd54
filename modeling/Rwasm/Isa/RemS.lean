import Rwasm.Isa.DivisionLoop
import Rwasm.Isa.Division

/-!
# The signed remainder

The sequence of `i64.rem_s` strips the signs, divides in one of four loops, one for each choice of
signs, and gives the remainder the sign of the dividend.
-/

namespace Rwasm

open UntypedValue LongDivision InstructionSet

variable {below : List UntypedValue} {lo hi nl nh dl dh : UntypedValue}

/-- The stack of the loop for a dividend and a divisor that are not negative. -/
def remSStackPosPos (lo hi : UntypedValue) (below : List UntypedValue) (k : UntypedValue)
    (r : DivisionLimbs) (t : UntypedValue) : List UntypedValue :=
  t :: r.remLo :: k :: r.remHi :: hi :: lo :: r.restHi :: r.restLo :: below

/-- The stack of the loop for a negative divisor. -/
def remSStackPosNeg (lo hi : UntypedValue) (below : List UntypedValue) (k : UntypedValue)
    (r : DivisionLimbs) (t : UntypedValue) : List UntypedValue :=
  k :: r.remLo :: lo :: r.remHi :: t :: hi :: r.restHi :: r.restLo :: below

/-- The stack of the loop for a negative dividend. -/
def remSStackNegPos (lo hi : UntypedValue) (below : List UntypedValue) (k : UntypedValue)
    (r : DivisionLimbs) (t : UntypedValue) : List UntypedValue :=
  t :: r.restLo :: k :: r.remHi :: hi :: lo :: r.remLo :: r.restHi :: below

/-- The stack of the loop for a negative dividend and a negative divisor. -/
def remSStackNegNeg (lo hi : UntypedValue) (below : List UntypedValue) (k : UntypedValue)
    (r : DivisionLimbs) (t : UntypedValue) : List UntypedValue :=
  k :: r.restLo :: lo :: r.remHi :: t :: hi :: r.remLo :: r.restHi :: below

/-- The loop for a dividend and a divisor that are not negative. -/
lemma remS_loop_pos_pos (lo hi : UntypedValue) (below : List UntypedValue) :
    DivisionLoop opI64RemS 25 84 (joinLimbs lo hi) (remSStackPosPos lo hi below) := by
  intro k r t
  have gt : (stackMachine opI64RemS).Steps ⟨25, remSStackPosPos lo hi below k r t⟩
      ⟨43, ofBool (hi.ult r.nextHi) :: r.nextLo :: r.remLo :: k :: r.nextHi :: hi :: lo ::
        r.restHi :: r.restLo :: below⟩ := straight 18 rfl
  exact division_turn 47 51 52 55 83 _ _ _ gt rfl rfl (straight 3 rfl) rfl rfl (straight 3 rfl) rfl
    rfl rfl (straight 19 rfl) (straight 28 rfl) (straight 28 rfl) rfl rfl rfl

/-- The loop for a negative divisor. -/
lemma remS_loop_pos_neg (lo hi : UntypedValue) (below : List UntypedValue) :
    DivisionLoop opI64RemS 99 158 (joinLimbs lo hi) (remSStackPosNeg lo hi below) := by
  intro k r t
  have gt : (stackMachine opI64RemS).Steps ⟨99, remSStackPosNeg lo hi below k r t⟩
      ⟨117, ofBool (hi.ult r.nextHi) :: k :: r.remLo :: lo :: r.nextHi :: r.nextLo :: hi ::
        r.restHi :: r.restLo :: below⟩ := straight 18 rfl
  exact division_turn 121 125 126 129 157 _ _ _ gt rfl rfl (straight 3 rfl) rfl rfl (straight 3 rfl) rfl
    rfl rfl (straight 19 rfl) (straight 28 rfl) (straight 28 rfl) rfl rfl rfl

/-- The loop for a negative dividend. -/
lemma remS_loop_neg_pos (lo hi : UntypedValue) (below : List UntypedValue) :
    DivisionLoop opI64RemS 181 240 (joinLimbs lo hi) (remSStackNegPos lo hi below) := by
  intro k r t
  have gt : (stackMachine opI64RemS).Steps ⟨181, remSStackNegPos lo hi below k r t⟩
      ⟨199, ofBool (hi.ult r.nextHi) :: r.nextLo :: r.restLo :: k :: r.nextHi :: hi :: lo ::
        r.remLo :: r.restHi :: below⟩ := straight 18 rfl
  exact division_turn 203 207 208 211 239 _ _ _ gt rfl rfl (straight 3 rfl) rfl rfl (straight 3 rfl) rfl
    rfl rfl (straight 19 rfl) (straight 28 rfl) (straight 28 rfl) rfl rfl rfl

/-- The loop for a negative dividend and a negative divisor. -/
lemma remS_loop_neg_neg (lo hi : UntypedValue) (below : List UntypedValue) :
    DivisionLoop opI64RemS 255 314 (joinLimbs lo hi) (remSStackNegNeg lo hi below) := by
  intro k r t
  have gt : (stackMachine opI64RemS).Steps ⟨255, remSStackNegNeg lo hi below k r t⟩
      ⟨273, ofBool (hi.ult r.nextHi) :: k :: r.restLo :: lo :: r.nextHi :: r.nextLo :: hi ::
        r.remLo :: r.restHi :: below⟩ := straight 18 rfl
  exact division_turn 277 281 282 285 313 _ _ _ gt rfl rfl (straight 3 rfl) rfl rfl (straight 3 rfl) rfl
    rfl rfl (straight 19 rfl) (straight 28 rfl) (straight 28 rfl) rfl rfl rfl

section Finish

variable {s : Cursor} {x₁ x₂ x₃ x₄ x₅ x₆ : UntypedValue}

/-- The end of the sequence: the limbs are packed with shifts by the constant 32 and moved down. -/
lemma remS_pack :
    (stackMachine opI64RemS).Steps ⟨324, x₁ :: lo :: x₂ :: hi :: x₃ :: x₄ :: x₅ :: x₆ :: below⟩
      ⟨383, pushValue (.i64 (joinLimbs lo hi)) below⟩ := by
  have run : (stackMachine opI64RemS).Steps
      ⟨324, x₁ :: lo :: x₂ :: hi :: x₃ :: x₄ :: x₅ :: x₆ :: below⟩
      ⟨383, (0 ||| hi <<< 0) :: (lo ||| 0) :: below⟩ := straight 41 rfl
  have packed : pushValue (.i64 (joinLimbs lo hi)) below = (0 ||| hi <<< 0) :: (lo ||| 0) :: below := by
    simp [pushValue]
  rwa [packed]

/-- For a negative dividend the remainder is negated before. -/
lemma remS_negate :
    (stackMachine opI64RemS).Steps ⟨314, x₁ :: x₂ :: x₃ :: hi :: x₄ :: x₅ :: lo :: x₆ :: below⟩
      ⟨383, pushValue (.i64 (-joinLimbs lo hi)) below⟩ := by
  rw [← joinLimbs_neg]
  exact (straight 10 rfl).trans remS_pack

end Finish

/-- The four ways through the sequence, from where the divisor is known not to be zero. -/
lemma remS_divides (ne : joinLimbs dl dh ≠ 0) :
    (stackMachine opI64RemS).Steps ⟨9, 0 :: 0 :: 0 :: 0 :: dh :: dl :: nh :: nl :: below⟩
      ⟨383, pushValue (.i64 ((joinLimbs nl nh).srem (joinLimbs dl dh))) below⟩ := by
  have ne' : joinLimbs (0 - dl) (ofBool (0 - dl == 0) + (dh ^^^ -1)) ≠ 0 := by
    rwa [joinLimbs_neg, neg_ne_zero]
  have start : (stackMachine opI64RemS).Steps
      ⟨9, 0 :: 0 :: 0 :: 0 :: dh :: dl :: nh :: nl :: below⟩
      ⟨12, ofBool (nh.sle (-1)) :: 0 :: 0 :: 0 :: 0 :: dh :: dl :: nh :: nl :: below⟩ :=
    straight 3 rfl
  have sign : ofBool (nh.sle (-1)) = ofBool (joinLimbs nl nh).msb := by
    rw [sle_neg_one, msb_joinLimbs]
  have sign' : ofBool (dh.slt 0) = ofBool (joinLimbs dl dh).msb := by
    rw [msb_joinLimbs, ← BitVec.slt_zero_eq_msb]
    rfl
  refine start.trans ?_
  rw [sign, BitVec.srem_eq]
  cases n_sign : (joinLimbs nl nh).msb with
  | false =>
    have start : (stackMachine opI64RemS).Steps
        ⟨12, ofBool false :: 0 :: 0 :: 0 :: 0 :: dh :: dl :: nh :: nl :: below⟩
        ⟨18, ofBool (dh.slt 0) :: 0 :: 0 :: 0 :: 0 :: dh :: dl :: nh :: nl :: below⟩ :=
      (brIfNez_passed rfl rfl).trans (straight 5 rfl)
    refine start.trans ?_
    rw [sign']
    cases d_sign : (joinLimbs dl dh).msb with
    | false =>
      obtain ⟨r, t, -, rem, run⟩ := (remS_loop_pos_pos dl dh below).divides (n := joinLimbs nl nh) ne rfl 0
      have enter : (stackMachine opI64RemS).Steps
          ⟨18, ofBool false :: 0 :: 0 :: 0 :: 0 :: dh :: dl :: nh :: nl :: below⟩
          ⟨25, remSStackPosPos dl dh below 64 ⟨nl, nh, 0, 0, 0, 0⟩ 0⟩ :=
        (brIfNez_passed rfl rfl).trans (straight 6 rfl)
      show (stackMachine opI64RemS).Steps _ ⟨383, pushValue (.i64 (joinLimbs nl nh % _)) below⟩
      rw [← rem]
      exact enter.trans (run.trans ((straight 1 rfl).trans remS_pack))
    | true =>
      obtain ⟨r, t, -, rem, run⟩ := (remS_loop_pos_neg (0 - dl) (ofBool (0 - dl == 0) + (dh ^^^ -1))
        below).divides (n := joinLimbs nl nh) ne' rfl dh
      have enter : (stackMachine opI64RemS).Steps
          ⟨18, ofBool true :: 0 :: 0 :: 0 :: 0 :: dh :: dl :: nh :: nl :: below⟩
          ⟨99, remSStackPosNeg (0 - dl) (ofBool (0 - dl == 0) + (dh ^^^ -1)) below 64
            ⟨nl, nh, 0, 0, 0, 0⟩ dh⟩ :=
        (brIfNez_taken (j := 85) rfl rfl rfl).trans (straight 14 rfl)
      show (stackMachine opI64RemS).Steps _ ⟨383, pushValue (.i64 (joinLimbs nl nh % -_)) below⟩
      rw [← joinLimbs_neg, ← rem]
      exact enter.trans (run.trans ((straight 1 rfl).trans remS_pack))
  | true =>
    have start : (stackMachine opI64RemS).Steps
        ⟨12, ofBool true :: 0 :: 0 :: 0 :: 0 :: dh :: dl :: nh :: nl :: below⟩
        ⟨174, ofBool (dh.slt 0) :: 0 :: (0 - nl) :: 0 :: 0 :: dh :: dl :: nh ::
          (ofBool (0 - nl == 0) + (nh ^^^ -1)) :: below⟩ :=
      (brIfNez_taken (j := 159) rfl rfl rfl).trans (straight 15 rfl)
    refine start.trans ?_
    rw [sign']
    cases d_sign : (joinLimbs dl dh).msb with
    | false =>
      obtain ⟨r, t, -, rem, run⟩ := (remS_loop_neg_pos dl dh below).divides ne (joinLimbs_neg nl nh) 0
      have enter : (stackMachine opI64RemS).Steps
          ⟨174, ofBool false :: 0 :: (0 - nl) :: 0 :: 0 :: dh :: dl :: nh ::
            (ofBool (0 - nl == 0) + (nh ^^^ -1)) :: below⟩
          ⟨181, remSStackNegPos dl dh below 64
            ⟨0 - nl, ofBool (0 - nl == 0) + (nh ^^^ -1), 0, 0, 0, 0⟩ 0⟩ :=
        (brIfNez_passed rfl rfl).trans (straight 6 rfl)
      show (stackMachine opI64RemS).Steps _ ⟨383, pushValue (.i64 (-(-joinLimbs nl nh % _))) below⟩
      rw [← rem]
      exact enter.trans (run.trans ((straight 1 rfl).trans remS_negate))
    | true =>
      obtain ⟨r, t, -, rem, run⟩ := (remS_loop_neg_neg (0 - dl) (ofBool (0 - dl == 0) + (dh ^^^ -1))
        below).divides ne' (joinLimbs_neg nl nh) dh
      have enter : (stackMachine opI64RemS).Steps
          ⟨174, ofBool true :: 0 :: (0 - nl) :: 0 :: 0 :: dh :: dl :: nh ::
            (ofBool (0 - nl == 0) + (nh ^^^ -1)) :: below⟩
          ⟨255, remSStackNegNeg (0 - dl) (ofBool (0 - dl == 0) + (dh ^^^ -1)) below 64
            ⟨0 - nl, ofBool (0 - nl == 0) + (nh ^^^ -1), 0, 0, 0, 0⟩ dh⟩ :=
        (brIfNez_taken (j := 241) rfl rfl rfl).trans (straight 14 rfl)
      show (stackMachine opI64RemS).Steps _ ⟨383, pushValue (.i64 (-(-joinLimbs nl nh % -_))) below⟩
      rw [← joinLimbs_neg dl dh, ← rem]
      exact enter.trans (run.trans remS_negate)

/-- The length of the code, which is where it ends. -/
lemma length_opI64RemS : opI64RemS.length = 383 := by
  decide +kernel

/-- The test of the divisor. -/
lemma remS_start :
    (stackMachine opI64RemS).Steps ⟨0, dh :: dl :: nh :: nl :: below⟩
      ⟨7, (dh ||| dl) :: 0 :: 0 :: 0 :: 0 :: dh :: dl :: nh :: nl :: below⟩ :=
  straight 7 rfl

/-- `i64.rem_s` pushes the remainder of the division that rounds towards zero, and traps exactly where
the divisor is zero. -/
theorem opI64RemS_implements :
    Implements opI64RemS fun n d =>
      if d = 0 then .error .integerDivisionByZero
      else .ok (BitVec.ofInt 64 (n.toInt - d.toInt * n.toInt.tdiv d.toInt)) := by
  refine implements_of_stackMachine (fun n d v below eq => ?_) (fun n d trap below eq => ?_)
  · split at eq
    next => cases eq
    next ne =>
      obtain rfl : n.srem d = v := by
        rw [← Except.ok.inj eq, ← Int.tmod_def, ← BitVec.toInt_srem, BitVec.ofInt_toInt]
      obtain ⟨nl, nh, rfl⟩ := exists_limbs n
      obtain ⟨dl, dh, rfl⟩ := exists_limbs d
      have test : (dh ||| dl).toBool = true := by
        rw [UntypedValue.toBool, bne_iff_ne]
        intro zero
        obtain ⟨hi, lo⟩ := BitVec.or_eq_zero_iff.mp zero
        exact ne (joinLimbs_eq_zero_iff.mpr ⟨lo, hi⟩)
      rw [length_opI64RemS]
      simp only [pushValue, split_joinLimbs]
      exact remS_start.trans ((brIfNez_taken (j := 9) rfl test rfl).trans (remS_divides ne))
  · split at eq
    next zero =>
      cases eq
      subst zero
      have test : (stackMachine opI64RemS).Steps
          ⟨7, ((0 : UntypedValue) ||| 0) :: 0 :: 0 :: 0 :: 0 :: 0 :: 0 :: (splitIntoI32Tuple n).2 ::
            (splitIntoI32Tuple n).1 :: below⟩ ⟨8, _⟩ := brIfNez_passed rfl rfl
      exact (remS_start.trans test).halts (.now rfl)
    next => cases eq

/-- The least number and minus one leave no remainder, and do not trap. -/
example : (BitVec.ofInt 64 ((BitVec.intMin 64).toInt -
    (-1 : BitVec 64).toInt * (BitVec.intMin 64).toInt.tdiv (-1 : BitVec 64).toInt)) = 0 := by
  decide

end Rwasm
