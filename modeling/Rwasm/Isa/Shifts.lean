import Rwasm.Isa.StackMachine
import Rwasm.Isa.Limbs
import Rwasm.Isa.Bitwise

/-!
# Shifts and rotations

The five sequences take the count modulo 64 and treat the counts zero, below 32, 32 and above 32 apart.
All of them end in shifts by the constant 32 that pack the limbs.
-/

namespace Rwasm

open UntypedValue InstructionSet

section Count

variable {c cl ch : UntypedValue}

/-- The count a value is shifted by. -/
lemma toNat_and_63 (c : UntypedValue) : (c &&& 63).toNat = c.toNat % 64 := by
  rw [BitVec.toNat_and, show (63 : UntypedValue).toNat = 2 ^ 6 - 1 from rfl,
    Nat.and_two_pow_sub_one_eq_mod]

/-- The high limb of a count does not matter. -/
lemma toNat_joinLimbs_mod (cl ch : UntypedValue) : (joinLimbs cl ch).toNat % 64 = cl.toNat % 64 := by
  rw [toNat_joinLimbs]
  omega

/-- The test for a count of zero. -/
lemma count_toBool (c : UntypedValue) : (c &&& 63).toBool = decide (c.toNat % 64 ≠ 0) := by
  rw [Bool.eq_iff_iff, UntypedValue.toBool, bne_iff_ne, decide_eq_true_iff, ne_eq, ne_eq, BitVec.toNat_eq,
    toNat_and_63]
  rfl

section

variable {code : List Opcode} {i : Nat} {offset : Int} {stack : List UntypedValue}

/-- A branch on a count of zero is not taken. -/
lemma brIfNez_count_zero (fetch : code[i]? = some (.brIfNez offset)) (zero : c.toNat % 64 = 0) :
    (stackMachine code).Steps ⟨i, (c &&& 63) :: stack⟩ ⟨i + 1, stack⟩ :=
  brIfNez_passed fetch (by rw [count_toBool, zero]; rfl)

/-- A branch on any other count is taken. -/
lemma brIfNez_count_pos (fetch : code[i]? = some (.brIfNez offset)) (pos : 0 < c.toNat % 64) {j : Nat}
    (target : (i : Int) + offset = j) :
    (stackMachine code).Steps ⟨i, (c &&& 63) :: stack⟩ ⟨j, stack⟩ :=
  brIfNez_taken fetch (by rw [count_toBool]; exact decide_eq_true (by omega)) target

end

/-- The test for a count of 32. -/
lemma count_beq_32 (c : UntypedValue) : (c &&& 63 == 32) = decide (c.toNat % 64 = 32) := by
  rw [Bool.eq_iff_iff, beq_iff_eq, decide_eq_true_iff, BitVec.toNat_eq, toNat_and_63]
  rfl

/-- Whether the count is not that of a limb. -/
lemma count_bne_32 (c : UntypedValue) : (c &&& 63 != 32) = decide (c.toNat % 64 ≠ 32) := by
  rw [bne, count_beq_32, decide_not]

/-- The test for a count below 32. -/
lemma count_low (c : UntypedValue) :
    ((c &&& 63) + -1).ult 31 = decide (0 < c.toNat % 64 ∧ c.toNat % 64 < 32) := by
  have count := toNat_and_63 c
  rw [Bool.eq_iff_iff, BitVec.ult_iff_lt, decide_eq_true_iff, BitVec.lt_def, BitVec.toNat_add, count,
    show (-1 : UntypedValue).toNat = 2 ^ 32 - 1 from rfl, show (31 : UntypedValue).toNat = 31 from rfl]
  omega

/-- Whether the count is below that of a limb. -/
lemma count_ult_32 (c : UntypedValue) : (c &&& 63).ult 32 = decide (c.toNat % 64 < 32) := by
  rw [BitVec.ult, toNat_and_63]
  rfl

/-- The test for a count above 32. -/
lemma count_high (c : UntypedValue) : (32 : UntypedValue).ult (c &&& 63) = decide (32 < c.toNat % 64) := by
  rw [BitVec.ult, toNat_and_63]
  rfl

/-- Whether the count is at most that of a limb. -/
lemma count_ule_32 (c : UntypedValue) : (c &&& 63).ule 32 = decide (c.toNat % 64 ≤ 32) := by
  rw [BitVec.ule, toNat_and_63]
  rfl

/-- The counts that the 32-bit shifts take, for a count below 32. -/
lemma counts_low (pos : 0 < c.toNat % 64) (lt : c.toNat % 64 < 32) :
    (c &&& 0x1F).toNat = c.toNat % 64 ∧ ((0 - c) &&& 0x1F).toNat = 32 - c.toNat % 64 := by
  have hc := c.isLt
  rw [toNat_and_31, toNat_and_31, BitVec.toNat_sub, show (0 : UntypedValue).toNat = 0 from rfl]
  omega

/-- The counts that the 32-bit shifts take, for a count above 32. -/
lemma counts_high (gt : 32 < c.toNat % 64) :
    (c &&& 0x1F).toNat = c.toNat % 64 - 32 ∧ ((0 - c) &&& 0x1F).toNat = 64 - c.toNat % 64 := by
  have hc := c.isLt
  rw [toNat_and_31, toNat_and_31, BitVec.toNat_sub, show (0 : UntypedValue).toNat = 0 from rfl]
  omega

end Count

variable {below : List UntypedValue} {xl xh cl ch a b : UntypedValue}

/-- The stack of a shift, with the count modulo 64 above the operands. -/
def shiftStack (below : List UntypedValue) (xl xh cl ch : UntypedValue) : List UntypedValue :=
  0 :: (cl &&& 63) :: ch :: cl :: xh :: xl :: below

section Shl

/-- The end of the sequence packs two limbs from where the cases left them. -/
lemma shl_pack :
    (stackMachine opI64Shl).Steps ⟨53, a :: b :: ch :: cl :: xh :: xl :: below⟩
      ⟨110, pushValue (.i64 (joinLimbs a xh)) below⟩ := by
  have run : (stackMachine opI64Shl).Steps ⟨53, a :: b :: ch :: cl :: xh :: xl :: below⟩
      ⟨110, (0 ||| xh <<< 0) :: (a ||| 0) :: below⟩ := straight 39 rfl
  have packed : pushValue (.i64 (joinLimbs a xh)) below = (0 ||| xh <<< 0) :: (a ||| 0) :: below := by
    simp [pushValue]
  rwa [packed]

/-- The shift to the left. -/
lemma shl_steps :
    (stackMachine opI64Shl).Steps ⟨0, ch :: cl :: xh :: xl :: below⟩
      ⟨110, pushValue (.i64 (joinLimbs xl xh <<< (cl.toNat % 64))) below⟩ := by
  have start : (stackMachine opI64Shl).Steps ⟨0, ch :: cl :: xh :: xl :: below⟩
      ⟨6, (cl &&& 63) :: shiftStack below xl xh cl ch⟩ := straight 6 rfl
  have half : (stackMachine opI64Shl).Steps ⟨10, shiftStack below xl xh cl ch⟩
      ⟨13, ofBool (cl &&& 63 == 32) :: shiftStack below xl xh cl ch⟩ := straight 3 rfl
  have low : (stackMachine opI64Shl).Steps ⟨14, shiftStack below xl xh cl ch⟩
      ⟨19, ofBool (((cl &&& 63) + -1).ult 31) :: shiftStack below xl xh cl ch⟩ := straight 5 rfl
  have high : (stackMachine opI64Shl).Steps ⟨20, shiftStack below xl xh cl ch⟩
      ⟨25, ofBool ((32 : UntypedValue).ult (cl &&& 63)) :: shiftStack below xl xh cl ch⟩ :=
    straight 5 rfl
  rw [count_beq_32] at half
  rw [count_low] at low
  rw [count_high] at high
  rcases Nat.eq_zero_or_pos (cl.toNat % 64) with zero | pos
  · rw [zero, BitVec.shiftLeft_zero]
    exact start.trans ((brIfNez_count_zero rfl zero).trans ((straight 3 rfl).trans shl_pack))
  have run := start.trans ((brIfNez_count_pos rfl pos rfl).trans half)
  rcases Nat.lt_trichotomy (cl.toNat % 64) 32 with lt | eq | gt
  · obtain ⟨count, rest⟩ := counts_low pos lt
    have shifted : (stackMachine opI64Shl).Steps ⟨29, shiftStack below xl xh cl ch⟩
        ⟨53, (xl <<< (cl &&& 0x1F).toNat) :: (cl &&& 63) :: ch :: cl ::
          (xh <<< (cl &&& 0x1F).toNat ||| xl >>> ((0 - cl) &&& 0x1F).toNat) :: xl :: below⟩ :=
      straight 15 rfl
    rw [count, rest] at shifted
    rw [← joinLimbs_shl_low pos lt]
    have run := run.trans ((brIfNez_fails rfl (by omega)).trans low)
    exact run.trans ((brIfNez_holds rfl ⟨pos, lt⟩ rfl).trans (shifted.trans shl_pack))
  · rw [eq, ← joinLimbs_shl_high (le_refl 32), Nat.sub_self, BitVec.shiftLeft_zero]
    exact run.trans ((brIfNez_holds rfl eq rfl).trans ((straight 4 rfl).trans shl_pack))
  · obtain ⟨count, -⟩ := counts_high gt
    have shifted : (stackMachine opI64Shl).Steps ⟨44, shiftStack below xl xh cl ch⟩
        ⟨53, 0 :: (cl &&& 63) :: ch :: cl :: xl <<< (cl &&& 0x1F).toNat :: xl :: below⟩ :=
      straight 5 rfl
    rw [count] at shifted
    rw [← joinLimbs_shl_high (le_of_lt gt)]
    have run := run.trans ((brIfNez_fails rfl (by omega)).trans low)
    have run := run.trans ((brIfNez_fails rfl (by omega)).trans high)
    exact run.trans ((brIfNez_holds rfl gt rfl).trans (shifted.trans shl_pack))

end Shl

section ShrU

/-- The shifted limbs are packed. -/
lemma shrU_pack :
    (stackMachine opI64ShrU).Steps ⟨53, a :: b :: ch :: cl :: xh :: xl :: below⟩
      ⟨110, pushValue (.i64 (joinLimbs xh a)) below⟩ := by
  have run : (stackMachine opI64ShrU).Steps ⟨53, a :: b :: ch :: cl :: xh :: xl :: below⟩
      ⟨110, (0 ||| a <<< 0) :: (xh ||| 0) :: below⟩ := straight 39 rfl
  have packed : pushValue (.i64 (joinLimbs xh a)) below = (0 ||| a <<< 0) :: (xh ||| 0) :: below := by
    simp [pushValue]
  rwa [packed]

/-- The unsigned shift to the right. -/
lemma shrU_steps :
    (stackMachine opI64ShrU).Steps ⟨0, ch :: cl :: xh :: xl :: below⟩
      ⟨110, pushValue (.i64 (joinLimbs xl xh >>> (cl.toNat % 64))) below⟩ := by
  have start : (stackMachine opI64ShrU).Steps ⟨0, ch :: cl :: xh :: xl :: below⟩
      ⟨6, (cl &&& 63) :: shiftStack below xl xh cl ch⟩ := straight 6 rfl
  have half : (stackMachine opI64ShrU).Steps ⟨12, shiftStack below xl xh cl ch⟩
      ⟨15, ofBool (cl &&& 63 == 32) :: shiftStack below xl xh cl ch⟩ := straight 3 rfl
  have low : (stackMachine opI64ShrU).Steps ⟨16, shiftStack below xl xh cl ch⟩
      ⟨21, ofBool (((cl &&& 63) + -1).ult 31) :: shiftStack below xl xh cl ch⟩ := straight 5 rfl
  have high : (stackMachine opI64ShrU).Steps ⟨22, shiftStack below xl xh cl ch⟩
      ⟨27, ofBool ((32 : UntypedValue).ult (cl &&& 63)) :: shiftStack below xl xh cl ch⟩ :=
    straight 5 rfl
  rw [count_beq_32] at half
  rw [count_low] at low
  rw [count_high] at high
  rcases Nat.eq_zero_or_pos (cl.toNat % 64) with zero | pos
  · rw [zero, BitVec.ushiftRight_zero]
    exact start.trans ((brIfNez_count_zero rfl zero).trans ((straight 5 rfl).trans shrU_pack))
  have run := start.trans ((brIfNez_count_pos rfl pos rfl).trans half)
  rcases Nat.lt_trichotomy (cl.toNat % 64) 32 with lt | eq | gt
  · obtain ⟨count, rest⟩ := counts_low pos lt
    have shifted : (stackMachine opI64ShrU).Steps ⟨31, shiftStack below xl xh cl ch⟩
        ⟨53, (xh >>> (cl &&& 0x1F).toNat) :: (cl &&& 63) :: ch :: cl ::
          (xl >>> (cl &&& 0x1F).toNat ||| xh <<< ((0 - cl) &&& 0x1F).toNat) :: xl :: below⟩ :=
      straight 15 rfl
    rw [count, rest] at shifted
    rw [← joinLimbs_shr_low pos lt]
    have run := run.trans ((brIfNez_fails rfl (by omega)).trans low)
    exact run.trans ((brIfNez_holds rfl ⟨pos, lt⟩ rfl).trans (shifted.trans shrU_pack))
  · rw [eq, ← joinLimbs_shr_high (le_refl 32), Nat.sub_self, BitVec.ushiftRight_zero]
    exact run.trans ((brIfNez_holds rfl eq rfl).trans ((straight 2 rfl).trans shrU_pack))
  · obtain ⟨count, -⟩ := counts_high gt
    have shifted : (stackMachine opI64ShrU).Steps ⟨46, shiftStack below xl xh cl ch⟩
        ⟨53, 0 :: (cl &&& 63) :: ch :: cl :: xh >>> (cl &&& 0x1F).toNat :: xl :: below⟩ :=
      straight 5 rfl
    rw [count] at shifted
    rw [← joinLimbs_shr_high (le_of_lt gt)]
    have run := run.trans ((brIfNez_fails rfl (by omega)).trans low)
    have run := run.trans ((brIfNez_fails rfl (by omega)).trans high)
    exact run.trans ((brIfNez_holds rfl gt rfl).trans (shifted.trans shrU_pack))

end ShrU

section ShrS

/-- The shifted limbs are packed, one after the other. -/
lemma shrS_pack :
    (stackMachine opI64ShrS).Steps ⟨58, a :: b :: ch :: cl :: xh :: xl :: below⟩
      ⟨186, pushValue (.i64 (joinLimbs xl a)) below⟩ := by
  have high : (stackMachine opI64ShrS).Steps ⟨58, a :: b :: ch :: cl :: xh :: xl :: below⟩
      ⟨115, 0 :: 32 :: 0 :: 32 :: a :: a :: a :: b :: ch :: cl :: xh :: xl :: below⟩ := straight 19 rfl
  have low : (stackMachine opI64ShrS).Steps
      ⟨115, 0 :: 32 :: 0 :: 32 :: a :: a :: a :: b :: ch :: cl :: xh :: xl :: below⟩
      ⟨156, 0 :: 32 :: a <<< 0 :: 0 :: 0 :: 32 :: 0 :: 32 :: a :: a :: a :: b :: ch :: cl :: xh ::
        xl :: below⟩ := straight 23 rfl
  have move : (stackMachine opI64ShrS).Steps
      ⟨156, 0 :: 32 :: a <<< 0 :: 0 :: 0 :: 32 :: 0 :: 32 :: a :: a :: a :: b :: ch :: cl :: xh ::
        xl :: below⟩
      ⟨186, (0 ||| (0 ||| a <<< 0)) :: (xl ||| (0 ||| 0)) :: below⟩ := straight 30 rfl
  have packed : pushValue (.i64 (joinLimbs xl a)) below =
      (0 ||| (0 ||| a <<< 0)) :: (xl ||| (0 ||| 0)) :: below := by
    simp [pushValue]
  rw [packed]
  exact (high.trans low).trans move

/-- The signed shift to the right. -/
lemma shrS_steps :
    (stackMachine opI64ShrS).Steps ⟨0, ch :: cl :: xh :: xl :: below⟩
      ⟨186, pushValue (.i64 ((joinLimbs xl xh).sshiftRight (cl.toNat % 64))) below⟩ := by
  have start : (stackMachine opI64ShrS).Steps ⟨0, ch :: cl :: xh :: xl :: below⟩
      ⟨6, (cl &&& 63) :: shiftStack below xl xh cl ch⟩ := straight 6 rfl
  have half : (stackMachine opI64ShrS).Steps ⟨10, shiftStack below xl xh cl ch⟩
      ⟨13, ofBool (cl &&& 63 == 32) :: shiftStack below xl xh cl ch⟩ := straight 3 rfl
  have low : (stackMachine opI64ShrS).Steps ⟨14, shiftStack below xl xh cl ch⟩
      ⟨19, ofBool (((cl &&& 63) + -1).ult 31) :: shiftStack below xl xh cl ch⟩ := straight 5 rfl
  have high : (stackMachine opI64ShrS).Steps ⟨20, shiftStack below xl xh cl ch⟩
      ⟨27, ofBool ((cl &&& 63).ule 32) :: shiftStack below 0 xh cl ch⟩ := straight 7 rfl
  rw [count_beq_32] at half
  rw [count_low] at low
  rw [count_ule_32] at high
  rcases Nat.eq_zero_or_pos (cl.toNat % 64) with zero | pos
  · rw [zero, BitVec.sshiftRight_zero]
    exact start.trans ((brIfNez_count_zero rfl zero).trans ((straight 3 rfl).trans shrS_pack))
  have run := start.trans ((brIfNez_count_pos rfl pos rfl).trans half)
  rcases Nat.lt_trichotomy (cl.toNat % 64) 32 with lt | eq | gt
  · obtain ⟨count, rest⟩ := counts_low pos lt
    have shifted : (stackMachine opI64ShrS).Steps ⟨44, shiftStack below xl xh cl ch⟩
        ⟨58, xh.sshiftRight (cl &&& 0x1F).toNat :: (cl &&& 63) :: ch :: cl :: xh ::
          (xl >>> (cl &&& 0x1F).toNat ||| xh <<< ((0 - cl) &&& 0x1F).toNat) :: below⟩ :=
      straight 14 rfl
    rw [count, rest] at shifted
    rw [← joinLimbs_sshr_low pos lt]
    have run := run.trans ((brIfNez_fails rfl (by omega)).trans low)
    exact run.trans ((brIfNez_holds rfl ⟨pos, lt⟩ rfl).trans (shifted.trans shrS_pack))
  · rw [eq, ← joinLimbs_sshr_high (le_refl 32), Nat.sub_self, BitVec.sshiftRight_zero]
    exact run.trans ((brIfNez_holds rfl eq rfl).trans ((straight 7 rfl).trans shrS_pack))
  · obtain ⟨count, -⟩ := counts_high gt
    have shifted : (stackMachine opI64ShrS).Steps ⟨28, shiftStack below 0 xh cl ch⟩
        ⟨58, xh.sshiftRight 31 :: (cl &&& 63) :: ch :: cl :: xh ::
          xh.sshiftRight (cl &&& 0x1F).toNat :: below⟩ :=
      straight 9 rfl
    rw [count] at shifted
    rw [← joinLimbs_sshr_high (le_of_lt gt)]
    have run := run.trans ((brIfNez_fails rfl (by omega)).trans low)
    have run := run.trans ((brIfNez_fails rfl (by omega)).trans high)
    exact run.trans ((brIfNez_fails rfl (by omega)).trans (shifted.trans shrS_pack))

end ShrS

section Rotl

/-- The rotated limbs are packed. -/
lemma rotl_pack :
    (stackMachine opI64Rotl).Steps ⟨62, a :: b :: ch :: cl :: xh :: xl :: below⟩
      ⟨190, pushValue (.i64 (joinLimbs xl b)) below⟩ := by
  have high : (stackMachine opI64Rotl).Steps ⟨62, a :: b :: ch :: cl :: xh :: xl :: below⟩
      ⟨119, 0 :: 32 :: 0 :: 32 :: b :: b :: a :: b :: ch :: cl :: xh :: xl :: below⟩ := straight 19 rfl
  have low : (stackMachine opI64Rotl).Steps
      ⟨119, 0 :: 32 :: 0 :: 32 :: b :: b :: a :: b :: ch :: cl :: xh :: xl :: below⟩
      ⟨160, 0 :: 32 :: b <<< 0 :: 0 :: 0 :: 32 :: 0 :: 32 :: b :: b :: a :: b :: ch :: cl :: xh ::
        xl :: below⟩ := straight 23 rfl
  have move : (stackMachine opI64Rotl).Steps
      ⟨160, 0 :: 32 :: b <<< 0 :: 0 :: 0 :: 32 :: 0 :: 32 :: b :: b :: a :: b :: ch :: cl :: xh ::
        xl :: below⟩
      ⟨190, (0 ||| (0 ||| b <<< 0)) :: (xl ||| (0 ||| 0)) :: below⟩ := straight 30 rfl
  have packed : pushValue (.i64 (joinLimbs xl b)) below =
      (0 ||| (0 ||| b <<< 0)) :: (xl ||| (0 ||| 0)) :: below := by
    simp [pushValue]
  rw [packed]
  exact (high.trans low).trans move

/-- The rotation to the left. -/
lemma rotl_steps :
    (stackMachine opI64Rotl).Steps ⟨0, ch :: cl :: xh :: xl :: below⟩
      ⟨190, pushValue (.i64 ((joinLimbs xl xh).rotateLeft (cl.toNat % 64))) below⟩ := by
  have start : (stackMachine opI64Rotl).Steps ⟨0, ch :: cl :: xh :: xl :: below⟩
      ⟨6, (cl &&& 63) :: shiftStack below xl xh cl ch⟩ := straight 6 rfl
  have low : (stackMachine opI64Rotl).Steps ⟨10, shiftStack below xl xh cl ch⟩
      ⟨13, ofBool ((cl &&& 63).ult 32) :: shiftStack below xl xh cl ch⟩ := straight 3 rfl
  have half : (stackMachine opI64Rotl).Steps ⟨14, shiftStack below xl xh cl ch⟩
      ⟨17, ofBool (cl &&& 63 != 32) :: shiftStack below xl xh cl ch⟩ := straight 3 rfl
  rw [count_ult_32] at low
  rw [count_bne_32] at half
  rcases Nat.eq_zero_or_pos (cl.toNat % 64) with zero | pos
  · rw [zero, rotateLeft_zero]
    exact start.trans ((brIfNez_count_zero rfl zero).trans ((straight 3 rfl).trans rotl_pack))
  have run := start.trans ((brIfNez_count_pos rfl pos rfl).trans low)
  rcases Nat.lt_trichotomy (cl.toNat % 64) 32 with lt | eq | gt
  · obtain ⟨count, rest⟩ := counts_low pos lt
    have rotated : (stackMachine opI64Rotl).Steps ⟨23, shiftStack below xl xh cl ch⟩
        ⟨62, (0 - cl) :: (xh <<< (cl &&& 0x1F).toNat ||| xl >>> ((0 - cl) &&& 0x1F).toNat) :: ch ::
          cl :: xh :: (xl <<< (cl &&& 0x1F).toNat ||| xh >>> ((0 - cl) &&& 0x1F).toNat) :: below⟩ :=
      straight 20 rfl
    rw [count, rest] at rotated
    rw [← joinLimbs_rotl_low pos lt]
    exact run.trans ((brIfNez_holds rfl lt rfl).trans (rotated.trans rotl_pack))
  · have run := run.trans ((brIfNez_fails rfl (by omega)).trans half)
    rw [eq, ← joinLimbs_rotl_half]
    exact run.trans ((brIfNez_fails rfl (by omega)).trans ((straight 5 rfl).trans rotl_pack))
  · obtain ⟨count, rest⟩ := counts_high gt
    have rotated : (stackMachine opI64Rotl).Steps ⟨43, shiftStack below xl xh cl ch⟩
        ⟨62, (0 - cl) :: (xl <<< (cl &&& 0x1F).toNat ||| xh >>> ((0 - cl) &&& 0x1F).toNat) :: ch ::
          cl :: xh :: (xh <<< (cl &&& 0x1F).toNat ||| xl >>> ((0 - cl) &&& 0x1F).toNat) :: below⟩ :=
      straight 19 rfl
    rw [count, rest] at rotated
    rw [← joinLimbs_rotl_high gt (Nat.mod_lt _ (by omega))]
    have run := run.trans ((brIfNez_fails rfl (by omega)).trans half)
    exact run.trans ((brIfNez_holds rfl (by omega) rfl).trans (rotated.trans rotl_pack))

end Rotl

section Rotr

/-- The rotated limbs are packed. -/
lemma rotr_pack :
    (stackMachine opI64Rotr).Steps ⟨64, a :: b :: ch :: cl :: xh :: xl :: below⟩
      ⟨192, pushValue (.i64 (joinLimbs xl b)) below⟩ := by
  have high : (stackMachine opI64Rotr).Steps ⟨64, a :: b :: ch :: cl :: xh :: xl :: below⟩
      ⟨121, 0 :: 32 :: 0 :: 32 :: b :: b :: a :: b :: ch :: cl :: xh :: xl :: below⟩ := straight 19 rfl
  have low : (stackMachine opI64Rotr).Steps
      ⟨121, 0 :: 32 :: 0 :: 32 :: b :: b :: a :: b :: ch :: cl :: xh :: xl :: below⟩
      ⟨162, 0 :: 32 :: b <<< 0 :: 0 :: 0 :: 32 :: 0 :: 32 :: b :: b :: a :: b :: ch :: cl :: xh ::
        xl :: below⟩ := straight 23 rfl
  have move : (stackMachine opI64Rotr).Steps
      ⟨162, 0 :: 32 :: b <<< 0 :: 0 :: 0 :: 32 :: 0 :: 32 :: b :: b :: a :: b :: ch :: cl :: xh ::
        xl :: below⟩
      ⟨192, (0 ||| (0 ||| b <<< 0)) :: (xl ||| (0 ||| 0)) :: below⟩ := straight 30 rfl
  have packed : pushValue (.i64 (joinLimbs xl b)) below =
      (0 ||| (0 ||| b <<< 0)) :: (xl ||| (0 ||| 0)) :: below := by
    simp [pushValue]
  rw [packed]
  exact (high.trans low).trans move

/-- The rotation to the right. -/
lemma rotr_steps :
    (stackMachine opI64Rotr).Steps ⟨0, ch :: cl :: xh :: xl :: below⟩
      ⟨192, pushValue (.i64 ((joinLimbs xl xh).rotateRight (cl.toNat % 64))) below⟩ := by
  have start : (stackMachine opI64Rotr).Steps ⟨0, ch :: cl :: xh :: xl :: below⟩
      ⟨6, (cl &&& 63) :: shiftStack below xl xh cl ch⟩ := straight 6 rfl
  have half : (stackMachine opI64Rotr).Steps ⟨10, shiftStack below xl xh cl ch⟩
      ⟨13, ofBool (cl &&& 63 != 32) :: shiftStack below xl xh cl ch⟩ := straight 3 rfl
  have low : (stackMachine opI64Rotr).Steps ⟨19, shiftStack below xl xh cl ch⟩
      ⟨24, ofBool (((cl &&& 63) + -1).ult 31) :: shiftStack below xl xh cl ch⟩ := straight 5 rfl
  rw [count_bne_32] at half
  rw [count_low] at low
  rcases Nat.eq_zero_or_pos (cl.toNat % 64) with zero | pos
  · rw [zero, rotateRight_zero]
    exact start.trans ((brIfNez_count_zero rfl zero).trans ((straight 3 rfl).trans rotr_pack))
  have run := start.trans ((brIfNez_count_pos rfl pos rfl).trans half)
  rcases Nat.lt_trichotomy (cl.toNat % 64) 32 with lt | eq | gt
  · obtain ⟨count, rest⟩ := counts_low pos lt
    have rotated : (stackMachine opI64Rotr).Steps ⟨45, shiftStack below xl xh cl ch⟩
        ⟨64, (0 - cl) :: (xh >>> (cl &&& 0x1F).toNat ||| xl <<< ((0 - cl) &&& 0x1F).toNat) :: ch ::
          cl :: xh :: (xl >>> (cl &&& 0x1F).toNat ||| xh <<< ((0 - cl) &&& 0x1F).toNat) :: below⟩ :=
      straight 19 rfl
    rw [count, rest] at rotated
    rw [← joinLimbs_rotr_low pos lt]
    have run := run.trans ((brIfNez_holds rfl (by omega) rfl).trans low)
    exact run.trans ((brIfNez_holds rfl ⟨pos, lt⟩ rfl).trans (rotated.trans rotr_pack))
  · rw [eq, ← joinLimbs_rotr_half]
    exact run.trans ((brIfNez_fails rfl (by omega)).trans ((straight 5 rfl).trans rotr_pack))
  · obtain ⟨count, rest⟩ := counts_high gt
    have rotated : (stackMachine opI64Rotr).Steps ⟨25, shiftStack below xl xh cl ch⟩
        ⟨64, (0 - cl) :: (xl >>> (cl &&& 0x1F).toNat ||| xh <<< ((0 - cl) &&& 0x1F).toNat) :: ch ::
          cl :: xh :: (xh >>> (cl &&& 0x1F).toNat ||| xl <<< ((0 - cl) &&& 0x1F).toNat) :: below⟩ :=
      straight 20 rfl
    rw [count, rest] at rotated
    rw [← joinLimbs_rotr_high gt (Nat.mod_lt _ (by omega))]
    have run := run.trans ((brIfNez_holds rfl (by omega) rfl).trans low)
    exact run.trans ((brIfNez_fails rfl (by omega)).trans (rotated.trans rotr_pack))

end Rotr

/-- A sequence that leaves the value of a total operator at its end implements it. -/
lemma implements_of_steps {code : List Opcode} {f : BitVec 64 → Nat → BitVec 64} {n : Nat}
    (length : code.length = n)
    (steps : ∀ xl xh cl ch below, (stackMachine code).Steps ⟨0, ch :: cl :: xh :: xl :: below⟩
      ⟨n, pushValue (.i64 (f (joinLimbs xl xh) (cl.toNat % 64))) below⟩) :
    Implements code fun x c => .ok (f x (c.toNat % 64)) := by
  refine @implements_of_stackMachine _ _ (fun x c v below eq => ?_) (fun x c trap below eq => nomatch eq)
  obtain ⟨xl, xh, rfl⟩ := exists_limbs x
  obtain ⟨cl, ch, rfl⟩ := exists_limbs c
  rw [← Except.ok.inj eq, length, toNat_joinLimbs_mod]
  simp only [pushValue, split_joinLimbs]
  exact steps xl xh cl ch below

/-- The shifts and rotations push the operand shifted or rotated by the count modulo 64. -/
theorem opI64Shifts_implement :
    Implements opI64Shl (fun x c => .ok (x <<< (c.toNat % 64))) ∧
      Implements opI64ShrS (fun x c => .ok (x.sshiftRight (c.toNat % 64))) ∧
      Implements opI64ShrU (fun x c => .ok (x >>> (c.toNat % 64))) ∧
      Implements opI64Rotl (fun x c => .ok (x.rotateLeft (c.toNat % 64))) ∧
      Implements opI64Rotr (fun x c => .ok (x.rotateRight (c.toNat % 64))) := by
  refine ⟨?_, ?_, ?_, ?_, ?_⟩
  · exact @implements_of_steps _ (· <<< ·) _ (by decide +kernel) fun _ _ _ _ _ => shl_steps
  · exact @implements_of_steps _ (·.sshiftRight ·) _ (by decide +kernel) fun _ _ _ _ _ => shrS_steps
  · exact @implements_of_steps _ (· >>> ·) _ (by decide +kernel) fun _ _ _ _ _ => shrU_steps
  · exact @implements_of_steps _ (·.rotateLeft ·) _ (by decide +kernel) fun _ _ _ _ _ => rotl_steps
  · exact @implements_of_steps _ (·.rotateRight ·) _ (by decide +kernel) fun _ _ _ _ _ => rotr_steps

end Rwasm
