import Rwasm.Types.Value

/-!
# Arithmetic on limbs

What the 32-bit operations of the expansions do to the 64-bit numbers that two limbs stand for.
-/

namespace Rwasm

open UntypedValue

variable {lo hi lo' hi' w x : UntypedValue}

/-- Every value has two limbs. -/
lemma exists_limbs (v : BitVec 64) : ∃ lo hi, v = joinLimbs lo hi :=
  ⟨_, _, (joinLimbs_split v).symm⟩

/-- The number two limbs stand for. -/
lemma toNat_joinLimbs (lo hi : UntypedValue) :
    (joinLimbs lo hi).toNat = 2 ^ 32 * hi.toNat + lo.toNat := by
  have hlo := lo.isLt
  have hhi := hi.isLt
  have low : (lo.setWidth 64).toNat = lo.toNat := by
    rw [BitVec.toNat_setWidth, Nat.mod_eq_of_lt (by omega)]
  have high : (hi.setWidth 64 <<< 32).toNat = 2 ^ 32 * hi.toNat := by
    rw [BitVec.toNat_shiftLeft, BitVec.toNat_setWidth, Nat.shiftLeft_eq]
    omega
  rw [joinLimbs, BitVec.toNat_or, low, high, Nat.two_pow_add_eq_or_of_lt hlo]

/-- A limb shifted left with a bit from the limb below it. -/
lemma toNat_shiftIn (w x : UntypedValue) :
    (w <<< 1 ||| x >>> 31).toNat = 2 * w.toNat % 2 ^ 32 + x.toNat / 2 ^ 31 := by
  have hx := x.isLt
  have bit : x.toNat / 2 ^ 31 < 2 ^ 1 := by omega
  have even : 2 * w.toNat % 2 ^ 32 = 2 ^ 1 * (w.toNat % 2 ^ 31) := by omega
  rw [BitVec.toNat_or, BitVec.toNat_shiftLeft, BitVec.toNat_ushiftRight, Nat.shiftLeft_eq,
    Nat.shiftRight_eq_div_pow, mul_comm, pow_one, even, ← Nat.two_pow_add_eq_or_of_lt bit]

/-- The highest bit as a number. -/
lemma toNat_msb (x : UntypedValue) : x.msb.toNat = x.toNat / 2 ^ 31 := by
  have hx := x.isLt
  rw [BitVec.msb_eq_decide]
  rcases Nat.lt_or_ge x.toNat (2 ^ 31) with lt | ge
  · rw [decide_eq_false (by omega), Nat.div_eq_of_lt lt]
    rfl
  · rw [decide_eq_true (by omega)]
    show 1 = _
    omega

/-- Two limbs shifted left with a bit from another limb. -/
lemma joinLimbs_shiftIn (lo hi x : UntypedValue) :
    joinLimbs (lo <<< 1 ||| x >>> 31) (hi <<< 1 ||| lo >>> 31) =
      (joinLimbs lo hi).shiftConcat x.msb := by
  have hlo := lo.isLt
  have hhi := hi.isLt
  have hx := x.isLt
  apply BitVec.eq_of_toNat_eq
  rw [BitVec.toNat_shiftConcat, toNat_joinLimbs, toNat_joinLimbs, toNat_shiftIn, toNat_shiftIn,
    toNat_msb, Nat.shiftLeft_eq]
  omega

/-- Two limbs shifted left with a bit put in. -/
lemma joinLimbs_shiftBit (lo hi : UntypedValue) (b : Bool) :
    joinLimbs (ofBool b ||| lo <<< 1) (hi <<< 1 ||| lo >>> 31) = (joinLimbs lo hi).shiftConcat b := by
  have top : (BitVec.msb (ofBool b <<< 31 : UntypedValue)) = b := by
    cases b <;> rfl
  have bit : (ofBool b <<< 31 : UntypedValue) >>> 31 = ofBool b := by
    cases b <;> rfl
  have shifted := joinLimbs_shiftIn lo hi (ofBool b <<< 31)
  rwa [top, bit, BitVec.or_comm] at shifted

/-- Two limbs shifted left. -/
lemma joinLimbs_shl (lo hi : UntypedValue) :
    joinLimbs (lo <<< 1) (hi <<< 1 ||| lo >>> 31) = joinLimbs lo hi <<< 1 := by
  have hlo := lo.isLt
  have hhi := hi.isLt
  apply BitVec.eq_of_toNat_eq
  rw [BitVec.toNat_shiftLeft, toNat_joinLimbs, toNat_joinLimbs, toNat_shiftIn,
    BitVec.toNat_shiftLeft, Nat.shiftLeft_eq, Nat.shiftLeft_eq]
  omega

/-- The top bit of two limbs is that of the high one. -/
lemma msb_joinLimbs (lo hi : UntypedValue) : (joinLimbs lo hi).msb = hi.msb := by
  have hlo := lo.isLt
  rw [BitVec.msb_eq_decide, BitVec.msb_eq_decide, toNat_joinLimbs]
  exact decide_eq_decide.mpr (by omega)

/-- The order of values is that of their high limbs first. -/
lemma joinLimbs_lt_iff :
    joinLimbs lo hi < joinLimbs lo' hi' ↔ hi < hi' ∨ hi = hi' ∧ lo < lo' := by
  have hlo := lo.isLt
  have hlo' := lo'.isLt
  rw [BitVec.lt_def, BitVec.lt_def, BitVec.lt_def, BitVec.toNat_eq, toNat_joinLimbs, toNat_joinLimbs]
  omega

/-- A value determines its limbs. -/
lemma joinLimbs_inj : joinLimbs lo hi = joinLimbs lo' hi' ↔ lo = lo' ∧ hi = hi' := by
  have hlo := lo.isLt
  have hlo' := lo'.isLt
  rw [BitVec.toNat_eq, BitVec.toNat_eq, BitVec.toNat_eq, toNat_joinLimbs, toNat_joinLimbs]
  omega

/-- Zero has limbs of zero. -/
lemma joinLimbs_eq_zero_iff : joinLimbs lo hi = 0 ↔ lo = 0 ∧ hi = 0 :=
  @joinLimbs_inj lo hi 0 0

/-- A truth value as a number. -/
lemma toNat_ofBool (b : Bool) : (ofBool b).toNat = b.toNat := by
  cases b <;> rfl

/-- A truth value is read back. -/
@[simp] lemma toBool_ofBool (b : Bool) : (ofBool b).toBool = b := by
  cases b <;> rfl

/-- A limb is at most minus one if it is negative. -/
lemma sle_neg_one (x : UntypedValue) : x.sle (-1) = x.msb := by
  rw [BitVec.msb_eq_toInt, BitVec.sle_eq_decide]
  simp
  omega

/-- Subtraction with a borrow. -/
lemma joinLimbs_sub (lo hi lo' hi' : UntypedValue) :
    joinLimbs (lo - lo') (hi - hi' - ofBool (lo.ult lo')) = joinLimbs lo hi - joinLimbs lo' hi' := by
  have hlo := lo.isLt
  have hhi := hi.isLt
  have hlo' := lo'.isLt
  have hhi' := hi'.isLt
  apply BitVec.eq_of_toNat_eq
  rw [BitVec.toNat_sub, toNat_joinLimbs, toNat_joinLimbs, toNat_joinLimbs, BitVec.toNat_sub,
    BitVec.toNat_sub, BitVec.toNat_sub, toNat_ofBool, BitVec.ult]
  rcases Nat.lt_or_ge lo.toNat lo'.toNat with borrow | none
  · rw [decide_eq_true borrow, Bool.toNat_true]
    omega
  · rw [decide_eq_false (Nat.not_lt.mpr none), Bool.toNat_false]
    omega

/-- Negation, as the complement of the high limb and the carry out of the low one. -/
lemma joinLimbs_neg (lo hi : UntypedValue) :
    joinLimbs (0 - lo) (ofBool (0 - lo == 0) + (hi ^^^ -1)) = -joinLimbs lo hi := by
  have hlo := lo.isLt
  have hhi := hi.isLt
  have flip : (hi ^^^ -1).toNat = 2 ^ 32 - 1 - hi.toNat := by
    rw [show hi ^^^ (-1) = ~~~hi from BitVec.xor_allOnes, BitVec.toNat_not]
  apply BitVec.eq_of_toNat_eq
  rw [BitVec.toNat_neg, toNat_joinLimbs, toNat_joinLimbs, BitVec.toNat_add, flip, BitVec.toNat_sub,
    toNat_ofBool]
  rcases Nat.eq_zero_or_pos lo.toNat with zero | pos
  · obtain rfl : lo = 0 := BitVec.eq_of_toNat_eq zero
    simp
    omega
  · have ne : (0 - lo == 0) = false := by
      rw [beq_eq_false_iff_ne, ne_eq, BitVec.toNat_eq, BitVec.toNat_sub]
      simp
      omega
    rw [ne, Bool.toNat_false]
    simp
    omega

/-- The shift instructions take a count modulo the width. -/
lemma toNat_and_31 (c : UntypedValue) : (c &&& 0x1F).toNat = c.toNat % 32 := by
  rw [BitVec.toNat_and, show (0x1F : UntypedValue).toNat = 2 ^ 5 - 1 from rfl,
    Nat.and_two_pow_sub_one_eq_mod]

/-- The count a word is shifted by. -/
lemma toNat_shiftCount (k : Nat) : (BitVec.ofNat 32 k &&& 0x1F).toNat = k % 32 := by
  rw [toNat_and_31, BitVec.toNat_ofNat]
  omega

/-- What is left of a count when a part of it is taken off. -/
lemma ofNat_add_cancel {x y : UntypedValue} {m : Nat} (h : BitVec.ofNat 32 m + x = y) (k : Nat) :
    BitVec.ofNat 32 (m + k) + x = y + BitVec.ofNat 32 k := by
  rw [BitVec.ofNat_add, add_right_comm, h]

/-- A bit of a limb. -/
lemma toNat_bit (x : UntypedValue) (k : Nat) :
    (x >>> k &&& (1 : UntypedValue)).toNat = (x.toNat.testBit k).toNat := by
  rw [BitVec.toNat_and, BitVec.toNat_ushiftRight, show (1 : UntypedValue).toNat = 1 from rfl,
    Nat.and_one_is_mod, Nat.shiftRight_eq_div_pow, Nat.toNat_testBit]

/-- A bit shifted into a limb. -/
lemma toNat_shiftedIn {x y : UntypedValue} {b : Bool} (bit : x.toNat = b.toNat)
    (lt : y.toNat < 2 ^ 31) : (x ||| y <<< 1).toNat = 2 * y.toNat + b.toNat := by
  have one : b.toNat < 2 ^ 1 := Nat.lt_succ_of_le (Bool.toNat_le b)
  have high : (y <<< 1).toNat = 2 ^ 1 * y.toNat := by
    rw [BitVec.toNat_shiftLeft, Nat.shiftLeft_eq]
    omega
  rw [BitVec.or_comm, BitVec.toNat_or, high, bit, ← Nat.two_pow_add_eq_or_of_lt one, pow_one]

section Shifts

variable {k : Nat}

/-- The bits of a value are those of its limbs. -/
lemma getLsbD_joinLimbs (lo hi : UntypedValue) (i : Nat) :
    (joinLimbs lo hi).getLsbD i = if i < 32 then lo.getLsbD i else hi.getLsbD (i - 32) := by
  simp only [joinLimbs, BitVec.getLsbD_or, BitVec.getLsbD_shiftLeft, BitVec.getLsbD_setWidth]
  grind

/-- A shift to the left by less than a limb. -/
lemma joinLimbs_shl_low (pos : 0 < k) (lt : k < 32) :
    joinLimbs (lo <<< k) (hi <<< k ||| lo >>> (32 - k)) = joinLimbs lo hi <<< k := by
  apply BitVec.eq_of_getLsbD_eq
  intro i hi'
  simp only [getLsbD_joinLimbs, BitVec.getLsbD_or, BitVec.getLsbD_shiftLeft,
    BitVec.getLsbD_ushiftRight]
  grind

/-- A shift to the left by a limb or more. -/
lemma joinLimbs_shl_high (ge : 32 ≤ k) : joinLimbs 0 (lo <<< (k - 32)) = joinLimbs lo hi <<< k := by
  apply BitVec.eq_of_getLsbD_eq
  intro i hi'
  simp only [getLsbD_joinLimbs, BitVec.getLsbD_shiftLeft]
  grind

/-- A shift to the right by less than a limb. -/
lemma joinLimbs_shr_low (pos : 0 < k) (lt : k < 32) :
    joinLimbs (lo >>> k ||| hi <<< (32 - k)) (hi >>> k) = joinLimbs lo hi >>> k := by
  apply BitVec.eq_of_getLsbD_eq
  intro i hi'
  simp only [getLsbD_joinLimbs, BitVec.getLsbD_or, BitVec.getLsbD_shiftLeft,
    BitVec.getLsbD_ushiftRight]
  grind

/-- A shift to the right by a limb or more. -/
lemma joinLimbs_shr_high (ge : 32 ≤ k) : joinLimbs (hi >>> (k - 32)) 0 = joinLimbs lo hi >>> k := by
  apply BitVec.eq_of_getLsbD_eq
  intro i hi'
  simp only [getLsbD_joinLimbs, BitVec.getLsbD_ushiftRight]
  grind

/-- A shift to the right with the sign, by less than a limb. -/
lemma joinLimbs_sshr_low (pos : 0 < k) (lt : k < 32) :
    joinLimbs (lo >>> k ||| hi <<< (32 - k)) (hi.sshiftRight k) =
      (joinLimbs lo hi).sshiftRight k := by
  apply BitVec.eq_of_getLsbD_eq
  intro i hi'
  simp only [getLsbD_joinLimbs, BitVec.getLsbD_or, BitVec.getLsbD_shiftLeft,
    BitVec.getLsbD_ushiftRight, BitVec.getLsbD_sshiftRight, msb_joinLimbs]
  grind

/-- A shift to the right with the sign, by a limb or more. -/
lemma joinLimbs_sshr_high (ge : 32 ≤ k) :
    joinLimbs (hi.sshiftRight (k - 32)) (hi.sshiftRight 31) = (joinLimbs lo hi).sshiftRight k := by
  have top : hi.getLsbD 31 = hi.msb := (BitVec.msb_eq_getLsbD_last hi).symm
  apply BitVec.eq_of_getLsbD_eq
  intro i hi'
  simp only [getLsbD_joinLimbs, BitVec.getLsbD_sshiftRight, msb_joinLimbs]
  grind

/-- Rotating by nothing. -/
lemma rotateLeft_zero (x : BitVec 64) : x.rotateLeft 0 = x := by
  rw [BitVec.rotateLeft_def, Nat.zero_mod, BitVec.shiftLeft_zero, Nat.sub_zero,
    BitVec.ushiftRight_eq_zero (le_refl 64), BitVec.or_zero]

/-- Rotating by nothing. -/
lemma rotateRight_zero (x : BitVec 64) : x.rotateRight 0 = x := by
  rw [BitVec.rotateRight_def]
  simp

/-- A rotation to the left by less than a limb. -/
lemma joinLimbs_rotl_low (pos : 0 < k) (lt : k < 32) :
    joinLimbs (lo <<< k ||| hi >>> (32 - k)) (hi <<< k ||| lo >>> (32 - k)) =
      (joinLimbs lo hi).rotateLeft k := by
  apply BitVec.eq_of_getLsbD_eq
  intro i hi'
  rw [BitVec.rotateLeft_def, Nat.mod_eq_of_lt (by omega)]
  simp only [getLsbD_joinLimbs, BitVec.getLsbD_or, BitVec.getLsbD_shiftLeft,
    BitVec.getLsbD_ushiftRight]
  grind

/-- A rotation by a limb swaps the limbs. -/
lemma joinLimbs_rotl_half : joinLimbs hi lo = (joinLimbs lo hi).rotateLeft 32 := by
  apply BitVec.eq_of_getLsbD_eq
  intro i hi'
  rw [BitVec.rotateLeft_def]
  simp only [getLsbD_joinLimbs, BitVec.getLsbD_or, BitVec.getLsbD_shiftLeft,
    BitVec.getLsbD_ushiftRight]
  grind

/-- A rotation to the left by more than a limb. -/
lemma joinLimbs_rotl_high (gt : 32 < k) (lt : k < 64) :
    joinLimbs (hi <<< (k - 32) ||| lo >>> (64 - k)) (lo <<< (k - 32) ||| hi >>> (64 - k)) =
      (joinLimbs lo hi).rotateLeft k := by
  apply BitVec.eq_of_getLsbD_eq
  intro i hi'
  rw [BitVec.rotateLeft_def, Nat.mod_eq_of_lt lt]
  simp only [getLsbD_joinLimbs, BitVec.getLsbD_or, BitVec.getLsbD_shiftLeft,
    BitVec.getLsbD_ushiftRight]
  grind

/-- A rotation to the right by less than a limb. -/
lemma joinLimbs_rotr_low (pos : 0 < k) (lt : k < 32) :
    joinLimbs (lo >>> k ||| hi <<< (32 - k)) (hi >>> k ||| lo <<< (32 - k)) =
      (joinLimbs lo hi).rotateRight k := by
  apply BitVec.eq_of_getLsbD_eq
  intro i hi'
  rw [BitVec.rotateRight_def, Nat.mod_eq_of_lt (by omega)]
  simp only [getLsbD_joinLimbs, BitVec.getLsbD_or, BitVec.getLsbD_shiftLeft,
    BitVec.getLsbD_ushiftRight]
  grind

/-- Limbs that are exchanged. -/
lemma joinLimbs_rotr_half : joinLimbs hi lo = (joinLimbs lo hi).rotateRight 32 := by
  apply BitVec.eq_of_getLsbD_eq
  intro i hi'
  rw [BitVec.rotateRight_def]
  simp only [getLsbD_joinLimbs, BitVec.getLsbD_or, BitVec.getLsbD_shiftLeft,
    BitVec.getLsbD_ushiftRight]
  grind

/-- A rotation to the right by more than a limb. -/
lemma joinLimbs_rotr_high (gt : 32 < k) (lt : k < 64) :
    joinLimbs (hi >>> (k - 32) ||| lo <<< (64 - k)) (lo >>> (k - 32) ||| hi <<< (64 - k)) =
      (joinLimbs lo hi).rotateRight k := by
  apply BitVec.eq_of_getLsbD_eq
  intro i hi'
  rw [BitVec.rotateRight_def, Nat.mod_eq_of_lt lt]
  simp only [getLsbD_joinLimbs, BitVec.getLsbD_or, BitVec.getLsbD_shiftLeft,
    BitVec.getLsbD_ushiftRight]
  grind

end Shifts

section Operators

/-- A word that is widened keeps its number. -/
lemma toNat_setWidth_64 (x : UntypedValue) : (x.setWidth 64).toNat = x.toNat := by
  have hx := x.isLt
  rw [BitVec.toNat_setWidth, Nat.mod_eq_of_lt (by omega)]

/-- The limbs of a number. -/
lemma toNat_split (v : BitVec 64) :
    (splitIntoI32Tuple v).1.toNat = v.toNat % 2 ^ 32 ∧ (splitIntoI32Tuple v).2.toNat = v.toNat / 2 ^ 32 := by
  have hv := v.isLt
  constructor
  · exact BitVec.toNat_setWidth 32 v
  · show ((v >>> 32).setWidth 32).toNat = _
    rw [BitVec.toNat_setWidth, BitVec.toNat_ushiftRight, Nat.shiftRight_eq_div_pow]
    omega

/-- Addition with a carry. -/
lemma joinLimbs_add (lo hi lo' hi' : UntypedValue) :
    joinLimbs (splitIntoI32Tuple (lo.setWidth 64 + lo'.setWidth 64)).1
      ((splitIntoI32Tuple (lo.setWidth 64 + lo'.setWidth 64)).2 + (hi + hi')) =
      joinLimbs lo hi + joinLimbs lo' hi' := by
  have hlo := lo.isLt
  have hhi := hi.isLt
  have hlo' := lo'.isLt
  have hhi' := hi'.isLt
  obtain ⟨low, high⟩ := toNat_split (lo.setWidth 64 + lo'.setWidth 64)
  apply BitVec.eq_of_toNat_eq
  rw [BitVec.toNat_add, toNat_joinLimbs, toNat_joinLimbs, toNat_joinLimbs, BitVec.toNat_add,
    BitVec.toNat_add, low, high, BitVec.toNat_add, toNat_setWidth_64, toNat_setWidth_64]
  omega

/-- Multiplication with the products across. -/
lemma joinLimbs_mul (lo hi lo' hi' : UntypedValue) :
    joinLimbs (splitIntoI32Tuple (lo'.setWidth 64 * lo.setWidth 64)).1
      ((splitIntoI32Tuple (lo'.setWidth 64 * lo.setWidth 64)).2 + (hi' * lo + lo' * hi)) =
      joinLimbs lo hi * joinLimbs lo' hi' := by
  obtain ⟨low, high⟩ := toNat_split (lo'.setWidth 64 * lo.setWidth 64)
  have small : lo'.toNat * lo.toNat < 2 ^ 32 * 2 ^ 32 := Nat.mul_lt_mul'' lo'.isLt lo.isLt
  have product : (2 ^ 32 * hi.toNat + lo.toNat) * (2 ^ 32 * hi'.toNat + lo'.toNat) =
      2 ^ 64 * (hi.toNat * hi'.toNat) + 2 ^ 32 * (hi'.toNat * lo.toNat + lo'.toNat * hi.toNat) +
        lo'.toNat * lo.toNat := by ring
  apply BitVec.eq_of_toNat_eq
  rw [BitVec.toNat_mul, toNat_joinLimbs, toNat_joinLimbs, toNat_joinLimbs, product, BitVec.toNat_add,
    BitVec.toNat_add, low, high, BitVec.toNat_mul, BitVec.toNat_mul, BitVec.toNat_mul,
    toNat_setWidth_64, toNat_setWidth_64]
  omega

/-- The limbs, high one first, are the bits of the value. -/
lemma joinLimbs_eq_append (lo hi : UntypedValue) : joinLimbs lo hi = hi ++ lo := by
  apply BitVec.eq_of_toNat_eq
  rw [toNat_joinLimbs, BitVec.toNat_append, ← Nat.shiftLeft_add_eq_or_of_lt lo.isLt, Nat.shiftLeft_eq,
    mul_comm]

/-- The bitwise operations work on the limbs. -/
lemma joinLimbs_bitwise (lo hi lo' hi' : UntypedValue) :
    joinLimbs lo hi &&& joinLimbs lo' hi' = joinLimbs (lo &&& lo') (hi &&& hi') ∧
    joinLimbs lo hi ||| joinLimbs lo' hi' = joinLimbs (lo ||| lo') (hi ||| hi') ∧
    joinLimbs lo hi ^^^ joinLimbs lo' hi' = joinLimbs (lo ^^^ lo') (hi ^^^ hi') := by
  refine ⟨?_, ?_, ?_⟩
  all_goals
    apply BitVec.eq_of_getLsbD_eq
    intro i hi
    simp only [BitVec.getLsbD_and, BitVec.getLsbD_or, BitVec.getLsbD_xor, getLsbD_joinLimbs]
    split <;> rfl

/-- Numbers are compared by their high limbs, and by their low ones where these agree. -/
lemma ult_joinLimbs (lo hi lo' hi' : UntypedValue) :
    (joinLimbs lo hi).ult (joinLimbs lo' hi') = if hi = hi' then lo.ult lo' else hi.ult hi' := by
  rw [Bool.eq_iff_iff, BitVec.ult_iff_lt, joinLimbs_lt_iff]
  split
  next eq => simp [eq, BitVec.ult_iff_lt]
  next ne => simp [ne, BitVec.ult_iff_lt]

/-- The high limbs carry the sign of a comparison. -/
lemma slt_joinLimbs (lo hi lo' hi' : UntypedValue) :
    (joinLimbs lo hi).slt (joinLimbs lo' hi') = if hi = hi' then lo.ult lo' else hi.slt hi' := by
  rw [BitVec.slt_eq_ult, ult_joinLimbs, msb_joinLimbs, msb_joinLimbs, BitVec.slt_eq_ult]
  split
  next eq => rw [eq, bne_self_eq_false, Bool.false_xor]
  next => rfl

/-- The ones of a number are those of its limbs. -/
lemma cpop_joinLimbs (lo hi : UntypedValue) :
    (joinLimbs lo hi).cpop = joinLimbs (lo.cpop + hi.cpop) 0 := by
  have le := hi.toNat_cpop_le
  have le' := lo.toNat_cpop_le
  apply BitVec.eq_of_toNat_eq
  rw [toNat_joinLimbs, joinLimbs_eq_append, BitVec.toNat_cpop_append, BitVec.toNat_add]
  simp
  omega

/-- The trailing zeros of a number that is not zero end at its lowest bit. -/
lemma toNat_ctz_eq {w : Nat} {x : BitVec w} {n : Nat} (bit : x.getLsbD n = true)
    (zeros : ∀ i < n, x.getLsbD i = false) : x.ctz.toNat = n := by
  have ne : x ≠ 0#w := by
    rintro rfl
    rw [BitVec.getLsbD_zero] at bit
    exact Bool.false_ne_true bit
  have bit' := BitVec.getLsbD_true_ctz_of_ne_zero ne
  rcases Nat.lt_trichotomy x.ctz.toNat n with lt | eq | gt
  · rw [zeros _ lt] at bit'
    exact absurd bit' Bool.false_ne_true
  · exact eq
  · rw [BitVec.getLsbD_false_of_lt_ctz gt] at bit
    exact absurd bit Bool.false_ne_true

/-- Zero has no bit to find. -/
lemma ctz_zero (w : Nat) : (0#w).ctz = w := by
  rw [BitVec.ctz_eq_reverse_clz, BitVec.clz_eq_iff_eq_zero, BitVec.reverse_eq_zero_iff]

/-- The trailing zeros go on in the high limb where the low one is zero. -/
lemma ctz_joinLimbs (lo hi : UntypedValue) :
    (joinLimbs lo hi).ctz = joinLimbs (if lo.ctz = 32 then 32 + hi.ctz else lo.ctz) 0 := by
  by_cases zero : lo = 0#32
  · have all : lo.ctz = 32 := by rw [zero]; exact ctz_zero 32
    rw [if_pos all]
    by_cases zero' : hi = 0#32
    · have both : joinLimbs lo hi = 0#64 := joinLimbs_eq_zero_iff.mpr ⟨zero, zero'⟩
      rw [both, ctz_zero, zero', ctz_zero]
      rfl
    · have lt := BitVec.ctz_lt_iff_ne_zero.mpr zero'
      have le : hi.ctz.toNat < 32 := lt
      have sum : (32 + hi.ctz).toNat = 32 + hi.ctz.toNat := by
        rw [BitVec.toNat_add, show (32 : UntypedValue).toNat = 32 from rfl]
        omega
      apply BitVec.eq_of_toNat_eq
      rw [toNat_joinLimbs, sum]
      refine toNat_ctz_eq ?_ (fun i below => ?_)
      · have bit := BitVec.getLsbD_true_ctz_of_ne_zero zero'
        rw [getLsbD_joinLimbs, if_neg (by omega)]
        exact (congrArg hi.getLsbD (by simp)).trans bit
      · rw [getLsbD_joinLimbs, zero]
        split
        · exact BitVec.getLsbD_zero
        · exact BitVec.getLsbD_false_of_lt_ctz (by simp at below; omega)
  · have lt : lo.ctz.toNat < 32 := BitVec.ctz_lt_iff_ne_zero.mpr zero
    have ne : lo.ctz ≠ 32 := by
      intro eq
      rw [eq] at lt
      exact absurd lt (lt_irrefl 32)
    apply BitVec.eq_of_toNat_eq
    rw [if_neg ne, toNat_joinLimbs]
    refine toNat_ctz_eq ?_ (fun i below => ?_)
    · have bit := BitVec.getLsbD_true_ctz_of_ne_zero zero
      rw [getLsbD_joinLimbs, if_pos (by simpa using lt)]
      exact (congrArg lo.getLsbD (by simp)).trans bit
    · have less : i < lo.ctz.toNat := by simpa using below
      rw [getLsbD_joinLimbs, if_pos (less.trans lt)]
      exact BitVec.getLsbD_false_of_lt_ctz less

/-- The leading zeros go on in the low limb where the high one is zero. -/
lemma clz_joinLimbs (lo hi : UntypedValue) :
    (joinLimbs lo hi).clz = joinLimbs (if hi.clz = 32 then 32 + lo.clz else hi.clz) 0 := by
  have reverse : (joinLimbs lo hi).reverse = joinLimbs hi.reverse lo.reverse := by
    apply BitVec.eq_of_getLsbD_eq
    intro i lt
    simp only [BitVec.getLsbD_reverse, BitVec.getMsbD_eq_getLsbD, getLsbD_joinLimbs]
    grind
  rw [BitVec.clz_eq_reverse_ctz, reverse, ctz_joinLimbs, ← BitVec.clz_eq_reverse_ctz,
    ← BitVec.clz_eq_reverse_ctz]

/-- The sign of a limb fills the high one. -/
lemma joinLimbs_signExtend (x : UntypedValue) : joinLimbs x (x.sshiftRight 31) = x.signExtend 64 := by
  have top : x.getLsbD 31 = x.msb := (BitVec.msb_eq_getLsbD_last x).symm
  apply BitVec.eq_of_getLsbD_eq
  intro i lt
  simp only [getLsbD_joinLimbs, BitVec.getLsbD_sshiftRight, BitVec.getLsbD_signExtend]
  grind

/-- The bits of a limb extended with their sign, and then the limb. -/
lemma joinLimbs_signExtend_setWidth (lo hi : UntypedValue) {n : Nat} (pos : 0 < n) (le : n ≤ 32) :
    joinLimbs ((lo.setWidth n).signExtend 32) (((lo.setWidth n).signExtend 32).sshiftRight 31) =
      ((joinLimbs lo hi).setWidth n).signExtend 64 := by
  have low : (joinLimbs lo hi).setWidth n = lo.setWidth n := by
    apply BitVec.eq_of_getLsbD_eq
    intro i lt
    rw [BitVec.getLsbD_setWidth, BitVec.getLsbD_setWidth, getLsbD_joinLimbs, if_pos (by omega)]
  rw [joinLimbs_signExtend, low]
  apply BitVec.eq_of_getLsbD_eq
  intro i lt
  simp only [BitVec.getLsbD_signExtend, BitVec.msb_signExtend]
  grind

end Operators

end Rwasm
