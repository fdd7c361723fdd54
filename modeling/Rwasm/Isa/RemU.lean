import Rwasm.Isa.DivisionLoop
import Rwasm.Isa.Division

/-!
# The unsigned remainder

The sequence of `i64.rem_u` runs the loop over all 64 bits where the divisor has 32 bits or more. For
shorter divisors it takes two bits of the dividend a turn, first those of the high limb, then those of
the remainder with the low limb behind it.
-/

namespace Rwasm

open UntypedValue LongDivision InstructionSet

variable {below : List UntypedValue} {lo hi nl nh dl dh a b c d e f g h : UntypedValue}

/-- The stack of the loop over all bits. -/
def remUStack (lo hi : UntypedValue) (below : List UntypedValue) (k : UntypedValue)
    (r : DivisionLimbs) (t : UntypedValue) : List UntypedValue :=
  k :: 0 :: 0 :: r.remLo :: t :: r.remHi :: hi :: lo :: r.restHi :: r.restLo :: below

/-- The long loop is that of long division. -/
lemma remU_loop (lo hi : UntypedValue) (below : List UntypedValue) :
    DivisionLoop opI64RemU 157 216 (joinLimbs lo hi) (remUStack lo hi below) := by
  intro k r t
  have gt : (stackMachine opI64RemU).Steps ⟨157, remUStack lo hi below k r t⟩
      ⟨175, ofBool (hi.ult r.nextHi) :: k :: 0 :: 0 :: r.remLo :: r.nextLo :: r.nextHi :: hi :: lo ::
        r.restHi :: r.restLo :: below⟩ := straight 18 rfl
  exact division_turn 179 183 184 187 215 _ _ _ gt rfl rfl (straight 3 rfl) rfl rfl (straight 3 rfl)
    rfl rfl rfl (straight 19 rfl) (straight 28 rfl) (straight 28 rfl) rfl rfl rfl

/-- The end of the sequence: the limbs are packed with shifts by the constant 32 and moved down. -/
lemma remU_pack :
    (stackMachine opI64RemU).Steps
      ⟨216, a :: b :: c :: lo :: d :: hi :: dh :: dl :: nh :: nl :: below⟩
      ⟨352, pushValue (.i64 (joinLimbs lo hi)) below⟩ := by
  have high : (stackMachine opI64RemU).Steps
      ⟨216, a :: b :: c :: lo :: d :: hi :: dh :: dl :: nh :: nl :: below⟩
      ⟨273, 0 :: 32 :: 0 :: 32 :: hi :: hi :: a :: b :: c :: lo :: d :: hi :: dh :: dl :: nh :: nl ::
        below⟩ := straight 19 rfl
  have low : (stackMachine opI64RemU).Steps
      ⟨273, 0 :: 32 :: 0 :: 32 :: hi :: hi :: a :: b :: c :: lo :: d :: hi :: dh :: dl :: nh :: nl ::
        below⟩
      ⟨314, 0 :: 32 :: hi <<< 0 :: 0 :: 0 :: 32 :: 0 :: 32 :: hi :: hi :: a :: b :: c :: lo :: d ::
        hi :: dh :: dl :: nh :: nl :: below⟩ := straight 23 rfl
  have move : (stackMachine opI64RemU).Steps
      ⟨314, 0 :: 32 :: hi <<< 0 :: 0 :: 0 :: 32 :: 0 :: 32 :: hi :: hi :: a :: b :: c :: lo :: d ::
        hi :: dh :: dl :: nh :: nl :: below⟩
      ⟨352, (0 ||| (0 ||| hi <<< 0)) :: (lo ||| (0 ||| 0)) :: below⟩ := straight 38 rfl
  have packed : pushValue (.i64 (joinLimbs lo hi)) below =
      (0 ||| (0 ||| hi <<< 0)) :: (lo ||| (0 ||| 0)) :: below := by
    simp [pushValue]
  rw [packed]
  exact (high.trans low).trans move

/-- The loop over all bits divides by every divisor. -/
lemma remU_general (ne : joinLimbs dl dh ≠ 0) :
    (stackMachine opI64RemU).Steps
      ⟨151, 0 :: 0 :: 0 :: 0 :: 0 :: 0 :: dh :: dl :: nh :: nl :: below⟩
      ⟨352, pushValue (.i64 (joinLimbs nl nh % joinLimbs dl dh)) below⟩ := by
  obtain ⟨r, t, -, rem, run⟩ := (remU_loop dl dh below).divides (n := joinLimbs nl nh) ne rfl 0
  have enter : (stackMachine opI64RemU).Steps
      ⟨151, 0 :: 0 :: 0 :: 0 :: 0 :: 0 :: dh :: dl :: nh :: nl :: below⟩
      ⟨157, remUStack dl dh below 64 ⟨nl, nh, 0, 0, 0, 0⟩ 0⟩ := straight 6 rfl
  rw [← rem]
  exact enter.trans (run.trans remU_pack)

section Short

/-- What is left of all but the `k` lowest bits of `n`. -/
def Remains (n : Nat) (d : UntypedValue) (k : Nat) (rem : UntypedValue) : Prop :=
  ∃ q, Dividing n d.toNat k q rem.toNat

/-- A bit goes into the remainder, and the divisor is taken off where it fits. -/
def nextRem (d x rem : UntypedValue) : UntypedValue :=
  (x ||| rem <<< 1) - if (ofBool ((x ||| rem <<< 1).ult d)).toBool then 0 else d

variable {n k : Nat} {rem x : UntypedValue}

/-- What is left is below the divisor. -/
lemma Remains.lt (h : Remains n d k rem) : rem.toNat < d.toNat := by
  obtain ⟨q, dividing⟩ := h
  exact dividing.lt

/-- At the end the remainder is left. -/
lemma Remains.mod (h : Remains n d 0 rem) : n % d.toNat = rem.toNat := by
  obtain ⟨q, dividing⟩ := h
  exact dividing.finish.2

/-- A turn takes the next bit in. -/
lemma Remains.next (h : Remains n d (k + 1) rem) (small : d.toNat < 2 ^ 31)
    (bit : x.toNat = (n.testBit k).toNat) : Remains n d k (nextRem d x rem) := by
  obtain ⟨q, dividing⟩ := h
  have shifted := toNat_shiftedIn bit (dividing.lt.trans small)
  rw [nextRem, toBool_ofBool]
  cases less : (x ||| rem <<< 1).ult d with
  | true =>
    refine ⟨2 * q, ?_⟩
    rw [if_pos rfl, sub_zero, shifted]
    exact dividing.skip (by rw [← shifted]; exact BitVec.ult_iff_lt.mp less)
  | false =>
    have le : d.toNat ≤ (x ||| rem <<< 1).toNat := by
      simpa [BitVec.ult] using less
    refine ⟨2 * q + 1, ?_⟩
    rw [if_neg Bool.false_ne_true, BitVec.toNat_sub_of_le le, shifted]
    exact dividing.take (by rw [← shifted]; exact le)

/-- The stack of the first short loop with `k` turns to go. -/
def HighRemains (below : List UntypedValue) (nl nh dl : UntypedValue) (k : Nat)
    (st : List UntypedValue) : Prop :=
  ∃ a b rem, st = 0 :: 0 :: 0 :: a :: rem :: BitVec.ofNat 32 (2 * k) :: b :: dl :: nh :: nl :: below ∧
    k ≤ 32 ∧ Remains nh.toNat dl (2 * k) rem

/-- The stack of the second one, for the remainder of the high half. -/
def LowRemains (below : List UntypedValue) (nl dl high : UntypedValue) (k : Nat)
    (st : List UntypedValue) : Prop :=
  ∃ a b rem, st = 0 :: 0 :: 0 :: rem :: high :: BitVec.ofNat 32 (31 + 2 * k) :: a :: dl :: b :: nl ::
      below ∧
    k ≤ 32 ∧ Remains (2 ^ 32 * high.toNat + nl.toNat) dl (2 * k) rem

/-- A turn of the first loop. -/
lemma high_bits :
    (stackMachine opI64RemU).Steps ⟨19, 0 :: 0 :: 0 :: a :: e :: c :: b :: dl :: nh :: nl :: below⟩
      ⟨75, ofBool (c + -1 != 1) :: 0 :: 0 :: 0 :: (c + -1) ::
        nextRem dl
          (if (ofBool ((32 : UntypedValue).ult (c + -1))).toBool then 0
            else nh >>> ((c + -2) &&& 0x1F).toNat &&& 1)
          (nextRem dl
            (if (ofBool ((32 : UntypedValue).ult c)).toBool then 0
              else nh >>> ((c + -1) &&& 0x1F).toNat &&& 1) e) ::
        (c + -2) :: ofBool ((32 : UntypedValue).ult c) :: dl :: nh :: nl :: below⟩ :=
  straight 56 rfl

/-- A turn of the second loop. -/
lemma low_bits :
    (stackMachine opI64RemU).Steps ⟨80, 0 :: 0 :: 0 :: e :: h :: c :: a :: dl :: b :: nl :: below⟩
      ⟨145, (c + -33) :: 0 :: 0 :: 0 ::
        nextRem dl
          ((if (ofBool ((32 : UntypedValue).ult (c + -32))).toBool
            then h >>> (((c + -1) &&& 30) &&& 0x1F).toNat
            else nl >>> ((c + -33) &&& 0x1F).toNat) &&& 1)
          (nextRem dl
            ((if (ofBool ((32 : UntypedValue).ult (c + -31))).toBool
              then h >>> (c &&& 0x1F).toNat
              else nl >>> ((c + -32) &&& 0x1F).toNat) &&& 1) e) ::
        h :: (c + -2) :: (c + -32) :: dl :: (c + -33) :: nl :: below⟩ :=
  straight 65 rfl

/-- The counts of a turn of the first loop with `k` turns to go behind it. -/
lemma high_counts :
    ∀ k < 32, BitVec.ofNat 32 (2 * (k + 1)) + (-2 : UntypedValue) = BitVec.ofNat 32 (2 * k) ∧
      (BitVec.ofNat 32 (2 * (k + 1)) + (-1 : UntypedValue) != 1) = decide (k ≠ 0) ∧
      (32 : UntypedValue).ult (BitVec.ofNat 32 (2 * (k + 1))) = decide (16 ≤ k) ∧
      (32 : UntypedValue).ult (BitVec.ofNat 32 (2 * (k + 1)) + -1) = decide (16 ≤ k) ∧
      ((BitVec.ofNat 32 (2 * (k + 1)) + -1) &&& (0x1F : UntypedValue)).toNat = (2 * k + 1) % 32 ∧
      ((BitVec.ofNat 32 (2 * (k + 1)) + -2) &&& (0x1F : UntypedValue)).toNat = 2 * k % 32 := by
  decide +kernel

/-- The counts of a turn of the second loop with `k` turns to go behind it. -/
lemma low_counts :
    ∀ k < 32, BitVec.ofNat 32 (31 + 2 * (k + 1)) + (-2 : UntypedValue) = BitVec.ofNat 32 (31 + 2 * k) ∧
      (BitVec.ofNat 32 (31 + 2 * (k + 1)) + (-33 : UntypedValue) = 0 ↔ k = 0) ∧
      (32 : UntypedValue).ult (BitVec.ofNat 32 (31 + 2 * (k + 1)) + -31) = decide (16 ≤ k) ∧
      (32 : UntypedValue).ult (BitVec.ofNat 32 (31 + 2 * (k + 1)) + -32) = decide (16 ≤ k) ∧
      (BitVec.ofNat 32 (31 + 2 * (k + 1)) &&& (0x1F : UntypedValue)).toNat = (2 * k + 1) % 32 ∧
      ((BitVec.ofNat 32 (31 + 2 * (k + 1)) + -32) &&& (0x1F : UntypedValue)).toNat =
        (2 * k + 1) % 32 ∧
      ((BitVec.ofNat 32 (31 + 2 * (k + 1)) + -1) &&& (30 : UntypedValue) &&& 0x1F).toNat =
        2 * k % 32 ∧
      ((BitVec.ofNat 32 (31 + 2 * (k + 1)) + -33) &&& (0x1F : UntypedValue)).toNat = 2 * k % 32 := by
  decide +kernel

/-- A bit of the high half, at a place that is given modulo 32. -/
lemma toNat_highBit (x : UntypedValue) {i : Nat} {c : Bool} (hc : c = decide (32 ≤ i)) :
    (if (ofBool c).toBool then 0 else x >>> (i % 32) &&& (1 : UntypedValue)).toNat =
      (x.toNat.testBit i).toNat := by
  rw [toBool_ofBool, hc]
  rcases Nat.lt_or_ge i 32 with low | high
  · rw [decide_eq_false (by omega), if_neg Bool.false_ne_true, Nat.mod_eq_of_lt low, toNat_bit]
  · have none : x.toNat.testBit i = false :=
      Nat.testBit_lt_two_pow (x.isLt.trans_le (Nat.pow_le_pow_right (by omega) high))
    rw [decide_eq_true high, if_pos rfl, none]
    rfl

/-- A bit of two halves, at a place below 64 that is given modulo 32. -/
lemma toNat_limbsBit (x y : UntypedValue) {i : Nat} (hi : i < 64) {c : Bool} (hc : c = decide (32 ≤ i)) :
    ((if (ofBool c).toBool then y >>> (i % 32) else x >>> (i % 32)) &&& (1 : UntypedValue)).toNat =
      ((2 ^ 32 * y.toNat + x.toNat).testBit i).toNat := by
  rw [toBool_ofBool, hc, Nat.testBit_two_pow_mul_add y.toNat x.isLt i]
  rcases Nat.lt_or_ge i 32 with low | high
  · rw [decide_eq_false (by omega), if_neg Bool.false_ne_true, if_pos low, Nat.mod_eq_of_lt low,
      toNat_bit]
  · rw [decide_eq_true high, if_pos rfl, if_neg (by omega), toNat_bit, show i % 32 = i - 32 by omega]

/-- A turn over the bits of the high limb. -/
lemma high_bits_turn (small : dl.toNat < 2 ^ 31) (k : Nat) (st : List UntypedValue)
    (h : HighRemains below nl nh dl (k + 1) st) :
    ∃ st', HighRemains below nl nh dl k st' ∧
      (stackMachine opI64RemU).Steps ⟨19, st⟩ ⟨if k = 0 then 76 else 19, st'⟩ := by
  obtain ⟨a, b, e, rfl, le, remains⟩ := h
  obtain ⟨count, last, high, high', one, two⟩ := high_counts k (by omega)
  have run := @high_bits below nl nh dl a b (BitVec.ofNat 32 (2 * (k + 1))) e
  rw [one, two, last, count] at run
  have bit := @toNat_highBit nh (2 * k + 1) _ (high.trans (decide_eq_decide.mpr (by omega)))
  have bit' := @toNat_highBit nh (2 * k) _ (high'.trans (decide_eq_decide.mpr (by omega)))
  exact ⟨_, ⟨_, _, _, rfl, by omega, (remains.next small bit).next small bit'⟩,
    run.trans (brIfNez_more rfl rfl rfl)⟩

/-- A turn over the bits of the low limb. -/
lemma low_bits_turn (small : dl.toNat < 2 ^ 31) (k : Nat) (st : List UntypedValue)
    (h' : LowRemains below nl dl h (k + 1) st) :
    ∃ st', LowRemains below nl dl h k st' ∧
      (stackMachine opI64RemU).Steps ⟨80, st⟩ ⟨if k = 0 then 146 else 80, st'⟩ := by
  obtain ⟨a, b, e, rfl, le, remains⟩ := h'
  obtain ⟨count, last, high, high', one, one', two, two'⟩ := low_counts k (by omega)
  have run := @low_bits below nl dl a b (BitVec.ofNat 32 (31 + 2 * (k + 1))) e h
  rw [one, one', two, two', count] at run
  have bit := @toNat_limbsBit nl h (2 * k + 1) (by omega) _
    (high.trans (decide_eq_decide.mpr (by omega)))
  have bit' := @toNat_limbsBit nl h (2 * k) (by omega) _
    (high'.trans (decide_eq_decide.mpr (by omega)))
  have back := fun st => @brIfNez_back opI64RemU 145 _ st
    (BitVec.ofNat 32 (31 + 2 * (k + 1)) + -33) rfl 80 146 rfl rfl
  simp only [last] at back
  exact ⟨_, ⟨_, _, _, rfl, by omega, (remains.next small bit).next small bit'⟩, run.trans (back _)⟩

/-- The two short loops divide by every divisor below `2^31`. -/
lemma remU_short (small : dl.toNat < 2 ^ 31) (ne : dl ≠ 0) :
    (stackMachine opI64RemU).Steps ⟨15, 0 :: 0 :: 0 :: 0 :: 0 :: 0 :: 0 :: dl :: nh :: nl :: below⟩
      ⟨352, pushValue (.i64 (joinLimbs nl nh % joinLimbs dl 0)) below⟩ := by
  have pos : 0 < dl.toNat := Nat.pos_of_ne_zero (by simpa [BitVec.toNat_eq] using ne)
  have start : HighRemains below nl nh dl 32
      (0 :: 0 :: 0 :: 0 :: 0 :: 64 :: 0 :: dl :: nh :: nl :: below) :=
    ⟨0, 0, 0, rfl, le_refl 32, 0, .start pos (nh.isLt.trans (by norm_num))⟩
  obtain ⟨_, ⟨a, b, high, rfl, -, remains⟩, run⟩ := countdown (high_bits_turn small) start
  have start' : LowRemains below nl dl high 32
      (0 :: 0 :: 0 :: 0 :: high :: 95 :: b :: dl :: nh :: nl :: below) :=
    ⟨b, nh, 0, rfl, le_refl 32, 0, .start pos (by have := nl.isLt; have := high.isLt; omega)⟩
  obtain ⟨_, ⟨a', b', rem, rfl, -, remains'⟩, run'⟩ := countdown (low_bits_turn small) start'
  have enter : (stackMachine opI64RemU).Steps
      ⟨15, 0 :: 0 :: 0 :: 0 :: 0 :: 0 :: 0 :: dl :: nh :: nl :: below⟩
      ⟨19, 0 :: 0 :: 0 :: 0 :: 0 :: 64 :: 0 :: dl :: nh :: nl :: below⟩ := straight 4 rfl
  have between : (stackMachine opI64RemU).Steps
      ⟨76, 0 :: 0 :: 0 :: a :: high :: BitVec.ofNat 32 (2 * 0) :: b :: dl :: nh :: nl :: below⟩
      ⟨80, 0 :: 0 :: 0 :: 0 :: high :: 95 :: b :: dl :: nh :: nl :: below⟩ := straight 4 rfl
  have leave : (stackMachine opI64RemU).Steps
      ⟨146, 0 :: 0 :: 0 :: rem :: high :: BitVec.ofNat 32 (31 + 2 * 0) :: a' :: dl :: b' :: nl ::
        below⟩ ⟨352, (0 ||| 0) :: (rem ||| 0) :: below⟩ := straight 25 rfl
  have mod : joinLimbs nl nh % joinLimbs dl 0 = joinLimbs rem 0 := by
    apply BitVec.eq_of_toNat_eq
    rw [BitVec.toNat_umod, toNat_joinLimbs, toNat_joinLimbs, toNat_joinLimbs, ← remains'.mod,
      ← remains.mod, show (0 : UntypedValue).toNat = 0 from rfl, Nat.mul_zero, Nat.zero_add,
      Nat.zero_add]
    exact (((Nat.mod_modEq nh.toNat dl.toNat).mul_left (2 ^ 32)).add_right nl.toNat).symm
  have packed : pushValue (.i64 (joinLimbs rem 0)) below = (0 ||| 0) :: (rem ||| 0) :: below := by
    simp [pushValue]
  rw [mod, packed]
  exact enter.trans (run.trans (between.trans (run'.trans leave)))

end Short

/-- The length of the code, which is where it ends. -/
lemma length_opI64RemU : opI64RemU.length = 352 := by
  decide +kernel

/-- The test of the high limb of the divisor. -/
lemma remU_start :
    (stackMachine opI64RemU).Steps ⟨0, dh :: dl :: nh :: nl :: below⟩
      ⟨7, dh :: 0 :: 0 :: 0 :: 0 :: 0 :: 0 :: dh :: dl :: nh :: nl :: below⟩ :=
  straight 7 rfl

/-- The test of the low one. -/
lemma remU_start_low :
    (stackMachine opI64RemU).Steps ⟨8, 0 :: 0 :: 0 :: 0 :: 0 :: 0 :: dh :: dl :: nh :: nl :: below⟩
      ⟨9, dl :: 0 :: 0 :: 0 :: 0 :: 0 :: 0 :: dh :: dl :: nh :: nl :: below⟩ :=
  straight 1 rfl

/-- A divisor of one limb. -/
lemma remU_limb (ne : dl ≠ 0) :
    (stackMachine opI64RemU).Steps ⟨11, 0 :: 0 :: 0 :: 0 :: 0 :: 0 :: 0 :: dl :: nh :: nl :: below⟩
      ⟨352, pushValue (.i64 (joinLimbs nl nh % joinLimbs dl 0)) below⟩ := by
  have sign : (stackMachine opI64RemU).Steps
      ⟨11, 0 :: 0 :: 0 :: 0 :: 0 :: 0 :: 0 :: dl :: nh :: nl :: below⟩
      ⟨14, ofBool (dl.slt 0) :: 0 :: 0 :: 0 :: 0 :: 0 :: 0 :: 0 :: dl :: nh :: nl :: below⟩ :=
    straight 3 rfl
  have msb : dl.slt 0 = dl.msb := BitVec.slt_zero_eq_msb
  rw [msb] at sign
  cases s : dl.msb with
  | true =>
    rw [s] at sign
    have ne' : joinLimbs dl 0 ≠ 0 := fun zero => ne (joinLimbs_eq_zero_iff.mp zero).1
    exact sign.trans ((brIfNez_taken rfl rfl rfl).trans (remU_general ne'))
  | false =>
    rw [s] at sign
    have small := BitVec.msb_eq_false_iff_two_mul_lt.mp s
    exact sign.trans ((brIfNez_passed rfl rfl).trans (remU_short (by omega) ne))

/-- `i64.rem_u` pushes the remainder of the division that rounds down, and traps exactly where the
divisor is zero. -/
theorem opI64RemU_implements :
    Implements opI64RemU fun n d =>
      if d = 0 then .error .integerDivisionByZero
      else .ok (BitVec.ofNat 64 (n.toNat % d.toNat)) := by
  refine implements_of_stackMachine (fun n d v below eq => ?_) (fun n d trap below eq => ?_)
  · split at eq
    next => cases eq
    next ne =>
      obtain rfl : n % d = v := by
        rw [← Except.ok.inj eq, ← BitVec.toNat_umod, BitVec.ofNat_toNat, BitVec.setWidth_eq]
      obtain ⟨nl, nh, rfl⟩ := exists_limbs n
      obtain ⟨dl, dh, rfl⟩ := exists_limbs d
      rw [length_opI64RemU]
      simp only [pushValue, split_joinLimbs]
      refine remU_start.trans ?_
      cases h : dh.toBool with
      | true => exact (brIfNez_taken rfl h rfl).trans (remU_general ne)
      | false =>
        obtain rfl : dh = 0 := by simpa [UntypedValue.toBool] using h
        have low : dl ≠ 0 := fun zero => ne (joinLimbs_eq_zero_iff.mpr ⟨zero, rfl⟩)
        exact (brIfNez_passed rfl h).trans (remU_start_low.trans
          ((brIfNez_taken rfl (bne_iff_ne.mpr low) rfl).trans (remU_limb low)))
  · split at eq
    next zero =>
      cases eq
      subst zero
      have run : (stackMachine opI64RemU).Steps ⟨7, 0 :: 0 :: 0 :: 0 :: 0 :: 0 :: 0 :: 0 :: 0 ::
          (splitIntoI32Tuple n).2 :: (splitIntoI32Tuple n).1 :: below⟩ ⟨10, _⟩ :=
        (brIfNez_passed rfl rfl).trans (remU_start_low.trans (brIfNez_passed rfl rfl))
      exact (remU_start.trans run).halts (.now rfl)
    next => cases eq

end Rwasm
