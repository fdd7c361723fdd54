import Rwasm.Isa.DivisionLoop
import Rwasm.Isa.Division

/-!
# The unsigned division

The sequence of `i64.div_u` answers at once where the dividend is below the divisor, divides the two
halves of the dividend one after the other where the divisor has fewer than 32 bits, and runs the loop
over all 64 bits else.
-/

namespace Rwasm

open UntypedValue LongDivision InstructionSet

variable {below : List UntypedValue} {nl nh dl dh a b c d e f g : UntypedValue}

/-- The stack of the loop over all bits. -/
def divUStack (lo hi : UntypedValue) (below : List UntypedValue) (k : UntypedValue)
    (r : DivisionLimbs) (t : UntypedValue × UntypedValue) : List UntypedValue :=
  t.1 :: k :: r.remLo :: r.remHi :: t.2 :: r.quotLo :: r.quotHi :: hi :: lo :: r.restHi ::
    r.restLo :: below

/-- The long loop is that of long division. -/
lemma divU_loop (lo hi : UntypedValue) (below : List UntypedValue) :
    DivisionLoop opI64DivU 195 272 (joinLimbs lo hi) (divUStack lo hi below) := by
  intro k r t
  have gt : (stackMachine opI64DivU).Steps ⟨195, divUStack lo hi below k r t⟩
      ⟨213, ofBool (hi.ult r.nextHi) :: t.1 :: k :: r.remLo :: r.nextHi :: r.nextLo :: r.quotLo ::
        r.quotHi :: hi :: lo :: r.restHi :: r.restLo :: below⟩ := straight 18 rfl
  exact division_turn 219 223 224 227 271 _ (0, r.nextLo) (1, r.nextLo) gt rfl rfl (straight 5 rfl)
    rfl rfl (straight 3 rfl) rfl rfl rfl (straight 33 rfl) (straight 44 rfl) (straight 44 rfl)
    rfl rfl rfl

/-- The end of the sequence: the limbs are packed with shifts by the constant 32 and moved down. -/
lemma divU_pack :
    (stackMachine opI64DivU).Steps
      ⟨272, g :: f :: e :: d :: c :: b :: a :: dh :: dl :: nh :: nl :: below⟩
      ⟨405, pushValue (.i64 (joinLimbs b a)) below⟩ := by
  have high : (stackMachine opI64DivU).Steps
      ⟨272, g :: f :: e :: d :: c :: b :: a :: dh :: dl :: nh :: nl :: below⟩
      ⟨329, 0 :: 32 :: 0 :: 32 :: a :: a :: g :: f :: e :: d :: c :: b :: a :: dh :: dl :: nh ::
        nl :: below⟩ := straight 19 rfl
  have low : (stackMachine opI64DivU).Steps
      ⟨329, 0 :: 32 :: 0 :: 32 :: a :: a :: g :: f :: e :: d :: c :: b :: a :: dh :: dl :: nh ::
        nl :: below⟩
      ⟨370, 0 :: 32 :: a <<< 0 :: 0 :: 0 :: 32 :: 0 :: 32 :: a :: a :: g :: f :: e :: d :: c :: b ::
        a :: dh :: dl :: nh :: nl :: below⟩ := straight 23 rfl
  have move : (stackMachine opI64DivU).Steps
      ⟨370, 0 :: 32 :: a <<< 0 :: 0 :: 0 :: 32 :: 0 :: 32 :: a :: a :: g :: f :: e :: d :: c :: b ::
        a :: dh :: dl :: nh :: nl :: below⟩
      ⟨405, (0 ||| (0 ||| a <<< 0)) :: (b ||| (0 ||| 0)) :: below⟩ := straight 35 rfl
  have packed : pushValue (.i64 (joinLimbs b a)) below =
      (0 ||| (0 ||| a <<< 0)) :: (b ||| (0 ||| 0)) :: below := by
    simp [pushValue]
  rw [packed]
  exact (high.trans low).trans move

/-- The loop over all bits divides by every divisor. -/
lemma divU_general (ne : joinLimbs dl dh ≠ 0) :
    (stackMachine opI64DivU).Steps
      ⟨185, g :: f :: e :: d :: c :: b :: a :: dh :: dl :: nh :: nl :: below⟩
      ⟨405, pushValue (.i64 (joinLimbs nl nh / joinLimbs dl dh)) below⟩ := by
  obtain ⟨r, t, quot, -, run⟩ := (divU_loop dl dh below).divides (n := joinLimbs nl nh) ne rfl (g, c)
  have enter : (stackMachine opI64DivU).Steps
      ⟨185, g :: f :: e :: d :: c :: b :: a :: dh :: dl :: nh :: nl :: below⟩
      ⟨195, divUStack dl dh below 64 ⟨nl, nh, 0, 0, 0, 0⟩ (g, c)⟩ := straight 10 rfl
  rw [← quot]
  exact enter.trans (run.trans divU_pack)

section Short

/-- All but the `k` lowest bits of `n` are divided by `d`, the bits of the quotient at their places. -/
def InPlace (n : Nat) (d : UntypedValue) (k : Nat) (quot rem : UntypedValue) : Prop :=
  ∃ q, Dividing n d.toNat k q rem.toNat ∧ quot.toNat = q * 2 ^ k

variable {n k : Nat} {quot rem rem' : UntypedValue}

/-- A bit at which the divisor does not fit. -/
lemma InPlace.skip (h : InPlace n d (k + 1) quot rem)
    (next : rem'.toNat = 2 * rem.toNat + (n.testBit k).toNat) (lt : rem'.ult d = true) :
    InPlace n d k quot rem' := by
  obtain ⟨q, dividing, place⟩ := h
  refine ⟨2 * q, ?_, by rw [place, pow_succ]; ring⟩
  rw [next]
  exact dividing.skip (by rw [← next]; exact BitVec.ult_iff_lt.mp lt)

/-- A bit at which the divisor is taken off. -/
lemma InPlace.take (h : InPlace n d (k + 1) quot rem) (hk : k < 32)
    (next : rem'.toNat = 2 * rem.toNat + (n.testBit k).toNat) (nlt : rem'.ult d = false) :
    InPlace n d k (quot ||| (1 : UntypedValue) <<< k) (rem' - d) := by
  obtain ⟨q, dividing, place⟩ := h
  have le : d.toNat ≤ rem'.toNat := by
    simpa [BitVec.ult] using nlt
  have pow : 2 ^ k < 2 ^ 32 := Nat.pow_lt_pow_right (by omega) hk
  have bit : ((1 : UntypedValue) <<< k).toNat = 2 ^ k := by
    rw [BitVec.toNat_shiftLeft, Nat.shiftLeft_eq, show (1 : UntypedValue).toNat = 1 from rfl,
      Nat.one_mul, Nat.mod_eq_of_lt pow]
  refine ⟨2 * q + 1, ?_, ?_⟩
  · rw [BitVec.toNat_sub_of_le le, next]
    exact dividing.take (by rw [← next]; exact le)
  · have less : 2 ^ k < 2 ^ (k + 1) := Nat.pow_lt_pow_right (by omega) (by omega)
    rw [BitVec.toNat_or, bit, place, Nat.mul_comm, ← Nat.two_pow_add_eq_or_of_lt less, pow_succ]
    ring

/-- A quotient that fits into a limb has no bits above it. -/
lemma InPlace.above (h : InPlace n d (k + 1) quot rem) (hk : 32 ≤ k) (lt : n < d.toNat * 2 ^ 32)
    (next : rem'.toNat = 2 * rem.toNat + (n.testBit k).toNat) : rem'.ult d = true := by
  obtain ⟨q, dividing, -⟩ := h
  have pow : 2 ^ 32 ≤ 2 ^ k := Nat.pow_le_pow_right (by omega) hk
  have small : n / 2 ^ k < d.toNat :=
    (Nat.div_lt_iff_lt_mul (by positivity)).mpr (lt.trans_le (Nat.mul_le_mul_left _ pow))
  rw [dividing.shift, ← next] at small
  exact BitVec.ult_iff_lt.mpr (BitVec.lt_def.mpr (by omega))

/-- The stack of the two short loops. -/
def shortStack (below : List UntypedValue) (nl nh dl dh a b c d e : UntypedValue) : List UntypedValue :=
  0 :: 0 :: e :: d :: c :: b :: a :: dh :: dl :: nh :: nl :: below

/-- The first short loop divides the high half of the dividend; `c` holds the count. -/
def HighLeft (below : List UntypedValue) (nl nh dl : UntypedValue) (k : Nat)
    (st : List UntypedValue) : Prop :=
  ∃ a b d e, st = shortStack below nl nh dl 0 a b (BitVec.ofNat 32 (31 + k)) d e ∧
    k ≤ 64 ∧ InPlace nh.toNat dl k a d

/-- The second one divides the low half behind the remainder of the first. -/
def LowLeft (below : List UntypedValue) (nl dl a d : UntypedValue) (k : Nat)
    (st : List UntypedValue) : Prop :=
  ∃ nh dh b e, st = shortStack below nl nh dl dh a b (BitVec.ofNat 32 (31 + k)) d e ∧
    k ≤ 64 ∧ InPlace (2 ^ 32 * d.toNat + nl.toNat) dl k b nh

/-- The count goes down by one. -/
lemma count_sub_one (k : Nat) : BitVec.ofNat 32 (31 + (k + 1)) + -1 = BitVec.ofNat 32 (31 + k) := by
  rw [show 31 + (k + 1) = 32 + k by omega, ofNat_add_cancel (m := 32) (y := 31) rfl, BitVec.ofNat_add]
  rfl

/-- The place of a bit, from the count. -/
lemma count_sub_31 (k : Nat) : BitVec.ofNat 32 (31 + k) + -31 = BitVec.ofNat 32 k := by
  rw [ofNat_add_cancel (m := 31) (y := 0) rfl, zero_add]

/-- The place of the next bit. -/
lemma count_sub_32 (k : Nat) : BitVec.ofNat 32 (31 + (k + 1)) + -32 = BitVec.ofNat 32 k := by
  rw [show 31 + (k + 1) = 32 + k by omega, ofNat_add_cancel (m := 32) (y := 0) rfl, zero_add]

/-- Counts compare as numbers. -/
lemma ult_count {m k : Nat} (hm : m < 2 ^ 32) (hk : k < 2 ^ 32) :
    (BitVec.ofNat 32 m).ult (BitVec.ofNat 32 k) = decide (m < k) := by
  rw [BitVec.ult, BitVec.toNat_ofNat, BitVec.toNat_ofNat, Nat.mod_eq_of_lt hm, Nat.mod_eq_of_lt hk]

section Turns

/-- The head of a turn of the first loop. -/
lemma high_head :
    (stackMachine opI64DivU).Steps ⟨43, shortStack below nl nh dl 0 a b c d e⟩
      ⟨53, ofBool ((32 : UntypedValue).ult (c + -31)) ::
        shortStack below nl nh dl 0 a (c + -31) c (d <<< 1) e⟩ :=
  straight 10 rfl

/-- A bit of the high half goes into the remainder. -/
lemma high_bit :
    (stackMachine opI64DivU).Steps ⟨54, shortStack below nl nh dl 0 a b c d e⟩
      ⟨67, ofBool ((nh >>> ((c + -32) &&& 0x1F).toNat &&& (1 : UntypedValue) ||| d).ult dl) ::
        shortStack below nl nh dl 0 a b c
          (nh >>> ((c + -32) &&& 0x1F).toNat &&& (1 : UntypedValue) ||| d) (c + -32)⟩ :=
  straight 13 rfl

/-- Above the high half there is no bit. -/
lemma high_idle :
    (stackMachine opI64DivU).Steps ⟨79, shortStack below nl nh dl 0 a b c d e⟩
      ⟨82, ofBool (d.ult dl) :: shortStack below nl nh dl 0 a b c d e⟩ :=
  straight 3 rfl

/-- The divisor fits. -/
lemma high_take :
    (stackMachine opI64DivU).Steps ⟨68, shortStack below nl nh dl 0 a b c d e⟩
      ⟨93, shortStack below nl nh dl 0 (a ||| (1 : UntypedValue) <<< (e &&& 0x1F).toNat) b c
        (d - dl) e⟩ :=
  straight 11 rfl

/-- The end of a turn of the first short loop. -/
lemma high_tail :
    (stackMachine opI64DivU).Steps ⟨93, shortStack below nl nh dl 0 a b c d e⟩
      ⟨100, ofBool ((1 : UntypedValue).ult b) :: shortStack below nl nh dl 0 a b (c + -1) d e⟩ :=
  straight 7 rfl

/-- The head of a turn of the second loop. -/
lemma low_head :
    (stackMachine opI64DivU).Steps ⟨107, shortStack below nl nh dl dh a b c d e⟩
      ⟨117, ofBool ((32 : UntypedValue).ult (c + -31)) ::
        shortStack below nl (nh <<< 1) dl dh a b c d (c + -31)⟩ :=
  straight 10 rfl

/-- A bit of the low half goes into the remainder. -/
lemma low_bit :
    (stackMachine opI64DivU).Steps ⟨118, shortStack below nl nh dl dh a b c d e⟩
      ⟨131, ofBool ((nl >>> ((c + -32) &&& 0x1F).toNat &&& (1 : UntypedValue) ||| nh).ult dl) ::
        shortStack below nl (nl >>> ((c + -32) &&& 0x1F).toNat &&& (1 : UntypedValue) ||| nh) dl
          (c + -32) a b c d e⟩ :=
  straight 13 rfl

/-- The turn of the second short loop that takes the divisor off. -/
lemma low_take :
    (stackMachine opI64DivU).Steps ⟨132, shortStack below nl nh dl dh a b c d e⟩
      ⟨166, shortStack below nl (nh - dl) dl dh a
        (b ||| (1 : UntypedValue) <<< (dh &&& 0x1F).toNat) c d e⟩ :=
  straight 11 rfl

/-- A bit of the remainder of the high half goes into the remainder. -/
lemma carry_bit :
    (stackMachine opI64DivU).Steps ⟨143, shortStack below nl nh dl dh a b c d e⟩
      ⟨153, ofBool ((d >>> (c &&& 0x1F).toNat &&& (1 : UntypedValue) ||| nh).ult dl) ::
        shortStack below nl (d >>> (c &&& 0x1F).toNat &&& (1 : UntypedValue) ||| nh) dl dh a b c d
          e⟩ :=
  straight 10 rfl

/-- The end of a turn of the second short loop. -/
lemma low_tail :
    (stackMachine opI64DivU).Steps ⟨166, shortStack below nl nh dl dh a b c d e⟩
      ⟨173, ofBool ((1 : UntypedValue).ult e) :: shortStack below nl nh dl dh a b (c + -1) d e⟩ :=
  straight 7 rfl

end Turns

/-- Whether there is a bit left. -/
lemma one_ult_count (hk : k < 64) :
    ofBool ((1 : UntypedValue).ult (BitVec.ofNat 32 (k + 1))) = ofBool (decide (k ≠ 0)) := by
  show ofBool ((BitVec.ofNat 32 1).ult _) = _
  rw [ult_count (by omega) (by omega)]
  congr 1
  exact decide_eq_decide.mpr (by omega)

/-- Whether the next bit is in the high limb. -/
lemma limit_ult_count (hk : k < 64) :
    ofBool ((32 : UntypedValue).ult (BitVec.ofNat 32 (k + 1))) = ofBool (decide (32 ≤ k)) := by
  show ofBool ((BitVec.ofNat 32 32).ult _) = _
  rw [ult_count (by omega) (by omega)]
  congr 1
  exact decide_eq_decide.mpr (by omega)

/-- What is left is below the divisor. -/
lemma InPlace.lt (h : InPlace n d k quot rem) : rem.toNat < d.toNat := by
  obtain ⟨q, dividing, -⟩ := h
  exact dividing.lt

/-- The end of a turn of the first loop. -/
lemma high_back {s : Cursor} (hk : k < 64) (place : InPlace nh.toNat dl k a d)
    (run : (stackMachine opI64DivU).Steps s
      ⟨93, shortStack below nl nh dl 0 a (BitVec.ofNat 32 (k + 1)) (BitVec.ofNat 32 (31 + (k + 1))) d e⟩) :
    ∃ st', HighLeft below nl nh dl k st' ∧
      (stackMachine opI64DivU).Steps s ⟨if k = 0 then 101 else 43, st'⟩ := by
  refine ⟨_, ⟨a, BitVec.ofNat 32 (k + 1), d, e, rfl, by omega, place⟩, run.trans ?_⟩
  rw [← count_sub_one k]
  refine high_tail.trans ?_
  rw [one_ult_count hk]
  exact brIfNez_more rfl rfl rfl

/-- The end of a turn of the second loop. -/
lemma low_back {s : Cursor} (hk : k < 64) (place : InPlace (2 ^ 32 * d.toNat + nl.toNat) dl k b nh)
    (run : (stackMachine opI64DivU).Steps s
      ⟨166, shortStack below nl nh dl dh a b (BitVec.ofNat 32 (31 + (k + 1))) d
        (BitVec.ofNat 32 (k + 1))⟩) :
    ∃ st', LowLeft below nl dl a d k st' ∧
      (stackMachine opI64DivU).Steps s ⟨if k = 0 then 174 else 107, st'⟩ := by
  refine ⟨_, ⟨nh, dh, b, BitVec.ofNat 32 (k + 1), rfl, by omega, place⟩, run.trans ?_⟩
  rw [← count_sub_one k]
  refine low_tail.trans ?_
  rw [one_ult_count hk]
  exact brIfNez_more rfl rfl rfl

/-- A turn of the first loop. -/
lemma high_turn (small : dl.toNat < 2 ^ 31) (k : Nat) (st : List UntypedValue)
    (h : HighLeft below nl nh dl (k + 1) st) :
    ∃ st', HighLeft below nl nh dl k st' ∧
      (stackMachine opI64DivU).Steps ⟨43, st⟩ ⟨if k = 0 then 101 else 43, st'⟩ := by
  obtain ⟨a, b, d, e, rfl, le, place⟩ := h
  have lt := place.lt.trans small
  have head : (stackMachine opI64DivU).Steps
      ⟨43, shortStack below nl nh dl 0 a b (BitVec.ofNat 32 (31 + (k + 1))) d e⟩
      ⟨53, ofBool (decide (32 ≤ k)) :: shortStack below nl nh dl 0 a (BitVec.ofNat 32 (k + 1))
        (BitVec.ofNat 32 (31 + (k + 1))) (d <<< 1) e⟩ := by
    rw [← limit_ult_count (by omega), ← count_sub_31 (k + 1)]
    exact high_head
  rcases Nat.lt_or_ge k 32 with low | high
  · have count : (BitVec.ofNat 32 k &&& 0x1F).toNat = k := by
      rw [toNat_shiftCount, Nat.mod_eq_of_lt low]
    have bit : (stackMachine opI64DivU).Steps
        ⟨54, shortStack below nl nh dl 0 a (BitVec.ofNat 32 (k + 1))
          (BitVec.ofNat 32 (31 + (k + 1))) (d <<< 1) e⟩
        ⟨67, ofBool ((nh >>> k &&& (1 : UntypedValue) ||| d <<< 1).ult dl) :: shortStack below nl nh dl
          0 a (BitVec.ofNat 32 (k + 1)) (BitVec.ofNat 32 (31 + (k + 1)))
          (nh >>> k &&& (1 : UntypedValue) ||| d <<< 1) (BitVec.ofNat 32 k)⟩ := by
      have taken := @high_bit below nl nh dl a (BitVec.ofNat 32 (k + 1))
        (BitVec.ofNat 32 (31 + (k + 1))) (d <<< 1) e
      rwa [count_sub_32, count] at taken
    have next := toNat_shiftedIn (toNat_bit nh k) lt
    have run := head.trans ((brIfNez_passed rfl (by rw [decide_eq_false (by omega)]; rfl)).trans bit)
    cases fits : (nh >>> k &&& (1 : UntypedValue) ||| d <<< 1).ult dl with
    | true =>
      exact high_back (by omega) (place.skip next fits)
        (run.trans (brIfNez_taken rfl (by rw [fits]; rfl) rfl))
    | false =>
      have set := @high_take below nl nh dl a (BitVec.ofNat 32 (k + 1))
        (BitVec.ofNat 32 (31 + (k + 1))) (nh >>> k &&& (1 : UntypedValue) ||| d <<< 1)
        (BitVec.ofNat 32 k)
      rw [count] at set
      exact high_back (by omega) (place.take low next fits)
        (run.trans ((brIfNez_passed rfl (by rw [fits]; rfl)).trans set))
  · have next : (d <<< 1).toNat = 2 * d.toNat + (nh.toNat.testBit k).toNat := by
      have none : nh.toNat.testBit k = false :=
        Nat.testBit_lt_two_pow (nh.isLt.trans_le (Nat.pow_le_pow_right (by omega) high))
      rw [none, BitVec.toNat_shiftLeft, Nat.shiftLeft_eq, Bool.toNat_false]
      omega
    have fits := place.above high (by have := nh.isLt; have := place.lt; omega) next
    have run := head.trans ((brIfNez_taken rfl (by rw [decide_eq_true high]; rfl) rfl).trans high_idle)
    exact high_back (by omega) (place.skip next fits)
      (run.trans (brIfNez_taken rfl (by rw [fits]; rfl) rfl))

/-- A turn of the second loop. -/
lemma low_turn (small : dl.toNat < 2 ^ 31) (lt : d.toNat < dl.toNat) (k : Nat) (st : List UntypedValue)
    (h : LowLeft below nl dl a d (k + 1) st) :
    ∃ st', LowLeft below nl dl a d k st' ∧
      (stackMachine opI64DivU).Steps ⟨107, st⟩ ⟨if k = 0 then 174 else 107, st'⟩ := by
  obtain ⟨nh, dh, b, e, rfl, le, place⟩ := h
  have fit := place.lt.trans small
  have head : (stackMachine opI64DivU).Steps
      ⟨107, shortStack below nl nh dl dh a b (BitVec.ofNat 32 (31 + (k + 1))) d e⟩
      ⟨117, ofBool (decide (32 ≤ k)) :: shortStack below nl (nh <<< 1) dl dh a b
        (BitVec.ofNat 32 (31 + (k + 1))) d (BitVec.ofNat 32 (k + 1))⟩ := by
    rw [← limit_ult_count (by omega), ← count_sub_31 (k + 1)]
    exact low_head
  have split := Nat.testBit_two_pow_mul_add d.toNat nl.isLt k
  rcases Nat.lt_or_ge k 32 with low | high
  · have count : (BitVec.ofNat 32 k &&& 0x1F).toNat = k := by
      rw [toNat_shiftCount, Nat.mod_eq_of_lt low]
    have bit : (stackMachine opI64DivU).Steps
        ⟨118, shortStack below nl (nh <<< 1) dl dh a b (BitVec.ofNat 32 (31 + (k + 1))) d
          (BitVec.ofNat 32 (k + 1))⟩
        ⟨131, ofBool ((nl >>> k &&& (1 : UntypedValue) ||| nh <<< 1).ult dl) :: shortStack below nl
          (nl >>> k &&& (1 : UntypedValue) ||| nh <<< 1) dl (BitVec.ofNat 32 k) a b
          (BitVec.ofNat 32 (31 + (k + 1))) d (BitVec.ofNat 32 (k + 1))⟩ := by
      have taken := @low_bit below nl (nh <<< 1) dl dh a b (BitVec.ofNat 32 (31 + (k + 1))) d
        (BitVec.ofNat 32 (k + 1))
      rwa [count_sub_32, count] at taken
    have next := toNat_shiftedIn (toNat_bit nl k) fit
    rw [if_pos low] at split
    rw [← split] at next
    have run := head.trans ((brIfNez_passed rfl (by rw [decide_eq_false (by omega)]; rfl)).trans bit)
    cases fits : (nl >>> k &&& (1 : UntypedValue) ||| nh <<< 1).ult dl with
    | true =>
      exact low_back (by omega) (place.skip next fits)
        (run.trans (brIfNez_taken rfl (by rw [fits]; rfl) rfl))
    | false =>
      have set := @low_take below nl (nl >>> k &&& (1 : UntypedValue) ||| nh <<< 1) dl
        (BitVec.ofNat 32 k) a b (BitVec.ofNat 32 (31 + (k + 1))) d (BitVec.ofNat 32 (k + 1))
      rw [count] at set
      exact low_back (by omega) (place.take low next fits)
        (run.trans ((brIfNez_passed rfl (by rw [fits]; rfl)).trans set))
  · have count : (BitVec.ofNat 32 (31 + (k + 1)) &&& 0x1F).toNat = k - 32 := by
      rw [toNat_shiftCount]
      omega
    have next := toNat_shiftedIn (toNat_bit d (k - 32)) fit
    rw [if_neg (by omega)] at split
    rw [← split] at next
    have fits := place.above high (by have := nl.isLt; omega) next
    have bit := @carry_bit below nl (nh <<< 1) dl dh a b (BitVec.ofNat 32 (31 + (k + 1))) d
      (BitVec.ofNat 32 (k + 1))
    rw [count] at bit
    have run := head.trans ((brIfNez_taken rfl (by rw [decide_eq_true high]; rfl) rfl).trans bit)
    exact low_back (by omega) (place.skip next fits)
      (run.trans (brIfNez_taken rfl (by rw [fits]; rfl) rfl))

/-- The two short loops divide by every divisor below `2^31`. -/
lemma divU_short (small : dl.toNat < 2 ^ 31) (ne : dl ≠ 0) :
    (stackMachine opI64DivU).Steps ⟨37, shortStack below nl nh dl 0 a b c d e⟩
      ⟨405, pushValue (.i64 (joinLimbs nl nh / joinLimbs dl 0)) below⟩ := by
  have pos : 0 < dl.toNat := Nat.pos_of_ne_zero (by simpa [BitVec.toNat_eq] using ne)
  have start : HighLeft below nl nh dl 64 (shortStack below nl nh dl 0 0 b 95 0 e) :=
    ⟨0, b, 0, e, rfl, le_refl 64, 0, .start pos (nh.isLt.trans (by norm_num)), rfl⟩
  obtain ⟨_, ⟨a', b', d', e', rfl, -, q, high, ha⟩, run⟩ := countdown (high_turn small) start
  have start' : LowLeft below nl dl a' d' 64 (shortStack below nl 0 dl 0 a' 0 95 d' e') :=
    ⟨0, 0, 0, e', rfl, le_refl 64, 0, .start pos (by have := nl.isLt; have := d'.isLt; omega), rfl⟩
  obtain ⟨_, ⟨nh', dh', b'', e'', rfl, -, q', low, hb⟩, run'⟩ :=
    countdown (low_turn small high.lt) start'
  have enter : (stackMachine opI64DivU).Steps ⟨37, shortStack below nl nh dl 0 a b c d e⟩
      ⟨43, shortStack below nl nh dl 0 0 b 95 0 e⟩ := straight 6 rfl
  have between : (stackMachine opI64DivU).Steps
      ⟨101, shortStack below nl nh dl 0 a' b' (BitVec.ofNat 32 (31 + 0)) d' e'⟩
      ⟨107, shortStack below nl 0 dl 0 a' 0 95 d' e'⟩ := straight 6 rfl
  have quot : joinLimbs nl nh / joinLimbs dl 0 = joinLimbs b'' a' := by
    have eq := high.eq
    have eq' := low.eq
    rw [pow_zero, Nat.div_one] at eq eq'
    rw [pow_zero, Nat.mul_one] at ha hb
    apply BitVec.eq_of_toNat_eq
    rw [BitVec.toNat_udiv, toNat_joinLimbs, toNat_joinLimbs, toNat_joinLimbs, ha, hb,
      show (0 : UntypedValue).toNat = 0 from rfl, Nat.mul_zero, Nat.zero_add]
    refine ((Nat.div_mod_unique pos).mpr ⟨?_, low.lt⟩).1
    calc nh'.toNat + dl.toNat * (2 ^ 32 * q + q')
        = 2 ^ 32 * (dl.toNat * q) + (dl.toNat * q' + nh'.toNat) := by ring
      _ = 2 ^ 32 * (dl.toNat * q + d'.toNat) + nl.toNat := by rw [← eq']; ring
      _ = 2 ^ 32 * nh.toNat + nl.toNat := by rw [← eq]
  rw [quot]
  exact enter.trans (run.trans (between.trans (run'.trans ((straight 1 rfl).trans divU_pack))))

/-- A dividend below the divisor. -/
lemma divU_zero (lt : joinLimbs nl nh < joinLimbs dl dh) :
    (stackMachine opI64DivU).Steps ⟨272, shortStack below nl nh dl dh 0 0 c d e⟩
      ⟨405, pushValue (.i64 (joinLimbs nl nh / joinLimbs dl dh)) below⟩ := by
  have quot : joinLimbs nl nh / joinLimbs dl dh = joinLimbs 0 0 := by
    apply BitVec.eq_of_toNat_eq
    rw [BitVec.toNat_udiv, Nat.div_eq_of_lt lt]
    rfl
  rw [quot]
  exact divU_pack

/-- A divisor of 64 bits. -/
lemma divU_long (ne : dh ≠ 0) :
    (stackMachine opI64DivU).Steps ⟨27, shortStack below nl nh dl dh 0 0 0 0 0⟩
      ⟨405, pushValue (.i64 (joinLimbs nl nh / joinLimbs dl dh)) below⟩ := by
  have ne' : joinLimbs dl dh ≠ 0 := fun zero => ne (joinLimbs_eq_zero_iff.mp zero).2
  have high : (stackMachine opI64DivU).Steps ⟨27, shortStack below nl nh dl dh 0 0 0 0 0⟩
      ⟨32, ofBool (dh.ule nh) :: shortStack below nl nh dl dh 0 0 0 0 0⟩ := straight 5 rfl
  have low : (stackMachine opI64DivU).Steps ⟨175, shortStack below nl nh dl dh 0 0 0 0 0⟩
      ⟨178, ofBool (dl.ule nl) :: shortStack below nl nh dl dh 0 0 0 0 0⟩ := straight 3 rfl
  have same : (stackMachine opI64DivU).Steps ⟨179, shortStack below nl nh dl dh 0 0 0 0 0⟩
      ⟨184, ofBool (nh == dh) :: shortStack below nl nh dl dh 0 0 0 0 0⟩ := straight 5 rfl
  cases h : dh.ule nh with
  | false =>
    have lt : nh < dh := by
      rw [← BitVec.not_le, ← BitVec.ule_iff_le, h]
      exact Bool.false_ne_true
    exact high.trans ((brIfNez_passed rfl (by rw [h]; rfl)).trans ((straight 3 rfl).trans
      (divU_zero (joinLimbs_lt_iff.mpr (.inl lt)))))
  | true =>
    have run := high.trans ((brIfNez_taken rfl (by rw [h]; rfl) rfl).trans low)
    cases l : dl.ule nl with
    | true => exact run.trans ((brIfNez_taken rfl (by rw [l]; rfl) rfl).trans (divU_general ne'))
    | false =>
      have run := run.trans ((brIfNez_passed rfl (by rw [l]; rfl)).trans same)
      cases eq : nh == dh with
      | true =>
        have lt : nl < dl := by
          rw [← BitVec.not_le, ← BitVec.ule_iff_le, l]
          exact Bool.false_ne_true
        exact run.trans ((brIfNez_taken rfl (by rw [eq]; rfl) rfl).trans
          (divU_zero (joinLimbs_lt_iff.mpr (.inr ⟨beq_iff_eq.mp eq, lt⟩))))
      | false => exact run.trans ((brIfNez_passed rfl (by rw [eq]; rfl)).trans (divU_general ne'))

/-- A divisor of 32 bits. -/
lemma divU_limb (ne : dl ≠ 0) :
    (stackMachine opI64DivU).Steps ⟨12, shortStack below nl nh dl 0 0 0 0 0 0⟩
      ⟨405, pushValue (.i64 (joinLimbs nl nh / joinLimbs dl 0)) below⟩ := by
  have ne' : joinLimbs dl 0 ≠ 0 := fun zero => ne (joinLimbs_eq_zero_iff.mp zero).1
  have divide : (stackMachine opI64DivU).Steps ⟨22, shortStack below nl nh dl 0 0 0 0 0 0⟩
      ⟨405, pushValue (.i64 (joinLimbs nl nh / joinLimbs dl 0)) below⟩ := by
    have sign : (stackMachine opI64DivU).Steps ⟨22, shortStack below nl nh dl 0 0 0 0 0 0⟩
        ⟨25, ofBool ((-1 : UntypedValue).slt dl) :: shortStack below nl nh dl 0 0 0 0 0 0⟩ :=
      straight 3 rfl
    cases s : (-1 : UntypedValue).slt dl with
    | true =>
      have msb : dl.msb = false := by
        rw [← sle_neg_one, BitVec.sle_eq_not_slt, s]
        rfl
      have small := BitVec.msb_eq_false_iff_two_mul_lt.mp msb
      exact sign.trans ((brIfNez_taken rfl (by rw [s]; rfl) rfl).trans
        (divU_short (by omega) ne))
    | false =>
      exact sign.trans ((brIfNez_passed rfl (by rw [s]; rfl)).trans
        ((straight 1 rfl).trans (divU_general ne')))
  have high : (stackMachine opI64DivU).Steps ⟨12, shortStack below nl nh dl 0 0 0 0 0 0⟩
      ⟨13, nh :: shortStack below nl nh dl 0 0 0 0 0 0⟩ := straight 1 rfl
  cases h : nh.toBool with
  | true => exact high.trans ((brIfNez_taken rfl h rfl).trans divide)
  | false =>
    have zero : nh = 0 := by simpa [UntypedValue.toBool] using h
    have less : (stackMachine opI64DivU).Steps ⟨14, shortStack below nl nh dl 0 0 0 0 0 0⟩
        ⟨21, ofBool (nl.ult dl) :: shortStack below nl nh dl 0 0 0 0 0 0⟩ := straight 7 rfl
    have run := high.trans ((brIfNez_passed rfl h).trans less)
    cases l : nl.ult dl with
    | true =>
      exact run.trans ((brIfNez_taken rfl (by rw [l]; rfl) rfl).trans
        (divU_zero (joinLimbs_lt_iff.mpr (.inr ⟨zero, BitVec.ult_iff_lt.mp l⟩))))
    | false => exact run.trans ((brIfNez_passed rfl (by rw [l]; rfl)).trans divide)

end Short

/-- The length of the code, which is where it ends. -/
lemma length_opI64DivU : opI64DivU.length = 405 := by
  decide +kernel

/-- The tests of the divisor. -/
lemma divU_start :
    (stackMachine opI64DivU).Steps ⟨0, dh :: dl :: nh :: nl :: below⟩
      ⟨8, dh :: shortStack below nl nh dl dh 0 0 0 0 0⟩ :=
  straight 8 rfl

/-- The test of the low limb of the divisor. -/
lemma divU_start_low :
    (stackMachine opI64DivU).Steps ⟨9, shortStack below nl nh dl dh 0 0 0 0 0⟩
      ⟨11, ofBool (dl == 0) :: shortStack below nl nh dl dh 0 0 0 0 0⟩ :=
  straight 2 rfl

/-- `i64.div_u` pushes the quotient rounded down, and traps exactly where the divisor is zero. -/
theorem opI64DivU_implements :
    Implements opI64DivU fun n d =>
      if d = 0 then .error .integerDivisionByZero
      else .ok (BitVec.ofNat 64 (n.toNat / d.toNat)) := by
  refine implements_of_stackMachine (fun n d v below eq => ?_) (fun n d trap below eq => ?_)
  · split at eq
    next => cases eq
    next ne =>
      obtain rfl : n / d = v := by
        rw [← Except.ok.inj eq, ← BitVec.toNat_udiv, BitVec.ofNat_toNat, BitVec.setWidth_eq]
      obtain ⟨nl, nh, rfl⟩ := exists_limbs n
      obtain ⟨dl, dh, rfl⟩ := exists_limbs d
      rw [length_opI64DivU]
      simp only [pushValue, split_joinLimbs]
      refine divU_start.trans ?_
      cases h : dh.toBool with
      | true => exact (brIfNez_taken rfl h rfl).trans (divU_long (by simpa [UntypedValue.toBool] using h))
      | false =>
        obtain rfl : dh = 0 := by simpa [UntypedValue.toBool] using h
        have low : dl ≠ 0 := fun zero => ne (joinLimbs_eq_zero_iff.mpr ⟨zero, rfl⟩)
        exact (brIfNez_passed rfl h).trans (divU_start_low.trans
          ((brIfNez_passed rfl (by rw [beq_eq_false_iff_ne.mpr low]; rfl)).trans (divU_limb low)))
  · split at eq
    next zero =>
      cases eq
      subst zero
      have run : (stackMachine opI64DivU).Steps ⟨8, 0 :: shortStack below (splitIntoI32Tuple n).1
          (splitIntoI32Tuple n).2 0 0 0 0 0 0 0⟩ ⟨36, _⟩ :=
        (brIfNez_passed rfl rfl).trans (divU_start_low.trans (brIfNez_taken rfl rfl rfl))
      exact (divU_start.trans run).halts (.now rfl)
    next => cases eq

end Rwasm
