import Mathlib

/-!
# Long division

Binary long division, first on numbers, one bit of the dividend at a time from the top, and then as
a machine holds it: a register with what is left of the dividend, whose top bit is taken next, one
with the remainder and one with the quotient.
-/

namespace LongDivision

/-- The dividend without its `k` lowest bits has been divided. -/
structure Dividing (n d k q r : Nat) : Prop where
  eq : n / 2 ^ k = d * q + r
  lt : r < d

variable {n d k q r : Nat}

/-- Nothing has been divided where no bit of the dividend is left. -/
lemma Dividing.start (pos : 0 < d) (lt : n < 2 ^ k) : Dividing n d k 0 0 :=
  ⟨by rw [Nat.div_eq_of_lt lt, Nat.mul_zero], pos⟩

/-- The next bit is moved into the remainder. -/
lemma Dividing.shift (h : Dividing n d (k + 1) q r) :
    n / 2 ^ k = d * (2 * q) + (2 * r + (n.testBit k).toNat) := by
  have half : n / 2 ^ k / 2 = d * q + r := by
    rw [Nat.div_div_eq_div_mul, ← pow_succ, h.eq]
  have split := Nat.div_add_mod (n / 2 ^ k) 2
  rw [half] at split
  rw [Nat.toNat_testBit, ← split, Nat.mul_left_comm]
  omega

/-- The quotient gets a zero. -/
lemma Dividing.skip (h : Dividing n d (k + 1) q r) (lt : 2 * r + (n.testBit k).toNat < d) :
    Dividing n d k (2 * q) (2 * r + (n.testBit k).toNat) :=
  ⟨h.shift, lt⟩

/-- The quotient gets a one. -/
lemma Dividing.take (h : Dividing n d (k + 1) q r) (le : d ≤ 2 * r + (n.testBit k).toNat) :
    Dividing n d k (2 * q + 1) (2 * r + (n.testBit k).toNat - d) := by
  have one := Bool.toNat_le (n.testBit k)
  have lt := h.lt
  refine ⟨?_, by omega⟩
  rw [h.shift, Nat.mul_add, Nat.mul_one]
  omega

/-- All bits have been divided. -/
lemma Dividing.finish (h : Dividing n d 0 q r) : n / d = q ∧ n % d = r := by
  have eq := h.eq
  rw [pow_zero, Nat.div_one] at eq
  exact (Nat.div_mod_unique (by have := h.lt; omega)).mpr ⟨by rw [eq, Nat.add_comm], h.lt⟩

/-- The registers of the division of numbers of `w` bits. -/
structure Registers (w : Nat) where
  rest : BitVec w
  rem : BitVec w
  quot : BitVec w

namespace Registers

variable {w : Nat} {s : Registers w}

/-- One turn: a bit moves from the rest to the remainder, and the divisor is taken off if it fits. -/
def turn (d : BitVec w) (s : Registers w) : Registers w :=
  let rem := s.rem.shiftConcat s.rest.msb
  if rem < d then
    ⟨s.rest <<< 1, rem, s.quot.shiftConcat false⟩
  else
    ⟨s.rest <<< 1, rem - d, s.quot.shiftConcat true⟩

/-- The registers hold the division of all but the `k` lowest bits. -/
structure Holds (n d : BitVec w) (k : Nat) (s : Registers w) : Prop where
  le : k ≤ w
  rest : s.rest = n <<< (w - k)
  dividing : Dividing n.toNat d.toNat k s.quot.toNat s.rem.toNat

/-- Nothing has been divided yet. -/
lemma holds_start {n d : BitVec w} (ne : d ≠ 0) : Holds n d w ⟨n, 0, 0⟩ where
  le := le_refl w
  rest := by simp
  dividing := by
    have pos : 0 < d.toNat := Nat.pos_of_ne_zero (by simpa [BitVec.toNat_eq] using ne)
    simpa using Dividing.start pos n.isLt

/-- Where the value fits, a bit shifted in doubles the number. -/
private lemma toNat_shiftConcat_of_lt {x : BitVec w} {b : Bool} (lt : 2 * x.toNat + b.toNat < 2 ^ w) :
    (x.shiftConcat b).toNat = 2 * x.toNat + b.toNat := by
  rw [BitVec.toNat_shiftConcat, Nat.shiftLeft_eq, pow_one, Nat.mul_comm, Nat.mod_eq_of_lt lt]

/-- A turn takes one bit. -/
lemma holds_turn {n d : BitVec w} {k : Nat} (h : Holds n d (k + 1) s) : Holds n d k (s.turn d) := by
  have le := h.le
  have top : s.rest.msb = n.toNat.testBit k := by
    rw [h.rest, BitVec.msb_shiftLeft, BitVec.getMsbD_eq_getLsbD, BitVec.testBit_toNat]
    rw [decide_eq_true (by omega), Bool.true_and, show w - 1 - (w - (k + 1)) = k by omega]
  have rest : s.rest <<< 1 = n <<< (w - k) := by
    rw [h.rest, ← BitVec.shiftLeft_add, show w - (k + 1) + 1 = w - k by omega]
  have fits : d.toNat * (2 * s.quot.toNat) +
      (2 * s.rem.toNat + (n.toNat.testBit k).toNat) < 2 ^ w := by
    rw [← h.dividing.shift]
    exact lt_of_le_of_lt (Nat.div_le_self _ _) n.isLt
  have pos : 0 < d.toNat := lt_of_le_of_lt (Nat.zero_le _) h.dividing.lt
  have small := Nat.le_mul_of_pos_left (2 * s.quot.toNat) pos
  have rem : (s.rem.shiftConcat s.rest.msb).toNat =
      2 * s.rem.toNat + (n.toNat.testBit k).toNat := by
    rw [top]
    exact toNat_shiftConcat_of_lt (by omega)
  simp only [turn]
  split
  next lt =>
    have quot : (s.quot.shiftConcat false).toNat = 2 * s.quot.toNat :=
      toNat_shiftConcat_of_lt (by rw [Bool.toNat_false]; omega)
    refine ⟨by omega, rest, ?_⟩
    rw [quot, rem]
    exact h.dividing.skip (by rw [← rem]; exact lt)
  next nlt =>
    have ge : d.toNat ≤ (s.rem.shiftConcat s.rest.msb).toNat := Nat.not_lt.mp nlt
    have quot : (s.quot.shiftConcat true).toNat = 2 * s.quot.toNat + 1 :=
      toNat_shiftConcat_of_lt (by
        rw [rem] at ge
        rw [Bool.toNat_true]
        omega)
    refine ⟨by omega, rest, ?_⟩
    rw [quot, BitVec.toNat_sub_of_le ge, rem]
    exact h.dividing.take (by rw [← rem]; exact ge)

/-- All turns take all bits. -/
lemma holds_iterate {n d : BitVec w} {k : Nat} (h : Holds n d k s) : Holds n d 0 ((turn d)^[k] s) := by
  induction k generalizing s with
  | zero => exact h
  | succ k ih => exact ih (holds_turn h)

/-- As many turns as there are bits divide. -/
theorem turns_eq (n d : BitVec w) (ne : d ≠ 0) :
    ((turn d)^[w] ⟨n, 0, 0⟩).quot = n / d ∧ ((turn d)^[w] ⟨n, 0, 0⟩).rem = n % d := by
  obtain ⟨hq, hr⟩ := (holds_iterate (holds_start (n := n) ne)).dividing.finish
  exact ⟨BitVec.eq_of_toNat_eq (by rw [BitVec.toNat_udiv, hq]),
    BitVec.eq_of_toNat_eq (by rw [BitVec.toNat_umod, hr])⟩

end Registers

end LongDivision
