import Rwasm.Segments.Bulk

/-!
# Checked init instructions

What `memory.init` and `table.init` have in common once they are compiled. Wasm copies a range of
the segment, or traps when the range leaves the segment or the destination (`wasmInit`). The compiled
code accepts the operands on other grounds (`InitSite.Accepts`): the emitted length check compares a
wrapped sum as a signed number, and the executor checks the merged section only. `InitSite.Defect`
names the operands on which the two disagree.
-/

namespace Rwasm

/-- The destination after a range of a segment was copied to it, if both ranges exist. -/
def wasmInit {α : Type*} (dst contents : List α) (d s n : Nat) : Option (List α) :=
  if s + n ≤ contents.length ∧ d + n ≤ dst.length then
    some (dst.setSlice d ((contents.drop s).take n))
  else
    none

/-- A compiled init instruction in the state before it is executed. -/
structure InitSite where
  /-- The length the emitted check compares with. -/
  length : UntypedValue
  /-- The offset that is added to the source index. -/
  offset : UntypedValue
  /-- Whether the length check is emitted. -/
  checked : Prop
  /-- Indices from here on lie past the end of everything. -/
  bound : Nat
  /-- The length of the section the executor copies from. -/
  visible : Nat
  /-- The size of the destination. -/
  size : Nat
  /-- The length the segment has at this moment. -/
  current : Nat

namespace InitSite

variable {site : InitSite} {d s n : UntypedValue}

/-- The ranges exist. -/
def InRange (site : InitSite) (d s n : UntypedValue) : Prop :=
  s.toNat + n.toNat ≤ site.current ∧ d.toNat + n.toNat ≤ site.size

/-- The compiled code copies instead of trapping. -/
def Accepts (site : InitSite) (d s n : UntypedValue) : Prop :=
  ¬ (site.checked ∧ site.length.slt (n + s)) ∧
    d.toNat < site.bound ∧ n.toNat < site.bound ∧ (s + site.offset).toNat < site.bound ∧
      d.toNat + n.toNat ≤ site.size ∧ (s + site.offset).toNat + n.toNat ≤ site.visible

/-- The operands on which the compiled code and Wasm disagree. -/
inductive Defect (site : InitSite) (d s n : UntypedValue) : Prop
  /-- The length or the sum is negative as a signed number. -/
  | signedLength :
    site.InRange d s n →
    site.checked →
    site.length.slt (n + s) →
    Defect site d s n
  /-- An index is negative as a signed number. -/
  | signedIndex :
    site.InRange d s n →
    site.bound ≤ d.toNat ∨ site.bound ≤ n.toNat ∨ site.bound ≤ (s + site.offset).toNat →
    Defect site d s n
  /-- The range is there, but not in the section the executor copies from. -/
  | hidden :
    site.InRange d s n →
    site.visible < (s + site.offset).toNat + n.toNat →
    Defect site d s n
  /-- The range is not in the segment, but passes all checks. -/
  | slips :
    site.current < s.toNat + n.toNat →
    site.Accepts d s n →
    Defect site d s n

/-- The code accepts exactly the ranges that exist unless there is a defect. -/
lemma accepts_iff_inRange : (site.Accepts d s n ↔ site.InRange d s n) ↔ ¬ site.Defect d s n := by
  constructor
  · intro h defect
    cases defect with
    | signedLength inRange checked gt => exact (h.mpr inRange).1 ⟨checked, gt⟩
    | signedIndex inRange index =>
      obtain ⟨-, hd, hn, hs, -⟩ := h.mpr inRange
      omega
    | hidden inRange past =>
      obtain ⟨-, -, -, -, -, hv⟩ := h.mpr inRange
      omega
    | slips past accepts =>
      have := (h.mp accepts).1
      omega
  · intro h
    constructor
    · intro accepts
      refine ⟨?_, accepts.2.2.2.2.1⟩
      by_contra past
      exact h (.slips (by omega) accepts)
    · intro inRange
      refine ⟨fun ⟨checked, gt⟩ => h (.signedLength inRange checked gt), ?_, ?_, ?_, inRange.2, ?_⟩
      · by_contra index
        exact h (.signedIndex inRange (by omega))
      · by_contra index
        exact h (.signedIndex inRange (by omega))
      · by_contra index
        exact h (.signedIndex inRange (by omega))
      · by_contra past
        exact h (.hidden inRange (by omega))

/-- A signed comparison of numbers below `2 ^ 31`. -/
lemma slt_iff_of_small {x y : UntypedValue} (hx : x.toNat < 2 ^ 31) (hy : y.toNat < 2 ^ 31) :
    x.slt y ↔ x.toNat < y.toNat := by
  rw [BitVec.slt_iff_toInt_lt, BitVec.toInt_eq_toNat_of_lt (by omega),
    BitVec.toInt_eq_toNat_of_lt (by omega)]
  omega

/-- A segment whose length is checked, in a section below `2 ^ 31`, has no defect on operands whose
rewritten index does not wrap. -/
lemma not_defect (checked : site.checked) (length : site.length.toNat = site.current)
    (place : site.offset.toNat + site.current ≤ site.visible) (small : site.visible < 2 ^ 31)
    (bound : 2 ^ 31 ≤ site.bound) (hd : d.toNat < site.bound)
    (hs : s.toNat + site.offset.toNat < 2 ^ 32) : ¬ site.Defect d s n := by
  have index : (s + site.offset).toNat = s.toNat + site.offset.toNat := by
    rw [BitVec.toNat_add]
    omega
  have sum : s.toNat + n.toNat < 2 ^ 31 → (n + s).toNat = s.toNat + n.toNat := by
    intro h
    rw [BitVec.toNat_add]
    omega
  intro defect
  cases defect with
  | signedLength inRange _ gt =>
    have le := inRange.1
    have := sum (by omega)
    rw [slt_iff_of_small (by omega) (by omega)] at gt
    omega
  | signedIndex inRange past =>
    have le := inRange.1
    omega
  | hidden inRange past =>
    have le := inRange.1
    omega
  | slips past accepts =>
    obtain ⟨unchecked, -, -, -, -, le⟩ := accepts
    refine unchecked ⟨checked, ?_⟩
    have := sum (by omega)
    rw [slt_iff_of_small (by omega) (by omega)]
    omega

end InitSite

variable {T : Type} {m : RwasmModule} {host : Host T} {lo hi : Nat}

/-- The code from `lo` to `hi` copies a range as Wasm does: it either goes on behind the code with
the executor `next` makes of the new destination, or traps with `code`. -/
def InitsLike {α : Type*} (m : RwasmModule) (host : Host T) (lo hi : Nat) (e : Executor T)
    (outcome : Option (List α)) (next : List α → Executor T) (code : TrapCode) : Prop :=
  match outcome with
  | some dst => (vmWithin m host lo hi).Halts e (.next (next dst))
  | none => ∃ e', (vmWithin m host lo hi).Halts e (.halt (.trapped code e'))

/-- What the code does decides whether it does what Wasm does: it copies when `accepts` holds and
traps otherwise, Wasm copies when `inRange` holds, and the copies agree when both do. -/
lemma initsLike_iff {α : Type*} {e : Executor T} {accepts inRange : Prop} {dst contents source : List α}
    {next : List α → Executor T} {code : TrapCode} {d s n s' : Nat}
    (inRange_iff : inRange ↔ s + n ≤ contents.length ∧ d + n ≤ dst.length)
    (copies : accepts → (vmWithin m host lo hi).Halts e
      (.next (next (dst.setSlice d ((source.drop s').take n)))))
    (traps : ¬ accepts → ∃ e', (vmWithin m host lo hi).Halts e (.halt (.trapped code e')))
    (same : accepts → inRange → (source.drop s').take n = (contents.drop s).take n) :
    InitsLike m host lo hi e (wasmInit dst contents d s n) next code ↔ (accepts ↔ inRange) := by
  by_cases hr : inRange
  · have hw : wasmInit dst contents d s n = some (dst.setSlice d ((contents.drop s).take n)) :=
      if_pos (inRange_iff.mp hr)
    rw [hw]
    by_cases ha : accepts
    · rw [← same ha hr]
      exact ⟨fun _ => iff_of_true ha hr, fun _ => copies ha⟩
    · obtain ⟨e', trapped⟩ := traps ha
      refine ⟨fun copied => ?_, fun h => absurd (h.mpr hr) ha⟩
      cases trapped.unique copied
  · have hw : wasmInit dst contents d s n = none := if_neg fun h => hr (inRange_iff.mpr h)
    rw [hw]
    by_cases ha : accepts
    · refine ⟨fun ⟨e', trapped⟩ => ?_, fun h => absurd (h.mp ha) hr⟩
      cases trapped.unique (copies ha)
    · exact ⟨fun _ => iff_of_false ha hr, fun _ => traps ha⟩

end Rwasm
