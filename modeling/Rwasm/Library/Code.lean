import Mathlib

/-!
# Code at an address

That a list of instructions stands in a program from an address on. The statement splits over
concatenation, so that the parts of an emitted sequence can be used one by one.
-/

/-- The instructions `ops` stand in the program `code` from the address `p` on. -/
def CodeAt {ι : Type*} (code : List ι) : Nat → List ι → Prop
  | _, [] => True
  | p, op :: ops => code[p]? = some op ∧ CodeAt code (p + 1) ops

namespace CodeAt

variable {ι : Type*} {code code' ops ops' : List ι} {op : ι} {p i : Nat}

/-- No code stands anywhere. -/
@[simp] lemma nil : CodeAt code p [] := trivial

/-- Code stands where its first instruction does, with the rest behind it. -/
@[simp] lemma cons_iff : CodeAt code p (op :: ops) ↔ code[p]? = some op ∧ CodeAt code (p + 1) ops :=
  Iff.rfl

/-- Two pieces of code stand one behind the other. -/
@[simp] lemma append_iff :
    CodeAt code p (ops ++ ops') ↔ CodeAt code p ops ∧ CodeAt code (p + ops.length) ops' := by
  induction ops generalizing p with
  | nil => simp
  | cons op ops ih =>
    rw [List.cons_append, cons_iff, cons_iff, ih, List.length_cons, and_assoc]
    have e : p + 1 + ops.length = p + (ops.length + 1) := by omega
    rw [e]

/-- The instruction at each offset. -/
lemma getElem? (h : CodeAt code p ops) (hi : ops[i]? = some op) : code[p + i]? = some op := by
  induction ops generalizing p i with
  | nil => simp at hi
  | cons o ops ih =>
    cases i with
    | zero =>
      cases hi
      exact h.1
    | succ i =>
      have e : p + (i + 1) = p + 1 + i := by omega
      rw [e]
      exact ih h.2 hi

/-- A program stands in itself where it begins. -/
lemma of_append : CodeAt (code ++ ops ++ code') code.length ops := by
  induction ops generalizing code with
  | nil => trivial
  | cons op ops ih =>
    refine ⟨by simp, ?_⟩
    have e : code ++ op :: ops ++ code' = (code ++ [op]) ++ ops ++ code' := by simp
    rw [e, show code.length + 1 = (code ++ [op]).length by simp]
    exact ih

/-- A program stands in itself. -/
lemma self : CodeAt code 0 code := by
  simpa using @of_append ι [] [] code

end CodeAt
