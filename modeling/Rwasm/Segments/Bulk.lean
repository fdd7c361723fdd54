import Rwasm.Isa.Bulk
import Rwasm.Library.Code
import Rwasm.Vm.Executor

/-!
# Runs of the emitted checks

What the parts of the checked bulk instructions do when they are executed: the length check, the
rewriting of the offset and the charge for the elements. The runs are followed inside the emitted code
only, so that a run that leaves the code and one that traps in it exclude each other.
-/

namespace Rwasm

open InstructionSet

variable {T : Type} {m : RwasmModule} {host : Host T} {lo hi p : Nat}

/-- The machine inside the code from address `lo` to address `hi`. -/
def vmWithin (m : RwasmModule) (host : Host T) (lo hi : Nat) :
    Machine (Executor T) (Turn (Executor T) (Exit T)) :=
  (vm m host).within fun e => lo ≤ e.ip ∧ e.ip < hi

/-- A jump ahead. -/
lemma Executor.jump_forward (k : Nat) {e : Executor T} :
    e.jump k = .next { e with ip := e.ip + k } := by
  rw [jump, if_pos (by omega)]
  congr

section Single

variable {e e' e'' : Executor T} {exit : Exit T} {op : Opcode}

/-- The machine executes the instruction it finds. -/
lemma vm_step (code : m.codeSection[e.ip]? = some op) : (vm m host).step e = e.step m host op := by
  simp [vm, code]

/-- A run of the machine that starts with a known instruction. -/
lemma vm_next (code : m.codeSection[e.ip]? = some op) (h : e.step m host op = .next e')
    (rest : (vm m host).Steps e' e'') : (vm m host).Steps e e'' :=
  .head ((vm_step code).trans h) rest

/-- An instruction that stops the machine. -/
lemma vm_halt (code : m.codeSection[e.ip]? = some op) (h : e.step m host op = .halt exit) :
    (vm m host).Halts e exit :=
  .now ((vm_step code).trans h)

/-- A run that starts with a known instruction of the code. -/
lemma vmWithin_next (inside : lo ≤ e.ip ∧ e.ip < hi) (code : m.codeSection[e.ip]? = some op)
    (h : e.step m host op = .next e') (rest : (vmWithin m host lo hi).Steps e' e'') :
    (vmWithin m host lo hi).Steps e e'' :=
  .head (Machine.within_next inside ((vm_step code).trans h)) rest

/-- An instruction of the code that stops the machine. -/
lemma vmWithin_halt (inside : lo ≤ e.ip ∧ e.ip < hi) (code : m.codeSection[e.ip]? = some op)
    (h : e.step m host op = .halt exit) : (vmWithin m host lo hi).Halts e (.halt exit) :=
  Machine.within_halt inside ((vm_step code).trans h)

end Single

variable {n s d : UntypedValue} {stack : List UntypedValue} {cap : Nat} {calls : List Nat}
  {store store' : Store T}

/-- The length check traps when the wrapped sum exceeds the length as a signed number. -/
lemma lengthCheck_trap {length code} (h : CodeAt m.codeSection p (opLengthCheck length code))
    (hlo : lo ≤ p) (hhi : p + 7 ≤ hi) (gt : length.slt (n + s)) :
    (vmWithin m host lo hi).Halts ⟨n :: s :: d :: stack, cap, calls, p, store⟩
      (.halt (.trapped code ⟨n :: s :: d :: stack, cap, calls, p + 6, store⟩)) := by
  simp only [opLengthCheck, CodeAt.cons_iff, Nat.add_assoc, Nat.reduceAdd] at h
  obtain ⟨h0, h1, h2, h3, h4, h5, h6, -⟩ := h
  have st : (vmWithin m host lo hi).Steps ⟨n :: s :: d :: stack, cap, calls, p, store⟩
      ⟨n :: s :: d :: stack, cap, calls, p + 6, store⟩ := by
    refine vmWithin_next (by simp; omega) h0 rfl ?_
    refine vmWithin_next (by simp [Executor.advance]; omega) h1 rfl ?_
    refine vmWithin_next (by simp [Executor.advance]; omega) h2 rfl ?_
    refine vmWithin_next (by simp [Executor.advance]; omega) h3 rfl ?_
    refine vmWithin_next (by simp [Executor.advance]; omega) h4 rfl ?_
    refine vmWithin_next (by simp [Executor.advance]; omega) h5 ?_ .refl
    simp [Executor.step, Executor.visitBrIf, Executor.advance, UntypedValue.BinaryOp.eval, gt,
      UntypedValue.ofBool, UntypedValue.toBool]
  exact st.halts (vmWithin_halt (by simp; omega) h6 rfl)

/-- The length check goes on behind its trap otherwise. -/
lemma lengthCheck_pass {length code} (h : CodeAt m.codeSection p (opLengthCheck length code))
    (hlo : lo ≤ p) (hhi : p + 7 ≤ hi) (fits : ¬ length.slt (n + s)) :
    (vmWithin m host lo hi).Steps ⟨n :: s :: d :: stack, cap, calls, p, store⟩
      ⟨n :: s :: d :: stack, cap, calls, p + 7, store⟩ := by
  simp only [opLengthCheck, CodeAt.cons_iff, Nat.add_assoc, Nat.reduceAdd] at h
  obtain ⟨h0, h1, h2, h3, h4, h5, h6, -⟩ := h
  refine vmWithin_next (by simp; omega) h0 rfl ?_
  refine vmWithin_next (by simp [Executor.advance]; omega) h1 rfl ?_
  refine vmWithin_next (by simp [Executor.advance]; omega) h2 rfl ?_
  refine vmWithin_next (by simp [Executor.advance]; omega) h3 rfl ?_
  refine vmWithin_next (by simp [Executor.advance]; omega) h4 rfl ?_
  refine vmWithin_next (by simp [Executor.advance]; omega) h5 ?_ .refl
  simpa [Executor.step, Executor.visitBrIf, Executor.advance, UntypedValue.BinaryOp.eval, fits,
    UntypedValue.ofBool, UntypedValue.toBool] using Executor.jump_forward 2

/-- Rewriting the offset adds it to `s`, wrapping. -/
lemma rewriteOffset_run {offset} (h : CodeAt m.codeSection p (opRewriteOffset offset))
    (hlo : lo ≤ p) (hhi : p + (opRewriteOffset offset).length ≤ hi) :
    (vmWithin m host lo hi).Steps ⟨n :: s :: d :: stack, cap, calls, p, store⟩
      ⟨n :: (s + offset) :: d :: stack, cap, calls, p + (opRewriteOffset offset).length, store⟩ := by
  unfold opRewriteOffset at h hhi ⊢
  split
  next pos =>
    simp only [if_pos pos, CodeAt.cons_iff, Nat.add_assoc, Nat.reduceAdd, List.length_cons,
      List.length_nil] at h hhi ⊢
    obtain ⟨h0, h1, h2, h3, -⟩ := h
    rw [BitVec.add_comm s offset]
    refine vmWithin_next (by simp; omega) h0 rfl ?_
    refine vmWithin_next (by simp [Executor.advance]; omega) h1 rfl ?_
    refine vmWithin_next (by simp [Executor.advance]; omega) h2 rfl ?_
    exact vmWithin_next (by simp [Executor.advance]; omega) h3 rfl .refl
  next zero =>
    obtain rfl : offset = 0 := by
      apply BitVec.eq_of_toNat_eq
      simpa [BitVec.lt_def] using zero
    simpa using Machine.Steps.refl

/-- A charge for the topmost operand. -/
def opCharge (op : UntypedValue.BinaryOp) (factor log2 : UntypedValue) : List Opcode :=
  [.localGet 1, .i32Const factor, .binary op, .i32Const log2, .i32ShrU, .consumeFuelStack]

/-- The units it takes. -/
def chargedUnits (op : UntypedValue.BinaryOp) (factor log2 v : UntypedValue) : Nat :=
  (op.eval v factor >>> (log2 &&& 0x1F).toNat).toNat

section Charge

variable {op : UntypedValue.BinaryOp} {factor log2 v : UntypedValue}

/-- The units of a charge are computed from a copy of the operand. -/
lemma charge_computed (h : CodeAt m.codeSection p (opCharge op factor log2)) (hlo : lo ≤ p)
    (hhi : p + 6 ≤ hi) :
    (vmWithin m host lo hi).Steps ⟨v :: stack, cap, calls, p, store⟩
      ⟨op.eval v factor >>> (log2 &&& 0x1F).toNat :: v :: stack, cap, calls, p + 5, store⟩ := by
  simp only [opCharge, CodeAt.cons_iff, Nat.add_assoc, Nat.reduceAdd] at h
  obtain ⟨h0, h1, h2, h3, h4, -⟩ := h
  refine vmWithin_next (by simp; omega) h0 rfl ?_
  refine vmWithin_next (by simp [Executor.advance]; omega) h1 rfl ?_
  refine vmWithin_next (by simp [Executor.advance]; omega) h2 rfl ?_
  refine vmWithin_next (by simp [Executor.advance]; omega) h3 rfl ?_
  exact vmWithin_next (by simp [Executor.advance]; omega) h4 rfl .refl

/-- A charge that the fuel suffices for. -/
lemma charge_run (h : CodeAt m.codeSection p (opCharge op factor log2)) (hlo : lo ≤ p)
    (hhi : p + 6 ≤ hi) (charged : store.tryConsumeFuel (chargedUnits op factor log2 v) = some store') :
    (vmWithin m host lo hi).Steps ⟨v :: stack, cap, calls, p, store⟩
      ⟨v :: stack, cap, calls, p + 6, store'⟩ := by
  have found : m.codeSection[p + 5]? = some .consumeFuelStack := h.getElem? rfl
  refine (charge_computed h hlo hhi).trans (vmWithin_next (by simp; omega) found ?_ .refl)
  rw [chargedUnits] at charged
  simp only [Executor.step, Executor.visitConsumeFuelStack, Executor.visitConsumeFuel, charged]
  rfl

/-- One that it does not. -/
lemma charge_out (h : CodeAt m.codeSection p (opCharge op factor log2)) (hlo : lo ≤ p)
    (hhi : p + 6 ≤ hi) (out : store.tryConsumeFuel (chargedUnits op factor log2 v) = none) :
    ∃ e', (vmWithin m host lo hi).Halts ⟨v :: stack, cap, calls, p, store⟩
      (.halt (.trapped .outOfFuel e')) := by
  have found : m.codeSection[p + 5]? = some .consumeFuelStack := h.getElem? rfl
  refine ⟨⟨v :: stack, cap, calls, p + 5, store⟩,
    (charge_computed h hlo hhi).halts (vmWithin_halt (by simp; omega) found ?_)⟩
  rw [chargedUnits] at out
  simp only [Executor.step, Executor.visitConsumeFuelStack, Executor.visitConsumeFuel, out]

end Charge

/-- The units of fuel a bulk instruction on `n` elements is charged. -/
def bulkUnits (perFuel : Nat) (log2 n : UntypedValue) : Nat :=
  ((n + BitVec.ofNat 32 (perFuel - 1)) >>> (log2 &&& 0x1F).toNat).toNat

/-- The store after the charge of a bulk instruction, if it is charged and the fuel suffices. -/
def chargeBulk (store : Store T) (injectFuelCheck : Bool) (perFuel : Nat) (log2 n : UntypedValue) :
    Option (Store T) :=
  if injectFuelCheck then store.tryConsumeFuel (bulkUnits perFuel log2 n) else some store

/-- The charge of a bulk instruction changes nothing but the fuel counter. -/
lemma chargeBulk_frame {inject perFuel log2}
    (charged : chargeBulk store inject perFuel log2 n = some store') :
    ∃ fuel, store' = { store with consumedFuel := fuel } := by
  unfold chargeBulk at charged
  split at charged
  · unfold Store.tryConsumeFuel at charged
    dsimp only at charged
    repeat' split at charged
    all_goals cases charged
    all_goals exact ⟨_, rfl⟩
  · cases charged
    exact ⟨_, rfl⟩

/-- The charge of a bulk instruction. -/
lemma consumeFuelBulk_run {inject perFuel log2}
    (h : CodeAt m.codeSection p (if inject then opConsumeFuelBulk perFuel log2 else []))
    (hlo : lo ≤ p)
    (hhi : p + (if inject then opConsumeFuelBulk perFuel log2 else []).length ≤ hi)
    (charged : chargeBulk store inject perFuel log2 n = some store') :
    (vmWithin m host lo hi).Steps ⟨n :: s :: d :: stack, cap, calls, p, store⟩
      ⟨n :: s :: d :: stack, cap, calls,
        p + (if inject then opConsumeFuelBulk perFuel log2 else []).length, store'⟩ := by
  cases inject with
  | false =>
    cases charged
    exact .refl
  | true =>
    have h : CodeAt m.codeSection p
        (opCharge .i32Add (BitVec.ofNat 32 (perFuel - 1)) log2) := h
    exact charge_run h hlo hhi charged

/-- What stands before the init instruction itself: the length check, unless it is left out, the
rewriting of the offset and the charge. -/
def checkedPrefix (checked : Prop) [Decidable checked] (code : TrapCode) (length offset : UntypedValue)
    (inject : Bool) (perFuel : Nat) (log2 : UntypedValue) : List Opcode :=
  (if checked then opLengthCheck length code else []) ++
  opRewriteOffset offset ++
  (if inject then opConsumeFuelBulk perFuel log2 else [])

section Prefix

variable {checked : Prop} [Decidable checked] {code : TrapCode} {length offset : UntypedValue}
  {inject : Bool} {perFuel : Nat} {log2 : UntypedValue}

/-- The check in front of an init instruction traps. -/
lemma checkedPrefix_trap {e : Executor T} {tail : List Opcode}
    (pushed : e.valueStack = n :: s :: d :: stack)
    (h : CodeAt m.codeSection e.ip
      (checkedPrefix checked code length offset inject perFuel log2 ++ tail))
    (on : checked) (gt : length.slt (n + s)) :
    ∃ e', (vmWithin m host e.ip (e.ip +
      (checkedPrefix checked code length offset inject perFuel log2 ++ tail).length)).Halts e
        (.halt (.trapped code e')) := by
  obtain ⟨valueStack, cap, calls, p, store⟩ := e
  subst pushed
  unfold checkedPrefix at h ⊢
  simp only [if_pos on, List.append_assoc] at h ⊢
  refine ⟨_, lengthCheck_trap (CodeAt.append_iff.mp h).1 (Nat.le_refl _) ?_ gt⟩
  rw [List.length_append]
  exact Nat.add_le_add_left (Nat.le_add_right 7 _) p

/-- What stands in front of an init instruction goes on to it with the rewritten offset. -/
lemma checkedPrefix_pass (host : Host T) {e : Executor T} {tail : List Opcode}
    (pushed : e.valueStack = n :: s :: d :: stack)
    (h : CodeAt m.codeSection e.ip
      (checkedPrefix checked code length offset inject perFuel log2 ++ tail))
    (fits : ¬ (checked ∧ length.slt (n + s)))
    (charged : chargeBulk e.store inject perFuel log2 n = some store') :
    (vmWithin m host e.ip (e.ip +
      (checkedPrefix checked code length offset inject perFuel log2 ++ tail).length)).Steps e
      { e with
        valueStack := n :: (s + offset) :: d :: stack
        ip := e.ip + (checkedPrefix checked code length offset inject perFuel log2).length
        store := store' } := by
  obtain ⟨valueStack, cap, calls, p, store⟩ := e
  subst pushed
  have hhi : p + (checkedPrefix checked code length offset inject perFuel log2).length ≤ p +
      (checkedPrefix checked code length offset inject perFuel log2 ++ tail).length := by
    rw [List.length_append]
    omega
  revert hhi
  generalize p + (checkedPrefix checked code length offset inject perFuel log2 ++ tail).length = hi
  intro hhi
  unfold checkedPrefix at h hhi ⊢
  rw [CodeAt.append_iff, CodeAt.append_iff, CodeAt.append_iff] at h
  obtain ⟨⟨⟨check, rewrite⟩, charge⟩, -⟩ := h
  simp only [List.length_append, ← Nat.add_assoc] at check rewrite charge hhi ⊢
  have checks : (vmWithin m host p hi).Steps ⟨n :: s :: d :: stack, cap, calls, p, store⟩
      ⟨n :: s :: d :: stack, cap, calls,
        p + (if checked then opLengthCheck length code else []).length, store⟩ := by
    by_cases on : checked
    · simp only [if_pos on] at check hhi ⊢
      have len : (opLengthCheck length code).length = 7 := rfl
      exact lengthCheck_pass check (Nat.le_refl _) (by omega) fun gt => fits ⟨on, gt⟩
    · simp only [if_neg on]
      exact .refl
  exact checks.trans <| (rewriteOffset_run rewrite (by omega) (by omega)).trans <|
    consumeFuelBulk_run charge (by omega) (by omega) charged

end Prefix

end Rwasm
