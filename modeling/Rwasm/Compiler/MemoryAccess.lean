import Rwasm.Compiler.Snippets
import Rwasm.Isa.Operators
import Rwasm.Segments.Bulk
import Rwasm.Vm.History

/-!
# 64-bit loads and stores

The 64-bit accesses are made of 32-bit ones. The wide ones access the high half first, at an offset
that saturates, so that they trap before they have written anything.
-/

namespace Rwasm

open UntypedValue InstructionSet

section Bytes

/-- The number of two runs of bytes. -/
lemma fromLeBytes_append (xs ys : List Byte) :
    fromLeBytes (xs ++ ys) = fromLeBytes xs + 256 ^ xs.length * fromLeBytes ys := by
  induction xs with
  | nil => simp [fromLeBytes]
  | cons b xs ih =>
    simp only [List.cons_append, fromLeBytes, ih, List.length_cons, pow_succ]
    ring

/-- A number of so many bytes is below the power of their count. -/
lemma fromLeBytes_lt (bytes : List Byte) : fromLeBytes bytes < 256 ^ bytes.length := by
  induction bytes with
  | nil => simp [fromLeBytes]
  | cons b bytes ih =>
    have hb := b.isLt
    simp only [fromLeBytes, List.length_cons, pow_succ]
    omega

/-- The bytes of a number in two runs. -/
lemma intoLeBytes_add (a b v : Nat) :
    intoLeBytes (a + b) v = intoLeBytes a v ++ intoLeBytes b (v / 256 ^ a) := by
  induction a generalizing v with
  | zero => simp [intoLeBytes]
  | succ a ih =>
    rw [Nat.succ_add, intoLeBytes, ih, intoLeBytes, Nat.div_div_eq_div_mul, ← pow_succ',
      List.cons_append]

/-- The lowest bytes of a number are those of its rest modulo a power of 256. -/
lemma intoLeBytes_mod {n k : Nat} (le : n ≤ k) (v : Nat) :
    intoLeBytes n (v % 256 ^ k) = intoLeBytes n v := by
  induction n generalizing k v with
  | zero => rfl
  | succ n ih =>
    obtain ⟨k, rfl⟩ : ∃ j, k = j + 1 := ⟨k - 1, by omega⟩
    have head : BitVec.ofNat 8 (v % 256 ^ (k + 1)) = BitVec.ofNat 8 v := by
      apply BitVec.eq_of_toNat_eq
      rw [BitVec.toNat_ofNat, BitVec.toNat_ofNat]
      exact Nat.mod_mod_of_dvd v (dvd_pow_self 256 (Nat.succ_ne_zero k))
    have tail : v % 256 ^ (k + 1) / 256 = v / 256 % 256 ^ k := by
      rw [pow_succ', Nat.mod_mul_right_div_self]
    rw [intoLeBytes, intoLeBytes, head, tail, ih (by omega)]

/-- Eight bytes are two numbers of four. -/
lemma fromLeBytes_take_eight (bytes : List Byte) (at' : Nat) (le : at' + 8 ≤ bytes.length) :
    BitVec.ofNat 64 (fromLeBytes ((bytes.drop at').take 8)) =
      joinLimbs (BitVec.ofNat 32 (fromLeBytes ((bytes.drop at').take 4)))
        (BitVec.ofNat 32 (fromLeBytes ((bytes.drop (at' + 4)).take 4))) := by
  have split : (bytes.drop at').take 8 = (bytes.drop at').take 4 ++ (bytes.drop (at' + 4)).take 4 := by
    rw [← List.drop_drop]
    exact @List.take_add Byte (bytes.drop at') 4 4
  have len : ((bytes.drop at').take 4).length = 4 := by
    rw [List.length_take, List.length_drop]
    omega
  have len' : ((bytes.drop (at' + 4)).take 4).length = 4 := by
    rw [List.length_take, List.length_drop]
    omega
  have lo := fromLeBytes_lt ((bytes.drop at').take 4)
  have hi := fromLeBytes_lt ((bytes.drop (at' + 4)).take 4)
  rw [len] at lo
  rw [len'] at hi
  apply BitVec.eq_of_toNat_eq
  rw [split, fromLeBytes_append, len, toNat_joinLimbs, BitVec.toNat_ofNat, BitVec.toNat_ofNat,
    BitVec.toNat_ofNat]
  omega

end Bytes

/-- The number of bytes a load reads. -/
def LoadOperator.width : LoadOperator → Nat
  | i64Load | f64Load => 8
  | i32Load | f32Load | i64Load32S | i64Load32U => 4
  | i32Load16S | i32Load16U | i64Load16S | i64Load16U => 2
  | i32Load8S | i32Load8U | i64Load8S | i64Load8U => 1

/-- The 64-bit number a load makes of the number it reads. -/
def LoadOperator.extend (op : LoadOperator) (n : Nat) : BitVec 64 :=
  match op with
  | i64Load8S => (BitVec.ofNat 8 n).signExtend 64
  | i64Load16S => (BitVec.ofNat 16 n).signExtend 64
  | i64Load32S => (BitVec.ofNat 32 n).signExtend 64
  | _ => BitVec.ofNat 64 n

/-- The number of bytes a store writes. -/
def StoreOperator.width : StoreOperator → Nat
  | i64Store | f64Store => 8
  | i32Store | f32Store | i64Store32 => 4
  | i32Store16 | i64Store16 => 2
  | i32Store8 | i64Store8 => 1

/-- A 64-bit access with its operands. -/
inductive I64Access where
  | load (op : LoadOperator) (wide : op.loadedType = .i64) (address : UntypedValue)
  | store (op : StoreOperator) (wide : op.storedType = .i64) (address : UntypedValue)
    (value : BitVec 64)

namespace I64Access

/-- The operands, the last one on top of the stack. -/
def operands : I64Access → List Value
  | load _ _ address => [.i32 address]
  | store _ _ address value => [.i32 address, .i64 value]

/-- What the access is emitted as. -/
def emitted (offset : Nat) : I64Access → List Opcode
  | load op _ _ => op.emitted offset
  | store op _ _ _ => op.emitted offset

/-- The address as an unsigned number. -/
def address : I64Access → Nat
  | load _ _ address | store _ _ address _ => address.toNat

/-- The number of bytes accessed. -/
def width : I64Access → Nat
  | load op _ _ => op.width
  | store op _ _ _ => op.width

/-- The values an access pushes and the memory it leaves, for the bytes at an address. -/
def effect (at' : Nat) (memory : List Byte) : I64Access → List Value × List Byte
  | load op _ _ => ([.i64 (op.extend (fromLeBytes ((memory.drop at').take op.width)))], memory)
  | store op _ _ value => ([], memory.setSlice at' (intoLeBytes op.width value.toNat))

/-- The executor behind an access in range. -/
def after {T : Type} (a : I64Access) (offset : Nat) (e : Executor T) (below : List UntypedValue) :
    Executor T :=
  ({ e with
    valueStack := pushValues (a.effect (a.address + offset) e.data).1 below
    ip := e.ip + (a.emitted offset).length } : Executor T).setData
      (a.effect (a.address + offset) e.data).2

end I64Access

section Accesses

variable {memory : List Byte} {address value : UntypedValue} {offset : Nat}

/-- A 32-bit load in range. -/
lemma LoadOp.eval_ok (op : LoadOp) (small : memory.length ≤ 2 ^ 32)
    (le : address.toNat + offset + op.width ≤ memory.length) :
    op.eval memory address offset =
      .ok (op.extend (fromLeBytes ((memory.drop (address.toNat + offset)).take op.width))) := by
  have pos : 0 < op.width := by
    cases op <;> exact Nat.succ_pos _
  rw [LoadOp.eval, effectiveAddress, Nat.add_comm offset, if_pos (by omega)]
  dsimp only
  rw [List.getSlice?_eq_some le]

/-- A 32-bit load out of range, whether or not its address overflows. -/
lemma LoadOp.eval_error (op : LoadOp) (gt : ¬ address.toNat + offset + op.width ≤ memory.length) :
    op.eval memory address offset = .error .memoryOutOfBounds := by
  rw [LoadOp.eval, effectiveAddress, Nat.add_comm offset]
  by_cases fits : address.toNat + offset < 2 ^ 32
  · rw [if_pos fits]
    dsimp only
    rw [List.getSlice?_eq_none (Nat.not_le.mp gt)]
  · rw [if_neg fits]

/-- A 32-bit store in range. -/
lemma StoreOp.eval_ok (op : StoreOp) (small : memory.length ≤ 2 ^ 32)
    (le : address.toNat + offset + op.width ≤ memory.length) :
    op.eval memory address offset value =
      .ok (memory.setSlice (address.toNat + offset) (intoLeBytes op.width value.toNat)) := by
  have pos : 0 < op.width := by
    cases op <;> exact Nat.succ_pos _
  rw [StoreOp.eval, effectiveAddress, Nat.add_comm offset, if_pos (by omega)]
  exact if_pos le

/-- A 32-bit store out of range, whether or not its address overflows. -/
lemma StoreOp.eval_error (op : StoreOp) (gt : ¬ address.toNat + offset + op.width ≤ memory.length) :
    op.eval memory address offset value = .error .memoryOutOfBounds := by
  rw [StoreOp.eval, effectiveAddress, Nat.add_comm offset]
  by_cases fits : address.toNat + offset < 2 ^ 32
  · rw [if_pos fits]
    exact if_neg gt
  · rw [if_neg fits]

end Accesses

section Values

/-- Extending to a word and then to two is extending at once. -/
lemma signExtend_twice {n : Nat} (le : n ≤ 32) (v : BitVec n) :
    (v.signExtend 32).signExtend 64 = v.signExtend 64 := by
  apply BitVec.eq_of_getLsbD_eq
  intro i lt
  simp only [BitVec.getLsbD_signExtend, BitVec.msb_signExtend]
  grind

/-- A number below the word range is kept by widening. -/
lemma setWidth_ofNat {n : Nat} (lt : n < 2 ^ 32) :
    (BitVec.ofNat 32 n).setWidth 64 = BitVec.ofNat 64 n := by
  apply BitVec.eq_of_toNat_eq
  rw [BitVec.toNat_setWidth, BitVec.toNat_ofNat, BitVec.toNat_ofNat, Nat.mod_eq_of_lt lt]

/-- The two halves of a value, written one after the other, are its eight bytes. -/
lemma setSlice_limbs {memory : List Byte} {address offset : Nat} {lo hi : UntypedValue}
    (le : address + offset + 8 ≤ memory.length) :
    (memory.setSlice (address + (offset + 4)) (intoLeBytes 4 hi.toNat)).setSlice (address + offset)
        (intoLeBytes 4 lo.toNat) =
      memory.setSlice (address + offset) (intoLeBytes 8 (joinLimbs lo hi).toNat) := by
  have bytes : intoLeBytes 8 (joinLimbs lo hi).toNat =
      intoLeBytes 4 lo.toNat ++ intoLeBytes 4 hi.toNat := by
    have hlo := lo.isLt
    rw [toNat_joinLimbs, intoLeBytes_add 4 4, ← intoLeBytes_mod (le_refl 4)]
    congr 2 <;> omega
  rw [bytes]
  have whole := @List.setSlice_setSlice Byte memory (intoLeBytes 4 lo.toNat) (address + offset)
    (intoLeBytes 4 hi.toNat) (by rw [length_intoLeBytes, length_intoLeBytes]; omega)
  rw [length_intoLeBytes, Nat.add_assoc] at whole
  exact whole

end Values

section Runs

variable {T : Type} {m : RwasmModule} {host : Host T} {e : Executor T} {below : List UntypedValue}
  {address lo hi : UntypedValue} {offset p : Nat} {cap : Nat} {calls : List Nat} {store : Store T}

/-- The outcome of an access: it is done in range, and traps without a change of the store else. -/
def AccessesExactly (m : RwasmModule) (host : Host T) (e : Executor T) (fits : Prop) [Decidable fits]
    (after : Executor T) : Prop :=
  if fits then (vm m host).Steps e after
  else ∃ e', (vm m host).Halts e (.trapped .memoryOutOfBounds e') ∧ e'.store = e.store

/-- A load of at most 32 bits and the extension of what it loaded. -/
lemma narrowLoad_run (op : LoadOp) {tail : List Opcode} {extend : UntypedValue → BitVec 64}
    {loaded : Nat → BitVec 64} (tail_expands : ∀ v, Expands tail [.i32 v] (.i64 (extend v)))
    (value : ∀ n < 256 ^ op.width, extend (op.extend n) = loaded n)
    (placed : CodeAt m.codeSection p (.load op offset :: tail))
    (bounded : store.globalMemory.Bounded) :
    AccessesExactly m host ⟨address :: below, cap, calls, p, store⟩
      (address.toNat + offset + op.width ≤ store.globalMemory.sharedMemory.length)
      ⟨pushValue (.i64 (loaded (fromLeBytes
          ((store.globalMemory.sharedMemory.drop (address.toNat + offset)).take op.width)))) below,
        cap, calls, p + (tail.length + 1), store⟩ := by
  obtain ⟨found, rest⟩ := CodeAt.cons_iff.mp placed
  have small : store.globalMemory.sharedMemory.length ≤ 2 ^ 32 :=
    bounded.length_le_two_pow.trans (by norm_num)
  unfold AccessesExactly
  split
  next le =>
    have read := LoadOp.eval_ok op small le
    have len : ((store.globalMemory.sharedMemory.drop (address.toNat + offset)).take op.width).length =
        op.width := by
      rw [List.length_take, List.length_drop]
      omega
    have lt := fromLeBytes_lt
      ((store.globalMemory.sharedMemory.drop (address.toNat + offset)).take op.width)
    rw [len] at lt
    rw [← value _ lt]
    generalize op.extend (fromLeBytes ((store.globalMemory.sharedMemory.drop
      (address.toNat + offset)).take op.width)) = v at read ⊢
    have step : (⟨address :: below, cap, calls, p, store⟩ : Executor T).step m host (.load op offset) =
        .next ⟨v :: below, cap, calls, p + 1, store⟩ := by
      simp only [Executor.step, Executor.visitLoad, Executor.data, read]
      rfl
    have run := tail_expands v m host (p + 1) rest below cap calls store
    rw [Nat.add_assoc, Nat.add_comm 1] at run
    exact vm_next found step run
  next gt =>
    have read := LoadOp.eval_error op gt
    have step : (⟨address :: below, cap, calls, p, store⟩ : Executor T).step m host (.load op offset) =
        .halt (.trapped .memoryOutOfBounds ⟨address :: below, cap, calls, p, store⟩) := by
      simp only [Executor.step, Executor.visitLoad, Executor.data, read]
      rfl
    exact ⟨_, vm_halt found step, rfl⟩

/-- The wide load reads the high half first. -/
lemma wideLoad_run (placed : CodeAt m.codeSection p (opI64Load offset))
    (bounded : store.globalMemory.Bounded) :
    AccessesExactly m host ⟨address :: below, cap, calls, p, store⟩
      (address.toNat + offset + 8 ≤ store.globalMemory.sharedMemory.length)
      ⟨pushValue (.i64 (BitVec.ofNat 64 (fromLeBytes
          ((store.globalMemory.sharedMemory.drop (address.toNat + offset)).take 8)))) below,
        cap, calls, p + 5, store⟩ := by
  have small : store.globalMemory.sharedMemory.length ≤ 2 ^ 32 :=
    bounded.length_le_two_pow.trans (by norm_num)
  simp only [opI64Load, CodeAt.cons_iff, Nat.add_assoc, Nat.reduceAdd] at placed
  obtain ⟨h₀, h₁, h₂, h₃, h₄, -⟩ := placed
  unfold AccessesExactly
  split
  next le =>
    rw [show min (offset + 4) (2 ^ 32 - 1) = offset + 4 by omega] at h₁
    have high : LoadOp.i32Load.eval store.globalMemory.sharedMemory address (offset + 4) = _ :=
      LoadOp.eval_ok .i32Load small (by show _ + 4 ≤ _; omega)
    have low : LoadOp.i32Load.eval store.globalMemory.sharedMemory address offset = _ :=
      LoadOp.eval_ok .i32Load small (by show _ + 4 ≤ _; omega)
    rw [fromLeBytes_take_eight _ _ le, pushValue_joinLimbs, Nat.add_assoc]
    simp only [LoadOp.width, LoadOp.extend] at high low
    generalize BitVec.ofNat 32 (fromLeBytes
      ((store.globalMemory.sharedMemory.drop (address.toNat + (offset + 4))).take 4)) = hi at high ⊢
    generalize BitVec.ofNat 32 (fromLeBytes
      ((store.globalMemory.sharedMemory.drop (address.toNat + offset)).take 4)) = lo at low ⊢
    have first : (⟨address :: address :: below, cap, calls, p + 1, store⟩ : Executor T).step m host
        (.i32Load (offset + 4)) = .next ⟨hi :: address :: below, cap, calls, p + 2, store⟩ := by
      simp only [Executor.step, Executor.visitLoad, Executor.data, high]
      rfl
    have second : (⟨address :: hi :: address :: below, cap, calls, p + 3, store⟩ : Executor T).step m
        host (.i32Load offset) = .next ⟨lo :: hi :: address :: below, cap, calls, p + 4, store⟩ := by
      simp only [Executor.step, Executor.visitLoad, Executor.data, low]
      rfl
    exact vm_next h₀ rfl (vm_next h₁ first (vm_next h₂ rfl (vm_next h₃ second (vm_next h₄ rfl .refl))))
  next gt =>
    have high : LoadOp.i32Load.eval store.globalMemory.sharedMemory address
        (min (offset + 4) (2 ^ 32 - 1)) = _ :=
      LoadOp.eval_error .i32Load (by show ¬ _ + 4 ≤ _; omega)
    have first : (vm m host).Steps ⟨address :: below, cap, calls, p, store⟩
        ⟨address :: address :: below, cap, calls, p + 1, store⟩ := vm_next h₀ rfl .refl
    refine ⟨⟨address :: address :: below, cap, calls, p + 1, store⟩, first.halts (vm_halt h₁ ?_), rfl⟩
    simp only [Executor.step, Executor.visitLoad, Executor.data, high]
    rfl

/-- A store of at most 32 bits drops the high half first. -/
lemma narrowStore_run (op : StoreOp) (placed : CodeAt m.codeSection p [.drop, .store op offset])
    (bounded : store.globalMemory.Bounded) :
    AccessesExactly m host ⟨hi :: lo :: address :: below, cap, calls, p, store⟩
      (address.toNat + offset + op.width ≤ store.globalMemory.sharedMemory.length)
      ((⟨below, cap, calls, p + 2, store⟩ : Executor T).setData
        (store.globalMemory.sharedMemory.setSlice (address.toNat + offset)
          (intoLeBytes op.width lo.toNat))) := by
  have small : store.globalMemory.sharedMemory.length ≤ 2 ^ 32 :=
    bounded.length_le_two_pow.trans (by norm_num)
  obtain ⟨h₀, h₁, -⟩ := placed
  have first : (vm m host).Steps ⟨hi :: lo :: address :: below, cap, calls, p, store⟩
      ⟨lo :: address :: below, cap, calls, p + 1, store⟩ := vm_next h₀ rfl .refl
  unfold AccessesExactly
  split
  next le =>
    have value := @StoreOp.eval_ok _ address lo offset op small le
    refine first.trans (vm_next h₁ ?_ .refl)
    simp only [Executor.step, Executor.visitStore, Executor.data, value]
    rfl
  next gt =>
    have value := @StoreOp.eval_error _ address lo offset op gt
    refine ⟨⟨below, cap, calls, p + 1, store⟩, first.halts (vm_halt h₁ ?_), rfl⟩
    simp only [Executor.step, Executor.visitStore, Executor.data, value]

/-- The wide store writes the high half first, so that nothing is written where it traps. -/
lemma wideStore_run (placed : CodeAt m.codeSection p (opI64Store offset))
    (bounded : store.globalMemory.Bounded) :
    AccessesExactly m host ⟨hi :: lo :: address :: below, cap, calls, p, store⟩
      (address.toNat + offset + 8 ≤ store.globalMemory.sharedMemory.length)
      ((⟨below, cap, calls, p + 5, store⟩ : Executor T).setData
        (store.globalMemory.sharedMemory.setSlice (address.toNat + offset)
          (intoLeBytes 8 (joinLimbs lo hi).toNat))) := by
  have small : store.globalMemory.sharedMemory.length ≤ 2 ^ 32 :=
    bounded.length_le_two_pow.trans (by norm_num)
  simp only [opI64Store, CodeAt.cons_iff, Nat.add_assoc, Nat.reduceAdd] at placed
  obtain ⟨h₀, h₁, h₂, h₃, h₄, -⟩ := placed
  have start : (vm m host).Steps ⟨hi :: lo :: address :: below, cap, calls, p, store⟩
      ⟨hi :: address :: hi :: lo :: address :: below, cap, calls, p + 2, store⟩ :=
    vm_next h₀ rfl (vm_next h₁ rfl .refl)
  unfold AccessesExactly
  split
  next le =>
    rw [show min (offset + 4) (2 ^ 32 - 1) = offset + 4 by omega] at h₂
    have high := @StoreOp.eval_ok store.globalMemory.sharedMemory address hi (offset + 4) .i32Store small
      (by show _ + 4 ≤ _; omega)
    set memory' := store.globalMemory.sharedMemory.setSlice (address.toNat + (offset + 4))
      (intoLeBytes StoreOp.i32Store.width hi.toNat)
    have len : memory'.length = store.globalMemory.sharedMemory.length := StoreOp.length_eval high
    have low := @StoreOp.eval_ok memory' address lo offset .i32Store (by rw [len]; exact small)
      (by rw [len]; show _ + 4 ≤ _; omega)
    have halves : memory'.setSlice (address.toNat + offset)
        (intoLeBytes StoreOp.i32Store.width lo.toNat) =
          store.globalMemory.sharedMemory.setSlice (address.toNat + offset)
            (intoLeBytes 8 (joinLimbs lo hi).toNat) := setSlice_limbs le
    have first : (⟨hi :: address :: hi :: lo :: address :: below, cap, calls, p + 2, store⟩ :
        Executor T).step m host (.i32Store (offset + 4)) =
          .next ((⟨hi :: lo :: address :: below, cap, calls, p + 3, store⟩ : Executor T).setData
            memory') := by
      simp only [Executor.step, Executor.visitStore, Executor.data, high]
      rfl
    have second : ((⟨lo :: address :: below, cap, calls, p + 4, store⟩ : Executor T).setData
        memory').step m host (.i32Store offset) =
          .next ((⟨below, cap, calls, p + 5, store⟩ : Executor T).setData
            (memory'.setSlice (address.toNat + offset)
              (intoLeBytes StoreOp.i32Store.width lo.toNat))) := by
      simp only [Executor.step, Executor.visitStore, Executor.data, Executor.setData,
        GlobalMemory.setData, low]
      rfl
    rw [← halves]
    exact start.trans (vm_next h₂ first (vm_next h₃ rfl (vm_next h₄ second .refl)))
  next gt =>
    have high : StoreOp.i32Store.eval store.globalMemory.sharedMemory address
        (min (offset + 4) (2 ^ 32 - 1)) hi = _ :=
      StoreOp.eval_error .i32Store (by show ¬ _ + 4 ≤ _; omega)
    refine ⟨⟨hi :: lo :: address :: below, cap, calls, p + 2, store⟩,
      start.halts (vm_halt h₂ ?_), rfl⟩
    simp only [Executor.step, Executor.visitStore, Executor.data, high]

end Runs

variable {T : Type} {m : RwasmModule} {host : Host T} {e : Executor T} {below : List UntypedValue}

/-- The loads are extended with their sign or with zeros. -/
lemma load_accesses {op : LoadOperator} (wide : op.loadedType = .i64) {address : UntypedValue}
    {offset p cap : Nat} {calls : List Nat} {store : Store T}
    (placed : CodeAt m.codeSection p (op.emitted offset)) (bounded : store.globalMemory.Bounded) :
    AccessesExactly m host ⟨address :: below, cap, calls, p, store⟩
      (address.toNat + offset + op.width ≤ store.globalMemory.sharedMemory.length)
      ⟨pushValue (.i64 (op.extend (fromLeBytes
          ((store.globalMemory.sharedMemory.drop (address.toNat + offset)).take op.width)))) below,
        cap, calls, p + (op.emitted offset).length, store⟩ := by
  cases op <;> try cases wide
  case i64Load => exact wideLoad_run placed bounded
  case i64Load8S =>
    exact narrowLoad_run .i32Load8S extendI32S_expands (fun n _ => signExtend_twice (by omega) _) placed
      bounded
  case i64Load8U =>
    exact narrowLoad_run .i32Load8U extendI32U_expands
      (fun n lt => setWidth_ofNat (lt.trans (by decide))) placed bounded
  case i64Load16S =>
    exact narrowLoad_run .i32Load16S extendI32S_expands (fun n _ => signExtend_twice (by omega) _) placed
      bounded
  case i64Load16U =>
    exact narrowLoad_run .i32Load16U extendI32U_expands
      (fun n lt => setWidth_ofNat (lt.trans (by decide))) placed bounded
  case i64Load32S =>
    exact narrowLoad_run .i32Load extendI32S_expands (fun n _ => rfl) placed bounded
  case i64Load32U =>
    exact narrowLoad_run .i32Load extendI32U_expands (fun n lt => setWidth_ofNat lt) placed bounded

/-- The stores write the lowest bytes of their value. -/
lemma store_accesses {op : StoreOperator} (wide : op.storedType = .i64) {address : UntypedValue}
    {value : BitVec 64} {offset p cap : Nat} {calls : List Nat} {store : Store T}
    (placed : CodeAt m.codeSection p (op.emitted offset)) (bounded : store.globalMemory.Bounded) :
    AccessesExactly m host ⟨pushValue (.i64 value) (address :: below), cap, calls, p, store⟩
      (address.toNat + offset + op.width ≤ store.globalMemory.sharedMemory.length)
      ((⟨below, cap, calls, p + (op.emitted offset).length, store⟩ : Executor T).setData
        (store.globalMemory.sharedMemory.setSlice (address.toNat + offset)
          (intoLeBytes op.width value.toNat))) := by
  obtain ⟨lo, hi, rfl⟩ := exists_limbs value
  have low : (joinLimbs lo hi).toNat % 256 ^ 4 = lo.toNat := by
    have hlo := lo.isLt
    rw [toNat_joinLimbs]
    omega
  rw [pushValue_joinLimbs]
  cases op <;> try cases wide
  case i64Store => exact wideStore_run placed bounded
  case i64Store8 =>
    have bytes := intoLeBytes_mod (show 1 ≤ 4 by omega) (joinLimbs lo hi).toNat
    rw [low] at bytes
    show AccessesExactly _ _ _ _ (Executor.setData _ (List.setSlice _ _ (intoLeBytes 1 _)))
    rw [← bytes]
    exact narrowStore_run .i32Store8 placed bounded
  case i64Store16 =>
    have bytes := intoLeBytes_mod (show 2 ≤ 4 by omega) (joinLimbs lo hi).toNat
    rw [low] at bytes
    show AccessesExactly _ _ _ _ (Executor.setData _ (List.setSlice _ _ (intoLeBytes 2 _)))
    rw [← bytes]
    exact narrowStore_run .i32Store16 placed bounded
  case i64Store32 =>
    have bytes := intoLeBytes_mod (le_refl 4) (joinLimbs lo hi).toNat
    rw [low] at bytes
    show AccessesExactly _ _ _ _ (Executor.setData _ (List.setSlice _ _ (intoLeBytes 4 _)))
    rw [← bytes]
    exact narrowStore_run .i32Store placed bounded

/-- A 64-bit access reads or writes its bytes where they lie inside the memory, and traps without a
change of the store elsewhere. -/
theorem i64Access_exact (a : I64Access) (offset : Nat)
    (placed : CodeAt m.codeSection e.ip (a.emitted offset))
    (pushed : e.valueStack = pushValues a.operands below) (bounded : e.store.globalMemory.Bounded) :
    AccessesExactly m host e (a.address + offset + a.width ≤ e.data.length)
      (a.after offset e below) := by
  obtain ⟨valueStack, cap, calls, p, store⟩ := e
  subst pushed
  cases a with
  | load op wide address => exact load_accesses wide placed bounded
  | store op wide address value => exact store_accesses wide placed bounded

/-- A memory of eight bytes. -/
def eightBytes : Store Unit :=
  { Store.new () none none with globalMemory := ⟨[1, 2, 3, 4, 5, 6, 7, 8], 1, 1⟩ }

/-- A wide store at the second byte reaches behind the end and writes nothing. -/
theorem i64Access_exact_torn :
    ∃ e', (vm ⟨opI64Store 1, [], [], [], 0⟩ Host.empty).Halts
      ⟨[7, 6, 0], N_DEFAULT_STACK_SIZE, [], 0, eightBytes⟩ (.trapped .memoryOutOfBounds e') ∧
      e'.store = eightBytes := by
  have outside := @i64Access_exact Unit ⟨opI64Store 1, [], [], [], 0⟩ Host.empty
    ⟨[7, 6, 0], N_DEFAULT_STACK_SIZE, [], 0, eightBytes⟩ [] (.store .i64Store rfl 0 0x700000006) 1
    .self rfl ⟨by decide, by decide⟩
  rw [AccessesExactly, if_neg (by decide)] at outside
  exact outside

end Rwasm
