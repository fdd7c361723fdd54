import Rwasm.Compiler.Skeleton
import Rwasm.Isa.DivS
import Rwasm.Isa.DivU
import Rwasm.Isa.RemS
import Rwasm.Isa.RemU
import Rwasm.Isa.Shifts
import Rwasm.Wasm.Numerics

/-!
# The value of what is emitted

What a numeric operator on integers is translated to has the value of the operator, or its trap: the
instructions on one slot, and the sequences on two.
-/

namespace Rwasm

open UntypedValue InstructionSet

variable {code : List Opcode}

/-- Wherever the code stands in a module, it replaces the operands on top of the stack by the result and
goes on behind itself, or traps. -/
def Evaluates (code : List Opcode) (operands : List Value) (result : Except TrapCode Value) : Prop :=
  ∀ {T : Type} (m : RwasmModule) (host : Host T) (p : Nat), CodeAt m.codeSection p code →
    ∀ below cap calls (store : Store T),
      match result with
      | .ok v =>
        (vm m host).Steps ⟨pushValues operands below, cap, calls, p, store⟩
          ⟨pushValue v below, cap, calls, p + code.length, store⟩
      | .error trap =>
        ∃ e, (vm m host).Halts ⟨pushValues operands below, cap, calls, p, store⟩ (.trapped trap e) ∧
          e.callStack = calls ∧ e.store = store

/-- What leaves the result at its end evaluates to it. -/
lemma evaluates_ok {operands : List Value} {v : Value}
    (steps : ∀ below, (stackMachine code).Steps ⟨0, pushValues operands below⟩
      ⟨code.length, pushValue v below⟩) :
    Evaluates code operands (.ok v) :=
  fun _ _ _ placed below _ _ _ => vm_steps_onStack placed (steps below)

/-- What traps does so wherever it stands. -/
lemma evaluates_error {operands : List Value} {trap : TrapCode}
    (halts : ∀ below, (stackMachine code).Halts ⟨0, pushValues operands below⟩ (some trap)) :
    Evaluates code operands (.error trap) :=
  fun _ _ _ placed below _ _ _ => vm_traps_onStack placed (halts below)

/-- Code that expands an operation evaluates to its result. -/
lemma Expands.evaluates {operands : List Value} {v : Value} (h : Expands code operands v) :
    Evaluates code operands (.ok v) :=
  fun m host p placed below cap calls store => h m host p placed below cap calls store

/-- The operands of a sequence over limbs. -/
lemma pushValues_limbs (xl xh yl yh : UntypedValue) (below : List UntypedValue) :
    pushValues [.i64 (joinLimbs xl xh), .i64 (joinLimbs yl yh)] below = yh :: yl :: xh :: xl :: below := by
  show pushValue (.i64 (joinLimbs yl yh)) (pushValue (.i64 (joinLimbs xl xh)) below) = _
  rw [pushValue_joinLimbs, pushValue_joinLimbs]

/-! ## Divisions of two limbs -/

section Division

variable {nl nh dl dh : UntypedValue} {below : List UntypedValue}

/-- A divisor that is not zero has a limb that is not. -/
lemma toBool_limbs (ne : joinLimbs dl dh ≠ 0) : (dh ||| dl).toBool = true := by
  rw [UntypedValue.toBool, bne_iff_ne]
  intro zero
  obtain ⟨hi, lo⟩ := BitVec.or_eq_zero_iff.mp zero
  exact ne (joinLimbs_eq_zero_iff.mpr ⟨lo, hi⟩)

/-- Zero is the only word that is false. -/
lemma eq_zero_of_toBool {x : UntypedValue} (h : x.toBool = false) : x = 0 := by
  rw [UntypedValue.toBool, bne_eq_false_iff_eq] at h
  exact h

/-- The unsigned division runs to the quotient. -/
lemma divU_steps (ne : joinLimbs dl dh ≠ 0) :
    (stackMachine opI64DivU).Steps ⟨0, dh :: dl :: nh :: nl :: below⟩
      ⟨405, pushValue (.i64 (joinLimbs nl nh / joinLimbs dl dh)) below⟩ := by
  refine divU_start.trans ?_
  cases h : dh.toBool with
  | true => exact (brIfNez_taken rfl h rfl).trans (divU_long fun zero => by simp [zero, UntypedValue.toBool] at h)
  | false =>
    obtain rfl := eq_zero_of_toBool h
    have low : dl ≠ 0 := fun zero => ne (joinLimbs_eq_zero_iff.mpr ⟨zero, rfl⟩)
    have test : (ofBool (dl == 0)).toBool = false := by
      rw [beq_eq_false_iff_ne.mpr low]
      rfl
    exact (brIfNez_passed rfl h).trans
      (divU_start_low.trans ((brIfNez_passed rfl test).trans (divU_limb low)))

/-- A divisor of zero traps. -/
lemma divU_traps : (stackMachine opI64DivU).Halts ⟨0, 0 :: 0 :: nh :: nl :: below⟩
    (some .integerDivisionByZero) := by
  have tested : (stackMachine opI64DivU).Steps ⟨8, 0 :: shortStack below nl nh 0 0 0 0 0 0 0⟩ ⟨36, _⟩ :=
    (brIfNez_passed rfl rfl).trans (divU_start_low.trans (brIfNez_taken rfl rfl rfl))
  exact (divU_start.trans tested).halts (.now rfl)

/-- The unsigned remainder runs to the remainder. -/
lemma remU_steps (ne : joinLimbs dl dh ≠ 0) :
    (stackMachine opI64RemU).Steps ⟨0, dh :: dl :: nh :: nl :: below⟩
      ⟨352, pushValue (.i64 (joinLimbs nl nh % joinLimbs dl dh)) below⟩ := by
  refine remU_start.trans ?_
  cases h : dh.toBool with
  | true => exact (brIfNez_taken rfl h rfl).trans (remU_general ne)
  | false =>
    obtain rfl := eq_zero_of_toBool h
    have low : dl ≠ 0 := fun zero => ne (joinLimbs_eq_zero_iff.mpr ⟨zero, rfl⟩)
    exact (brIfNez_passed rfl h).trans
      (remU_start_low.trans ((brIfNez_taken rfl (bne_iff_ne.mpr low) rfl).trans (remU_limb low)))

/-- A divisor of zero traps. -/
lemma remU_traps : (stackMachine opI64RemU).Halts ⟨0, 0 :: 0 :: nh :: nl :: below⟩
    (some .integerDivisionByZero) := by
  have tested : (stackMachine opI64RemU).Steps
      ⟨7, 0 :: 0 :: 0 :: 0 :: 0 :: 0 :: 0 :: 0 :: 0 :: nh :: nl :: below⟩ ⟨10, _⟩ :=
    (brIfNez_passed rfl rfl).trans (remU_start_low.trans (brIfNez_passed rfl rfl))
  exact (remU_start.trans tested).halts (.now rfl)

/-- The signed remainder runs to the remainder. -/
lemma remS_steps (ne : joinLimbs dl dh ≠ 0) :
    (stackMachine opI64RemS).Steps ⟨0, dh :: dl :: nh :: nl :: below⟩
      ⟨383, pushValue (.i64 ((joinLimbs nl nh).srem (joinLimbs dl dh))) below⟩ :=
  remS_start.trans ((brIfNez_taken (j := 9) rfl (toBool_limbs ne) rfl).trans (remS_divides ne))

/-- A divisor of zero traps. -/
lemma remS_traps : (stackMachine opI64RemS).Halts ⟨0, 0 :: 0 :: nh :: nl :: below⟩
    (some .integerDivisionByZero) := by
  have tested : (stackMachine opI64RemS).Steps
      ⟨7, ((0 : UntypedValue) ||| 0) :: 0 :: 0 :: 0 :: 0 :: 0 :: 0 :: nh :: nl :: below⟩ ⟨8, _⟩ :=
    brIfNez_passed rfl rfl
  exact (remS_start.trans tested).halts (.now rfl)

/-- The divisor of the signed division is tested first. -/
lemma divS_tested (ne : joinLimbs dl dh ≠ 0) :
    (stackMachine opI64DivS).Steps ⟨0, dh :: dl :: nh :: nl :: below⟩
      ⟨14, divSOperands below nl nh dl dh 0 0 0 0⟩ :=
  divS_start.trans (brIfNez_taken rfl (toBool_limbs ne) rfl)

/-- The signed division runs to the quotient where it fits. -/
lemma divS_steps (ne : joinLimbs dl dh ≠ 0)
    (fits : ¬ ((joinLimbs nl nh).toInt = -2 ^ 63 ∧ (joinLimbs dl dh).toInt = -1)) :
    (stackMachine opI64DivS).Steps ⟨0, dh :: dl :: nh :: nl :: below⟩
      ⟨257, pushValue (.i64 ((joinLimbs nl nh).sdiv (joinLimbs dl dh))) below⟩ := by
  rw [overflow_iff] at fits
  have tests := @divS_tests below nl nh dl dh
  refine (divS_tested ne).trans ?_
  by_cases high : nh = -2147483648 ∧ dh = -1
  · have low : ¬ (nl = 0 ∧ dl = -1) := fun low => fits ⟨high.1, high.2, low⟩
    rw [if_pos high, if_neg low] at tests
    obtain ⟨nl', nh', dl', dh', hn, hd, run⟩ := @divS_least below nl nh dl dh high.1 high.2
    exact tests.trans (run.trans (divS_divides hn hd ne))
  · rw [if_neg high] at tests
    obtain ⟨nl', nh', dl', dh', hn, hd, run⟩ := @divS_operands below nl nh dl dh
    exact tests.trans (run.trans (divS_divides hn hd ne))

/-- A divisor of zero traps. -/
lemma divS_traps_zero : (stackMachine opI64DivS).Halts ⟨0, 0 :: 0 :: nh :: nl :: below⟩
    (some .integerDivisionByZero) :=
  (divS_start.trans (brIfNez_passed rfl rfl)).halts (.now rfl)

/-- So does the quotient that does not fit. -/
lemma divS_traps_overflow (ne : joinLimbs dl dh ≠ 0)
    (large : (joinLimbs nl nh).toInt = -2 ^ 63 ∧ (joinLimbs dl dh).toInt = -1) :
    (stackMachine opI64DivS).Halts ⟨0, dh :: dl :: nh :: nl :: below⟩ (some .integerOverflow) := by
  obtain ⟨h₁, h₂, low⟩ := overflow_iff.mp large
  have tests := @divS_tests below nl nh dl dh
  rw [if_pos ⟨h₁, h₂⟩, if_pos low] at tests
  exact ((divS_tested ne).trans tests).halts (.now rfl)

end Division

/-! ## The operators of two numbers -/

/-- What an operator of two 64-bit numbers is emitted as. -/
def IBinOp.code64 : IBinOp → List Opcode
  | add => opI64Add
  | sub => opI64Sub
  | mul => opI64Mul
  | divS => opI64DivS
  | divU => opI64DivU
  | remS => opI64RemS
  | remU => opI64RemU
  | and => opI64And
  | or => opI64Or
  | xor => opI64Xor
  | shl => opI64Shl
  | shrS => opI64ShrS
  | shrU => opI64ShrU
  | rotl => opI64Rotl
  | rotr => opI64Rotr

/-- A sequence of two operands that leaves the value at its end. -/
lemma evaluates_limbs {f : BitVec 64 → BitVec 64 → BitVec 64} {n : Nat} (length : code.length = n)
    {x y : BitVec 64}
    (steps : ∀ xl xh yl yh below, joinLimbs xl xh = x → joinLimbs yl yh = y →
      (stackMachine code).Steps ⟨0, yh :: yl :: xh :: xl :: below⟩ ⟨n, pushValue (.i64 (f x y)) below⟩) :
    Evaluates code [.i64 x, .i64 y] (.ok (.i64 (f x y))) := by
  obtain ⟨xl, xh, rfl⟩ := exists_limbs x
  obtain ⟨yl, yh, rfl⟩ := exists_limbs y
  apply evaluates_ok
  intro below
  rw [pushValues_limbs, length]
  exact steps xl xh yl yh below rfl rfl

/-- A sequence of two operands that traps. -/
lemma evaluates_trap {x y : BitVec 64} {trap : TrapCode}
    (halts : ∀ xl xh yl yh below, joinLimbs xl xh = x → joinLimbs yl yh = y →
      (stackMachine code).Halts ⟨0, yh :: yl :: xh :: xl :: below⟩ (some trap)) :
    Evaluates code [.i64 x, .i64 y] (.error trap) := by
  obtain ⟨xl, xh, rfl⟩ := exists_limbs x
  obtain ⟨yl, yh, rfl⟩ := exists_limbs y
  apply evaluates_error
  intro below
  rw [pushValues_limbs]
  exact halts xl xh yl yh below rfl rfl

/-- The sequences of the shifts take their count from the low limb. -/
lemma evaluates_shift {f : BitVec 64 → Nat → BitVec 64} {n : Nat} (length : code.length = n)
    (steps : ∀ xl xh cl ch below, (stackMachine code).Steps ⟨0, ch :: cl :: xh :: xl :: below⟩
      ⟨n, pushValue (.i64 (f (joinLimbs xl xh) (cl.toNat % 64))) below⟩) (x c : BitVec 64) :
    Evaluates code [.i64 x, .i64 c] (.ok (.i64 (f x (c.toNat % 64)))) :=
  fun m host p placed below cap calls store =>
    implements_of_steps length steps m host p placed x c below cap calls store

/-- Every binary operator that is inlined. -/
lemma evaluates_binary (op : I64BinaryOp) (x y : BitVec 64) :
    Evaluates op.code [.i64 x, .i64 y] (.ok (.i64 (op.eval x y))) := by
  refine evaluates_limbs rfl ?_
  rintro xl xh yl yh below rfl rfl
  exact binary_steps op

/-- The sequence of an operator has its value. -/
theorem IBinOp.code64_evaluates (op : IBinOp) (x y : BitVec 64) :
    Evaluates op.code64 [.i64 x, .i64 y] ((op.eval x y).map .i64) := by
  cases op with
  | add => exact evaluates_binary .add x y
  | sub => exact evaluates_binary .sub x y
  | mul => exact evaluates_binary .mul x y
  | and => exact evaluates_binary .and x y
  | or => exact evaluates_binary .or x y
  | xor => exact evaluates_binary .xor x y
  | shl => exact evaluates_shift (f := (· <<< ·)) (by decide +kernel) (fun _ _ _ _ _ => shl_steps) x y
  | shrS => exact evaluates_shift (f := (·.sshiftRight ·)) (by decide +kernel) (fun _ _ _ _ _ => shrS_steps) x y
  | shrU => exact evaluates_shift (f := (· >>> ·)) (by decide +kernel) (fun _ _ _ _ _ => shrU_steps) x y
  | rotl => exact evaluates_shift (f := (·.rotateLeft ·)) (by decide +kernel) (fun _ _ _ _ _ => rotl_steps) x y
  | rotr => exact evaluates_shift (f := (·.rotateRight ·)) (by decide +kernel) (fun _ _ _ _ _ => rotr_steps) x y
  | divU =>
    rw [eval]
    split
    next zero =>
      refine evaluates_trap ?_
      rintro xl xh yl yh below rfl eq
      obtain ⟨rfl, rfl⟩ := joinLimbs_eq_zero_iff.mp (eq.trans zero)
      exact divU_traps
    next ne =>
      rw [← BitVec.toNat_udiv, BitVec.ofNat_toNat, BitVec.setWidth_eq]
      refine @evaluates_limbs _ (· / ·) _ length_opI64DivU x y ?_
      rintro xl xh yl yh below rfl rfl
      exact divU_steps ne
  | remU =>
    rw [eval]
    split
    next zero =>
      refine evaluates_trap ?_
      rintro xl xh yl yh below rfl eq
      obtain ⟨rfl, rfl⟩ := joinLimbs_eq_zero_iff.mp (eq.trans zero)
      exact remU_traps
    next ne =>
      rw [← BitVec.toNat_umod, BitVec.ofNat_toNat, BitVec.setWidth_eq]
      refine @evaluates_limbs _ (· % ·) _ length_opI64RemU x y ?_
      rintro xl xh yl yh below rfl rfl
      exact remU_steps ne
  | remS =>
    rw [eval]
    split
    next zero =>
      refine evaluates_trap ?_
      rintro xl xh yl yh below rfl eq
      obtain ⟨rfl, rfl⟩ := joinLimbs_eq_zero_iff.mp (eq.trans zero)
      exact remS_traps
    next ne =>
      rw [← BitVec.toInt_srem, BitVec.ofInt_toInt]
      refine @evaluates_limbs _ BitVec.srem _ length_opI64RemS x y ?_
      rintro xl xh yl yh below rfl rfl
      exact remS_steps ne
  | divS =>
    rw [eval]
    split
    next zero =>
      refine evaluates_trap ?_
      rintro xl xh yl yh below rfl eq
      obtain ⟨rfl, rfl⟩ := joinLimbs_eq_zero_iff.mp (eq.trans zero)
      exact divS_traps_zero
    next ne =>
      split
      next large =>
        refine evaluates_trap ?_
        rintro xl xh yl yh below rfl rfl
        exact divS_traps_overflow ne large
      next fits =>
        have value : BitVec.ofInt 64 (x.toInt.tdiv y.toInt) = x.sdiv y := by
          apply BitVec.eq_of_toInt_eq
          rw [BitVec.toInt_ofInt, BitVec.toInt_sdiv]
        rw [value]
        refine @evaluates_limbs _ BitVec.sdiv _ length_opI64DivS x y ?_
        rintro xl xh yl yh below rfl rfl
        exact divS_steps ne fits

/-! ## The other operators on two limbs -/

/-- What an operator of one 64-bit number is emitted as. -/
def IUnOp.code64 : IUnOp → List Opcode
  | clz => opI64Clz
  | ctz => opI64Ctz
  | popcnt => opI64Popcnt
  | extend8S => opI64Extend8S
  | extend16S => opI64Extend16S
  | extend32S => opI64Extend32S

/-- What a comparison of 64-bit numbers is emitted as. -/
def IRelOp.code64 : IRelOp → List Opcode
  | eq => opI64Eq
  | ne => opI64Ne
  | ltS => opI64LtS
  | ltU => opI64LtU
  | gtS => opI64GtS
  | gtU => opI64GtU
  | leS => opI64LeS
  | leU => opI64LeU
  | geS => opI64GeS
  | geU => opI64GeU

/-- Every unary operator that is inlined. -/
lemma evaluates_unary (op : I64UnaryOp) (x : BitVec 64) :
    Evaluates op.code [.i64 x] (.ok (.i64 (op.eval x))) := by
  obtain ⟨lo, hi, rfl⟩ := exists_limbs x
  apply evaluates_ok
  intro below
  show (stackMachine op.code).Steps ⟨0, pushValue (.i64 (joinLimbs lo hi)) below⟩ _
  rw [pushValue_joinLimbs]
  exact unary_steps op

/-- The unary operators of the semantics, at 64 bits. -/
lemma IUnOp.code64_evaluates (op : IUnOp) (x : BitVec 64) :
    Evaluates op.code64 [.i64 x] (.ok (.i64 (op.eval x))) := by
  cases op with
  | clz => exact evaluates_unary .clz x
  | ctz => exact evaluates_unary .ctz x
  | popcnt => exact evaluates_unary .popcnt x
  | extend8S => exact evaluates_unary .extend8S x
  | extend16S => exact evaluates_unary .extend16S x
  | extend32S => exact evaluates_unary .extend32S x

/-- Every comparison that is inlined. -/
lemma evaluates_compare (op : I64CompareOp) (x y : BitVec 64) :
    Evaluates op.code [.i64 x, .i64 y] (.ok (.i32 (if op.eval x y then 1 else 0))) := by
  obtain ⟨xl, xh, rfl⟩ := exists_limbs x
  obtain ⟨yl, yh, rfl⟩ := exists_limbs y
  apply evaluates_ok
  intro below
  rw [pushValues_limbs]
  exact compare_steps op

/-- The comparisons of the semantics, at 64 bits. -/
lemma IRelOp.code64_evaluates (op : IRelOp) (x y : BitVec 64) :
    Evaluates op.code64 [.i64 x, .i64 y] (.ok (.i32 (if op.eval x y then 1 else 0))) := by
  cases op with
  | eq => exact evaluates_compare .eq x y
  | ne => exact evaluates_compare .ne x y
  | ltS => exact evaluates_compare .ltS x y
  | ltU => exact evaluates_compare .ltU x y
  | gtS => exact evaluates_compare .gtS x y
  | gtU => exact evaluates_compare .gtU x y
  | leS => exact evaluates_compare .leS x y
  | leU => exact evaluates_compare .leU x y
  | geS => exact evaluates_compare .geS x y
  | geU => exact evaluates_compare .geU x y

/-- Both limbs are tested. -/
lemma eqz_evaluates (x : BitVec 64) :
    Evaluates opI64Eqz [.i64 x] (.ok (.i32 (if x = 0 then 1 else 0))) := by
  obtain ⟨lo, hi, rfl⟩ := exists_limbs x
  have value : (if joinLimbs lo hi = 0 then 1 else 0) = ofBool (lo == 0) &&& ofBool (hi == 0) := by
    rw [ofBool_and, ofBool]
    refine if_congr ?_ rfl rfl
    rw [joinLimbs_eq_zero_iff, Bool.and_eq_true, beq_iff_eq, beq_iff_eq]
  apply evaluates_ok
  intro below
  show (stackMachine opI64Eqz).Steps ⟨0, pushValue (.i64 (joinLimbs lo hi)) below⟩
    ⟨5, (if joinLimbs lo hi = 0 then 1 else 0) :: below⟩
  rw [pushValue_joinLimbs, value]
  exact straight 5 rfl

/-- The low limb is what is left of a wrapped number. -/
lemma wrap_evaluates (x : BitVec 64) : Evaluates [.drop] [.i64 x] (.ok (.i32 (x.setWidth 32))) := by
  obtain ⟨lo, hi, rfl⟩ := exists_limbs x
  have value : (joinLimbs lo hi).setWidth 32 = lo := congrArg Prod.fst (split_joinLimbs lo hi)
  apply evaluates_ok
  intro below
  show (stackMachine [.drop]).Steps ⟨0, pushValue (.i64 (joinLimbs lo hi)) below⟩
    ⟨1, (joinLimbs lo hi).setWidth 32 :: below⟩
  rw [pushValue_joinLimbs, value]
  exact straight 1 rfl

/-! ## Operators on one slot -/

/-- The instruction of an operator of one 32-bit number; there is no extension of all of its bits. -/
def IUnOp.code32 : IUnOp → List Opcode
  | clz => [.i32Clz]
  | ctz => [.i32Ctz]
  | popcnt => [.i32Popcnt]
  | extend8S => [.i32Extend8S]
  | extend16S => [.i32Extend16S]
  | extend32S => []

/-- The instruction of an operator of two 32-bit numbers. -/
def IBinOp.code32 : IBinOp → List Opcode
  | add => [.i32Add]
  | sub => [.i32Sub]
  | mul => [.i32Mul]
  | divS => [.i32DivS]
  | divU => [.i32DivU]
  | remS => [.i32RemS]
  | remU => [.i32RemU]
  | and => [.i32And]
  | or => [.i32Or]
  | xor => [.i32Xor]
  | shl => [.i32Shl]
  | shrS => [.i32ShrS]
  | shrU => [.i32ShrU]
  | rotl => [.i32Rotl]
  | rotr => [.i32Rotr]

/-- The instruction of a comparison of 32-bit numbers. -/
def IRelOp.code32 : IRelOp → List Opcode
  | eq => [.i32Eq]
  | ne => [.i32Ne]
  | ltS => [.i32LtS]
  | ltU => [.i32LtU]
  | gtS => [.i32GtS]
  | gtU => [.i32GtU]
  | leS => [.i32LeS]
  | leU => [.i32LeU]
  | geS => [.i32GeS]
  | geU => [.i32GeU]

/-- An instruction that replaces its operands on the stack. -/
lemma evaluates_instr {op : Opcode} {operands : List Value} {v : Value}
    (h : ∀ below, op.onStack (pushValues operands below) = some (pushValue v below)) :
    Evaluates [op] operands (.ok v) := by
  intro T m host p placed below cap calls store
  have found : m.codeSection[p]? = some op := placed.1
  exact vm_next found (step_onStack (h below)) .refl

/-- The instructions that may trap. -/
lemma evaluates_fallible {op : FallibleOp} {x y : UntypedValue} {r : Except TrapCode UntypedValue}
    (h : op.eval x y = r) : Evaluates [.fallible op] [.i32 x, .i32 y] (r.map .i32) := by
  intro T m host p placed below cap calls store
  have found : m.codeSection[p]? = some (.fallible op) := placed.1
  have step : (⟨y :: x :: below, cap, calls, p, store⟩ : Executor T).step m host (.fallible op) =
      (⟨x :: below, cap, calls, p, store⟩ : Executor T).tryAdvance (r.map (· :: below)) := by
    rw [← h]
    rfl
  cases r with
  | ok v => exact vm_next found step .refl
  | error trap => exact ⟨_, vm_halt found step, rfl, rfl⟩

/-- The unary operators of the semantics, at 32 bits. -/
lemma IUnOp.code32_evaluates (op : IUnOp) (x : BitVec 32) :
    Evaluates op.code32 [.i32 x] (.ok (.i32 (op.eval x))) := by
  cases op with
  | extend32S =>
    rw [eval, BitVec.setWidth_eq, BitVec.signExtend_eq]
    exact evaluates_ok fun below => .refl
  | _ => exact evaluates_instr fun below => rfl

/-- The comparisons of the semantics, at 32 bits. -/
lemma IRelOp.code32_evaluates (op : IRelOp) (x y : BitVec 32) :
    Evaluates op.code32 [.i32 x, .i32 y] (.ok (.i32 (if op.eval x y then 1 else 0))) := by
  cases op
  all_goals exact evaluates_instr fun below => rfl

/-- The test for zero. -/
lemma test_evaluates (x : BitVec 32) : Evaluates [.i32Eqz] [.i32 x] (.ok (.i32 (if x = 0 then 1 else 0))) := by
  refine evaluates_instr fun below => ?_
  show some (ofBool (x == 0) :: below) = some ((if x = 0 then 1 else 0) :: below)
  simp only [ofBool, beq_iff_eq]

/-- The instruction of an operator has its value. -/
theorem IBinOp.code32_evaluates (op : IBinOp) (x y : BitVec 32) :
    Evaluates op.code32 [.i32 x, .i32 y] ((op.eval x y).map .i32) := by
  cases op with
  | divU =>
    refine @evaluates_fallible .i32DivU x y _ ?_
    rw [eval, ← BitVec.toNat_udiv, BitVec.ofNat_toNat, BitVec.setWidth_eq]
    rfl
  | remU =>
    refine @evaluates_fallible .i32RemU x y _ ?_
    rw [eval, ← BitVec.toNat_umod, BitVec.ofNat_toNat, BitVec.setWidth_eq]
    rfl
  | remS =>
    refine @evaluates_fallible .i32RemS x y _ ?_
    rw [eval, ← BitVec.toInt_srem, BitVec.ofInt_toInt]
    rfl
  | divS =>
    have value : BitVec.ofInt 32 (x.toInt.tdiv y.toInt) = x.sdiv y := by
      apply BitVec.eq_of_toInt_eq
      rw [BitVec.toInt_ofInt, BitVec.toInt_sdiv]
    have least : x = BitVec.intMin 32 ↔ x.toInt = -2 ^ (32 - 1) := by
      rw [← BitVec.toInt_inj]
      exact Iff.rfl
    have minus : y = -1 ↔ y.toInt = -1 := by
      rw [← BitVec.toInt_inj]
      exact Iff.rfl
    refine @evaluates_fallible .i32DivS x y _ ?_
    rw [eval, value, FallibleOp.eval]
    simp only [least, minus]
  | shl =>
    rw [eval, ← toNat_and_31]
    exact evaluates_instr fun below => rfl
  | shrS =>
    rw [eval, ← toNat_and_31]
    exact evaluates_instr fun below => rfl
  | shrU =>
    rw [eval, ← toNat_and_31]
    exact evaluates_instr fun below => rfl
  | rotl =>
    rw [eval, BitVec.rotateLeft_mod_eq_rotateLeft]
    exact evaluates_instr fun below => rfl
  | rotr =>
    rw [eval, BitVec.rotateRight_mod_eq_rotateRight]
    exact evaluates_instr fun below => rfl
  | _ => exact evaluates_instr fun below => rfl

/-! ## The numeric operators -/

section Numeric

/-- What an operator with a meaning is emitted as, in place or as a snippet. -/
def Meaning.emitted : Meaning → List Opcode
  | unary32 op => op.code32
  | unary64 op => op.code64
  | binary32 op => op.code32
  | binary64 op => op.code64
  | test32 => [.i32Eqz]
  | test64 => opI64Eqz
  | compare32 op => op.code32
  | compare64 op => op.code64
  | extendS => opI64ExtendI32S
  | extendU => opI64ExtendI32U
  | reinterpret _ _ => []

/-- The code of an operator has its value, or traps as it does. -/
theorem Meaning.emitted_evaluates {M : Meaning} {vs : List Value} {r : Except TrapCode Value}
    (h : M.eval vs = some r) : Evaluates M.emitted vs r := by
  unfold eval at h
  split at h
  all_goals cases h
  · exact IUnOp.code32_evaluates _ _
  · exact IUnOp.code64_evaluates _ _
  · exact IBinOp.code32_evaluates _ _ _
  · exact IBinOp.code64_evaluates _ _ _
  · exact test_evaluates _
  · exact eqz_evaluates _
  · exact IRelOp.code32_evaluates _ _ _
  · exact IRelOp.code64_evaluates _ _ _
  · exact Expands.evaluates (extendI32S_expands _)
  · exact Expands.evaluates (extendI32U_expands _)
  next v =>
    refine evaluates_ok fun below => ?_
    have same : pushValue v.reinterpret below = pushValue v below := by
      cases v <;> rfl
    rw [same]
    exact .refl

/-- What computes an operator: what is emitted in place of it, or the snippet it calls. -/
def NumericOperator.sequence (op : NumericOperator) : List Opcode :=
  match op.translation with
  | .unary emitted _ | .binary emitted _ | .unaryCompare emitted _ | .binaryCompare emitted _
  | .conversion _ _ emitted _ => emitted
  | .reinterpret _ _ => []
  | .snippet s => s.definition.emitter

/-- The translation of an operator is what its meaning is emitted as. -/
lemma NumericOperator.sequence_eq {op : NumericOperator} {M : Meaning} (meaning : op.meaning = some M) :
    op.sequence = M.emitted := by
  cases op <;> cases meaning <;> rfl

/-- Every numeric operator on integers has a result on operands of its types, and what computes it has this
result: its value, or its trap. So has what `i32.wrap_i64` is translated to. -/
theorem NumericOperator.sequence_evaluates {op : NumericOperator} {M : Meaning} {vs : List Value}
    (meaning : op.meaning = some M) (typed : vs.map Value.ty = M.params) :
    (∃ r, M.eval vs = some r ∧ Evaluates op.sequence vs r) ∧
      ∀ (cx : Context) (types : List ValType) (x : BitVec 64), ∃ ops,
        PlainOperator.emitted cx types .i32WrapI64 = .ok ops ∧
        Evaluates ops [.i64 x] (.ok (.i32 (x.setWidth 32))) := by
  refine ⟨?_, fun cx types x => ⟨_, rfl, wrap_evaluates x⟩⟩
  have sequence : op.sequence = M.emitted := sequence_eq meaning
  rcases NumericOperator.eval_typed meaning typed with ⟨v, eq, -⟩ | ⟨trap, eq⟩
  · exact ⟨.ok v, eq, sequence ▸ Meaning.emitted_evaluates eq⟩
  · exact ⟨.error trap, eq, sequence ▸ Meaning.emitted_evaluates eq⟩

/-- The signed division of 64-bit numbers traps where the quotient does not fit, and rounds towards zero. -/
theorem sequence_evaluates_divS :
    (∃ r, Meaning.eval (.binary64 .divS) [.i64 (-7), .i64 2] = some r ∧
      Evaluates NumericOperator.i64DivS.sequence [.i64 (-7), .i64 2] r) ∧
    ∃ r, Meaning.eval (.binary64 .divS) [.i64 (BitVec.intMin 64), .i64 (-1)] = some r ∧
      Evaluates NumericOperator.i64DivS.sequence [.i64 (BitVec.intMin 64), .i64 (-1)] r :=
  ⟨(NumericOperator.sequence_evaluates rfl rfl).1, (NumericOperator.sequence_evaluates rfl rfl).1⟩

end Numeric

end Rwasm
