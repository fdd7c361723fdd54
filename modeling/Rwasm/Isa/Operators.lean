import Rwasm.Isa.StackMachine
import Rwasm.Isa.Limbs
import Rwasm.Isa.Arithmetic
import Rwasm.Isa.Bitwise

/-!
# The operators without loops

The 64-bit operators that neither divide nor shift, with the values they have and the sequences they
are emitted as.
-/

namespace Rwasm

open UntypedValue InstructionSet

/-- Wherever the code stands in a module, it replaces the operands on top of the stack by the result and
goes on behind itself. -/
def Expands (code : List Opcode) (operands : List Value) (result : Value) : Prop :=
  ∀ {T : Type} (m : RwasmModule) (host : Host T) (p : Nat), CodeAt m.codeSection p code →
    ∀ below cap calls (store : Store T),
      (vm m host).Steps ⟨pushValues operands below, cap, calls, p, store⟩
        ⟨pushValue result below, cap, calls, p + code.length, store⟩

/-- A run of the stack machine is an expansion. -/
lemma expands_of_stackMachine {code : List Opcode} {operands : List Value} {result : Value}
    (steps : ∀ below, (stackMachine code).Steps ⟨0, pushValues operands below⟩
      ⟨code.length, pushValue result below⟩) :
    Expands code operands result :=
  fun _ _ _ at' below _ _ _ => vm_steps_onStack at' (steps below)

/-- The operators of two numbers. -/
inductive I64BinaryOp where
  | add
  | sub
  | mul
  | and
  | or
  | xor
  deriving DecidableEq, Repr

/-- The value of an operator of two numbers. -/
def I64BinaryOp.eval (op : I64BinaryOp) (lhs rhs : BitVec 64) : BitVec 64 :=
  match op with
  | .add => lhs + rhs
  | .sub => lhs - rhs
  | .mul => lhs * rhs
  | .and => lhs &&& rhs
  | .or => lhs ||| rhs
  | .xor => lhs ^^^ rhs

/-- What an operator of two numbers is emitted as. -/
def I64BinaryOp.code : I64BinaryOp → List Opcode
  | .add => opI64Add
  | .sub => opI64Sub
  | .mul => opI64Mul
  | .and => opI64And
  | .or => opI64Or
  | .xor => opI64Xor

/-- The comparisons of two numbers. -/
inductive I64CompareOp where
  | eq
  | ne
  | ltS
  | ltU
  | gtS
  | gtU
  | leS
  | leU
  | geS
  | geU
  deriving DecidableEq, Repr

/-- Whether a comparison holds; the signed ones compare the numbers as integers. -/
def I64CompareOp.eval (op : I64CompareOp) (lhs rhs : BitVec 64) : Bool :=
  match op with
  | .eq => lhs == rhs
  | .ne => lhs != rhs
  | .ltS => decide (lhs.toInt < rhs.toInt)
  | .ltU => decide (lhs.toNat < rhs.toNat)
  | .gtS => decide (rhs.toInt < lhs.toInt)
  | .gtU => decide (rhs.toNat < lhs.toNat)
  | .leS => decide (lhs.toInt ≤ rhs.toInt)
  | .leU => decide (lhs.toNat ≤ rhs.toNat)
  | .geS => decide (rhs.toInt ≤ lhs.toInt)
  | .geU => decide (rhs.toNat ≤ lhs.toNat)

/-- What a comparison is emitted as. -/
def I64CompareOp.code : I64CompareOp → List Opcode
  | .eq => opI64Eq
  | .ne => opI64Ne
  | .ltS => opI64LtS
  | .ltU => opI64LtU
  | .gtS => opI64GtS
  | .gtU => opI64GtU
  | .leS => opI64LeS
  | .leU => opI64LeU
  | .geS => opI64GeS
  | .geU => opI64GeU

/-- The operators of one number. -/
inductive I64UnaryOp where
  | clz
  | ctz
  | popcnt
  | extend8S
  | extend16S
  | extend32S
  deriving DecidableEq, Repr

/-- The value of an operator of one number. -/
def I64UnaryOp.eval (op : I64UnaryOp) (v : BitVec 64) : BitVec 64 :=
  match op with
  | .clz => v.clz
  | .ctz => v.ctz
  | .popcnt => v.cpop
  | .extend8S => (v.setWidth 8).signExtend 64
  | .extend16S => (v.setWidth 16).signExtend 64
  | .extend32S => (v.setWidth 32).signExtend 64

/-- What an operator of one number is emitted as. -/
def I64UnaryOp.code : I64UnaryOp → List Opcode
  | .clz => opI64Clz
  | .ctz => opI64Ctz
  | .popcnt => opI64Popcnt
  | .extend8S => opI64Extend8S
  | .extend16S => opI64Extend16S
  | .extend32S => opI64Extend32S

/-- The operators without traps and shifts, with their operands. -/
inductive I64Operation where
  | binary (op : I64BinaryOp) (lhs rhs : BitVec 64)
  | compare (op : I64CompareOp) (lhs rhs : BitVec 64)
  | unary (op : I64UnaryOp) (v : BitVec 64)
  | eqz (v : BitVec 64)
  | extendI32S (v : BitVec 32)
  | extendI32U (v : BitVec 32)
  | wrap (v : BitVec 64)
  deriving DecidableEq, Repr

namespace I64Operation

/-- The operands, the last one on top of the stack. -/
def operands : I64Operation → List Value
  | binary _ lhs rhs | compare _ lhs rhs => [.i64 lhs, .i64 rhs]
  | unary _ v | eqz v | wrap v => [.i64 v]
  | extendI32S v | extendI32U v => [.i32 v]

/-- The value of the operator on its operands. -/
def result : I64Operation → Value
  | binary op lhs rhs => .i64 (op.eval lhs rhs)
  | compare op lhs rhs => .i32 (if op.eval lhs rhs then 1 else 0)
  | unary op v => .i64 (op.eval v)
  | eqz v => .i32 (if v = 0 then 1 else 0)
  | extendI32S v => .i64 (v.signExtend 64)
  | extendI32U v => .i64 (v.setWidth 64)
  | wrap v => .i32 (v.setWidth 32)

/-- What the operator is emitted as. -/
def code : I64Operation → List Opcode
  | binary op _ _ => op.code
  | compare op _ _ => op.code
  | unary op _ => op.code
  | eqz _ => opI64Eqz
  | extendI32S _ => opI64ExtendI32S
  | extendI32U _ => opI64ExtendI32U
  | wrap _ => opI32WrapI64

end I64Operation

section Steps

variable {below : List UntypedValue} {lo hi lo' hi' : UntypedValue}

/-- A value is pushed with its high limb on top. -/
lemma pushValue_joinLimbs (lo hi : UntypedValue) (below : List UntypedValue) :
    pushValue (.i64 (joinLimbs lo hi)) below = hi :: lo :: below := by
  simp [pushValue]

/-- The runs of the operators of two numbers. -/
lemma binary_steps (op : I64BinaryOp) :
    (stackMachine op.code).Steps ⟨0, hi' :: lo' :: hi :: lo :: below⟩
      ⟨op.code.length, pushValue (.i64 (op.eval (joinLimbs lo hi) (joinLimbs lo' hi'))) below⟩ := by
  obtain ⟨and, or, xor⟩ := joinLimbs_bitwise lo' hi' lo hi
  cases op with
  | add =>
    rw [I64BinaryOp.eval, ← joinLimbs_add, pushValue_joinLimbs]
    exact straight 11 rfl
  | sub =>
    rw [I64BinaryOp.eval, ← joinLimbs_sub, pushValue_joinLimbs]
    exact straight 16 rfl
  | mul =>
    rw [I64BinaryOp.eval, ← joinLimbs_mul, pushValue_joinLimbs]
    exact straight 15 rfl
  | and =>
    rw [I64BinaryOp.eval, BitVec.and_comm, and, pushValue_joinLimbs]
    exact straight 6 rfl
  | or =>
    rw [I64BinaryOp.eval, BitVec.or_comm, or, pushValue_joinLimbs]
    exact straight 6 rfl
  | xor =>
    rw [I64BinaryOp.eval, BitVec.xor_comm, xor, pushValue_joinLimbs]
    exact straight 6 rfl

/-- An equality of numbers is one of both limbs. -/
lemma beq_joinLimbs (lo hi lo' hi' : UntypedValue) :
    (joinLimbs lo hi == joinLimbs lo' hi') = (lo' == lo && hi' == hi) := by
  rw [Bool.eq_iff_iff, Bool.and_eq_true, beq_iff_eq, beq_iff_eq, beq_iff_eq, joinLimbs_inj,
    eq_comm, @eq_comm _ hi]

/-- What the comparisons of the order are emitted as: one of the high limbs, and one of the low limbs
where these agree. -/
def orderCode (high low : BinaryOp) : List Opcode :=
  [.localGet 3, .localGet 2, .i32Eq, .brIfNez 5, .localGet 3, .localGet 2, .binary high, .br 4,
    .localGet 4, .localGet 3, .binary low, .localSet 4, .drop, .drop, .drop]

/-- A comparison goes by the high limbs first. -/
lemma order_steps (high low : BinaryOp) {b bl bh : Bool} (hl : low.eval lo lo' = ofBool bl)
    (hh : high.eval hi hi' = ofBool bh) (value : b = if hi = hi' then bl else bh) :
    (stackMachine (orderCode high low)).Steps ⟨0, hi' :: lo' :: hi :: lo :: below⟩
      ⟨15, ofBool b :: below⟩ := by
  have test : (stackMachine (orderCode high low)).Steps ⟨0, hi' :: lo' :: hi :: lo :: below⟩
      ⟨3, ofBool (hi == hi') :: hi' :: lo' :: hi :: lo :: below⟩ := straight 3 rfl
  rw [value]
  split
  next eq =>
    rw [beq_iff_eq.mpr eq] at test
    rw [← hl]
    exact test.trans ((brIfNez_taken rfl rfl rfl).trans (straight 7 rfl))
  next ne =>
    rw [beq_eq_false_iff_ne.mpr ne] at test
    rw [← hh]
    exact test.trans ((brIfNez_passed rfl rfl).trans (straight 8 rfl))

/-- Both of two truth values. -/
lemma ofBool_and (a b : Bool) : ofBool a &&& ofBool b = ofBool (a && b) := by
  cases a <;> cases b <;> rfl

/-- One of two truth values. -/
lemma ofBool_or (a b : Bool) : ofBool a ||| ofBool b = ofBool (a || b) := by
  cases a <;> cases b <;> rfl

/-- The order of values by their limbs. -/
lemma ule_joinLimbs (lo hi lo' hi' : UntypedValue) :
    (joinLimbs lo hi).ule (joinLimbs lo' hi') = if hi = hi' then lo.ule lo' else hi.ule hi' := by
  rw [BitVec.ule_eq_not_ult, ult_joinLimbs, BitVec.ule_eq_not_ult, BitVec.ule_eq_not_ult, apply_ite not]
  exact if_congr eq_comm rfl rfl

/-- The signed order of values by their limbs. -/
lemma sle_joinLimbs (lo hi lo' hi' : UntypedValue) :
    (joinLimbs lo hi).sle (joinLimbs lo' hi') = if hi = hi' then lo.ule lo' else hi.sle hi' := by
  rw [BitVec.sle_eq_not_slt, slt_joinLimbs, BitVec.ule_eq_not_ult, BitVec.sle_eq_not_slt,
    apply_ite not]
  exact if_congr eq_comm rfl rfl

/-- The runs of the comparisons. -/
lemma compare_steps (op : I64CompareOp) :
    (stackMachine op.code).Steps ⟨0, hi' :: lo' :: hi :: lo :: below⟩
      ⟨op.code.length, ofBool (op.eval (joinLimbs lo hi) (joinLimbs lo' hi')) :: below⟩ := by
  cases op with
  | eq =>
    rw [I64CompareOp.eval, beq_joinLimbs, ← ofBool_and]
    exact straight 7 rfl
  | ne =>
    rw [I64CompareOp.eval, bne, beq_joinLimbs, Bool.not_and, ← ofBool_or]
    exact straight 7 rfl
  | ltS => exact order_steps .i32LtS .i32LtU rfl rfl (slt_joinLimbs lo hi lo' hi')
  | ltU => exact order_steps .i32LtU .i32LtU rfl rfl (ult_joinLimbs lo hi lo' hi')
  | gtS =>
    exact order_steps .i32GtS .i32GtU rfl rfl
      ((slt_joinLimbs lo' hi' lo hi).trans (if_congr eq_comm rfl rfl))
  | gtU =>
    exact order_steps .i32GtU .i32GtU rfl rfl
      ((ult_joinLimbs lo' hi' lo hi).trans (if_congr eq_comm rfl rfl))
  | leS => exact order_steps .i32LeS .i32LeU rfl rfl (sle_joinLimbs lo hi lo' hi')
  | leU => exact order_steps .i32LeU .i32LeU rfl rfl (ule_joinLimbs lo hi lo' hi')
  | geS =>
    exact order_steps .i32GeS .i32GeU rfl rfl
      ((sle_joinLimbs lo' hi' lo hi).trans (if_congr eq_comm rfl rfl))
  | geU =>
    exact order_steps .i32GeU .i32GeU rfl rfl
      ((ule_joinLimbs lo' hi' lo hi).trans (if_congr eq_comm rfl rfl))

/-- The runs of the operators of one number. -/
lemma unary_steps (op : I64UnaryOp) :
    (stackMachine op.code).Steps ⟨0, hi :: lo :: below⟩
      ⟨op.code.length, pushValue (.i64 (op.eval (joinLimbs lo hi))) below⟩ := by
  cases op with
  | clz =>
    have test : (stackMachine opI64Clz).Steps ⟨0, hi :: lo :: below⟩
        ⟨4, ofBool (hi.clz == 32) :: hi.clz :: lo :: below⟩ := straight 4 rfl
    rw [I64UnaryOp.eval, clz_joinLimbs, pushValue_joinLimbs]
    split
    next all =>
      rw [all] at test
      exact test.trans ((brIfEqz_passed rfl rfl).trans (straight 5 rfl))
    next some =>
      rw [beq_eq_false_iff_ne.mpr some] at test
      exact test.trans ((brIfEqz_taken rfl rfl rfl).trans (straight 2 rfl))
  | ctz =>
    have test : (stackMachine opI64Ctz).Steps ⟨0, hi :: lo :: below⟩
        ⟨5, ofBool (lo.ctz == 32) :: lo.ctz :: hi :: lo :: below⟩ := straight 5 rfl
    rw [I64UnaryOp.eval, ctz_joinLimbs, pushValue_joinLimbs]
    split
    next all =>
      rw [all] at test
      exact test.trans ((brIfEqz_passed rfl rfl).trans (straight 5 rfl))
    next some =>
      rw [beq_eq_false_iff_ne.mpr some] at test
      exact test.trans ((brIfEqz_taken rfl rfl rfl).trans (straight 3 rfl))
  | popcnt =>
    rw [I64UnaryOp.eval, cpop_joinLimbs, pushValue_joinLimbs]
    exact straight 6 rfl
  | extend8S =>
    rw [I64UnaryOp.eval, ← @joinLimbs_signExtend_setWidth lo hi 8 (by omega) (by omega),
      pushValue_joinLimbs]
    exact straight 5 rfl
  | extend16S =>
    rw [I64UnaryOp.eval, ← @joinLimbs_signExtend_setWidth lo hi 16 (by omega) (by omega),
      pushValue_joinLimbs]
    exact straight 5 rfl
  | extend32S =>
    rw [I64UnaryOp.eval, ← @joinLimbs_signExtend_setWidth lo hi 32 (by omega) (by omega),
      pushValue_joinLimbs, BitVec.setWidth_eq, BitVec.signExtend_eq]
    exact straight 4 rfl

end Steps

/-- The run of the signed extension of a limb. -/
lemma extendI32S_expands (v : UntypedValue) :
    Expands opI64ExtendI32S [.i32 v] (.i64 (v.signExtend 64)) := by
  apply expands_of_stackMachine
  intro below
  rw [← joinLimbs_signExtend, pushValue_joinLimbs]
  exact straight 3 rfl

/-- The run of the unsigned extension of a limb. -/
lemma extendI32U_expands (v : UntypedValue) :
    Expands opI64ExtendI32U [.i32 v] (.i64 (v.setWidth 64)) := by
  have value : v.setWidth 64 = joinLimbs v 0 := by
    apply BitVec.eq_of_toNat_eq
    rw [toNat_joinLimbs, toNat_setWidth_64]
    exact (Nat.zero_add _).symm
  apply expands_of_stackMachine
  intro below
  rw [value, pushValue_joinLimbs]
  exact straight 1 rfl

/-- The operators that neither divide nor shift replace their operands by their value. -/
theorem i64Operation_expands (o : I64Operation) : Expands o.code o.operands o.result := by
  cases o with
  | binary op lhs rhs =>
    obtain ⟨lo, hi, rfl⟩ := exists_limbs lhs
    obtain ⟨lo', hi', rfl⟩ := exists_limbs rhs
    apply expands_of_stackMachine
    intro below
    show (stackMachine op.code).Steps
      ⟨0, pushValue (.i64 (joinLimbs lo' hi')) (pushValue (.i64 (joinLimbs lo hi)) below)⟩ _
    rw [pushValue_joinLimbs, pushValue_joinLimbs]
    exact binary_steps op
  | compare op lhs rhs =>
    obtain ⟨lo, hi, rfl⟩ := exists_limbs lhs
    obtain ⟨lo', hi', rfl⟩ := exists_limbs rhs
    apply expands_of_stackMachine
    intro below
    show (stackMachine op.code).Steps
      ⟨0, pushValue (.i64 (joinLimbs lo' hi')) (pushValue (.i64 (joinLimbs lo hi)) below)⟩ _
    rw [pushValue_joinLimbs, pushValue_joinLimbs]
    exact compare_steps op
  | unary op v =>
    obtain ⟨lo, hi, rfl⟩ := exists_limbs v
    apply expands_of_stackMachine
    intro below
    show (stackMachine op.code).Steps ⟨0, pushValue (.i64 (joinLimbs lo hi)) below⟩ _
    rw [pushValue_joinLimbs]
    exact unary_steps op
  | eqz v =>
    obtain ⟨lo, hi, rfl⟩ := exists_limbs v
    have value : (if joinLimbs lo hi = 0 then 1 else 0) = ofBool (lo == 0) &&& ofBool (hi == 0) := by
      rw [ofBool_and, ofBool]
      refine if_congr ?_ rfl rfl
      rw [joinLimbs_eq_zero_iff, Bool.and_eq_true, beq_iff_eq, beq_iff_eq]
    apply expands_of_stackMachine
    intro below
    show (stackMachine opI64Eqz).Steps ⟨0, pushValue (.i64 (joinLimbs lo hi)) below⟩
      ⟨5, (if joinLimbs lo hi = 0 then 1 else 0) :: below⟩
    rw [pushValue_joinLimbs, value]
    exact straight 5 rfl
  | extendI32S v => exact extendI32S_expands v
  | extendI32U v => exact extendI32U_expands v
  | wrap v =>
    obtain ⟨lo, hi, rfl⟩ := exists_limbs v
    have value : (joinLimbs lo hi).setWidth 32 = lo :=
      congrArg Prod.fst (split_joinLimbs lo hi)
    apply expands_of_stackMachine
    intro below
    show (stackMachine opI32WrapI64).Steps ⟨0, pushValue (.i64 (joinLimbs lo hi)) below⟩
      ⟨1, (joinLimbs lo hi).setWidth 32 :: below⟩
    rw [pushValue_joinLimbs, value]
    exact straight 1 rfl

end Rwasm
