import Rwasm.Compiler.MemoryAccess

/-!
# Wasm numerics

What the numeric operators on integers compute: the operators of one width are the same functions at 32
and at 64 bits. The floating-point operators have no meaning here, as the machine refuses them.
-/

namespace Rwasm

/-- The operators of one integer (`iunop`). -/
inductive IUnOp where
  | clz
  | ctz
  | popcnt
  | extend8S
  | extend16S
  | extend32S
  deriving DecidableEq, Repr

/-- The operators of two integers (`ibinop`). -/
inductive IBinOp where
  | add
  | sub
  | mul
  | divS
  | divU
  | remS
  | remU
  | and
  | or
  | xor
  | shl
  | shrS
  | shrU
  | rotl
  | rotr
  deriving DecidableEq, Repr

/-- The comparisons of two integers (`irelop`). -/
inductive IRelOp where
  | eq
  | ne
  | ltS
  | ltU
  | gtS
  | gtU
  | leS
  | leU
  | geS
  | geU
  deriving DecidableEq, Repr

/-- The value of an operator of one integer. -/
def IUnOp.eval {w : Nat} (op : IUnOp) (v : BitVec w) : BitVec w :=
  match op with
  | clz => v.clz
  | ctz => v.ctz
  | popcnt => v.cpop
  | extend8S => (v.setWidth 8).signExtend w
  | extend16S => (v.setWidth 16).signExtend w
  | extend32S => (v.setWidth 32).signExtend w

/-- The value of an operator of two integers. The divisions trap where the divisor is zero, and the signed
one where the quotient does not fit. -/
def IBinOp.eval {w : Nat} (op : IBinOp) (lhs rhs : BitVec w) : Except TrapCode (BitVec w) :=
  match op with
  | add => .ok (lhs + rhs)
  | sub => .ok (lhs - rhs)
  | mul => .ok (lhs * rhs)
  | divS =>
    if rhs = 0 then .error .integerDivisionByZero
    else if lhs.toInt = -2 ^ (w - 1) ∧ rhs.toInt = -1 then .error .integerOverflow
    else .ok (BitVec.ofInt w (lhs.toInt.tdiv rhs.toInt))
  | divU =>
    if rhs = 0 then .error .integerDivisionByZero
    else .ok (BitVec.ofNat w (lhs.toNat / rhs.toNat))
  | remS =>
    if rhs = 0 then .error .integerDivisionByZero
    else .ok (BitVec.ofInt w (lhs.toInt.tmod rhs.toInt))
  | remU =>
    if rhs = 0 then .error .integerDivisionByZero
    else .ok (BitVec.ofNat w (lhs.toNat % rhs.toNat))
  | and => .ok (lhs &&& rhs)
  | or => .ok (lhs ||| rhs)
  | xor => .ok (lhs ^^^ rhs)
  | shl => .ok (lhs <<< (rhs.toNat % w))
  | shrS => .ok (lhs.sshiftRight (rhs.toNat % w))
  | shrU => .ok (lhs >>> (rhs.toNat % w))
  | rotl => .ok (lhs.rotateLeft (rhs.toNat % w))
  | rotr => .ok (lhs.rotateRight (rhs.toNat % w))

/-- Whether a comparison holds; the signed ones compare the integers as signed numbers. -/
def IRelOp.eval {w : Nat} (op : IRelOp) (lhs rhs : BitVec w) : Bool :=
  match op with
  | eq => lhs == rhs
  | ne => lhs != rhs
  | ltS => decide (lhs.toInt < rhs.toInt)
  | ltU => decide (lhs.toNat < rhs.toNat)
  | gtS => decide (rhs.toInt < lhs.toInt)
  | gtU => decide (rhs.toNat < lhs.toNat)
  | leS => decide (lhs.toInt ≤ rhs.toInt)
  | leU => decide (lhs.toNat ≤ rhs.toNat)
  | geS => decide (rhs.toInt ≤ lhs.toInt)
  | geU => decide (rhs.toNat ≤ lhs.toNat)

/-- The meaning of a numeric operator. -/
inductive Meaning where
  | unary32 (op : IUnOp)
  | unary64 (op : IUnOp)
  | binary32 (op : IBinOp)
  | binary64 (op : IBinOp)
  | test32
  | test64
  | compare32 (op : IRelOp)
  | compare64 (op : IRelOp)
  | extendS
  | extendU
  | reinterpret (input output : ValType)

/-- The meaning of the numeric operators, but for those on floating-point numbers. -/
def NumericOperator.meaning : NumericOperator → Option Meaning
  | i32Eqz => some .test32
  | i32Eq => some (.compare32 .eq)
  | i32Ne => some (.compare32 .ne)
  | i32LtS => some (.compare32 .ltS)
  | i32LtU => some (.compare32 .ltU)
  | i32GtS => some (.compare32 .gtS)
  | i32GtU => some (.compare32 .gtU)
  | i32LeS => some (.compare32 .leS)
  | i32LeU => some (.compare32 .leU)
  | i32GeS => some (.compare32 .geS)
  | i32GeU => some (.compare32 .geU)
  | i64Eqz => some .test64
  | i64Eq => some (.compare64 .eq)
  | i64Ne => some (.compare64 .ne)
  | i64LtS => some (.compare64 .ltS)
  | i64LtU => some (.compare64 .ltU)
  | i64GtS => some (.compare64 .gtS)
  | i64GtU => some (.compare64 .gtU)
  | i64LeS => some (.compare64 .leS)
  | i64LeU => some (.compare64 .leU)
  | i64GeS => some (.compare64 .geS)
  | i64GeU => some (.compare64 .geU)
  | i32Clz => some (.unary32 .clz)
  | i32Ctz => some (.unary32 .ctz)
  | i32Popcnt => some (.unary32 .popcnt)
  | i32Add => some (.binary32 .add)
  | i32Sub => some (.binary32 .sub)
  | i32Mul => some (.binary32 .mul)
  | i32DivS => some (.binary32 .divS)
  | i32DivU => some (.binary32 .divU)
  | i32RemS => some (.binary32 .remS)
  | i32RemU => some (.binary32 .remU)
  | i32And => some (.binary32 .and)
  | i32Or => some (.binary32 .or)
  | i32Xor => some (.binary32 .xor)
  | i32Shl => some (.binary32 .shl)
  | i32ShrS => some (.binary32 .shrS)
  | i32ShrU => some (.binary32 .shrU)
  | i32Rotl => some (.binary32 .rotl)
  | i32Rotr => some (.binary32 .rotr)
  | i64Clz => some (.unary64 .clz)
  | i64Ctz => some (.unary64 .ctz)
  | i64Popcnt => some (.unary64 .popcnt)
  | i64Add => some (.binary64 .add)
  | i64Sub => some (.binary64 .sub)
  | i64Mul => some (.binary64 .mul)
  | i64DivS => some (.binary64 .divS)
  | i64DivU => some (.binary64 .divU)
  | i64RemS => some (.binary64 .remS)
  | i64RemU => some (.binary64 .remU)
  | i64And => some (.binary64 .and)
  | i64Or => some (.binary64 .or)
  | i64Xor => some (.binary64 .xor)
  | i64Shl => some (.binary64 .shl)
  | i64ShrS => some (.binary64 .shrS)
  | i64ShrU => some (.binary64 .shrU)
  | i64Rotl => some (.binary64 .rotl)
  | i64Rotr => some (.binary64 .rotr)
  | i64ExtendI32S => some .extendS
  | i64ExtendI32U => some .extendU
  | i32ReinterpretF32 => some (.reinterpret .f32 .i32)
  | i64ReinterpretF64 => some (.reinterpret .f64 .i64)
  | f32ReinterpretI32 => some (.reinterpret .i32 .f32)
  | f64ReinterpretI64 => some (.reinterpret .i64 .f64)
  | i32Extend8S => some (.unary32 .extend8S)
  | i32Extend16S => some (.unary32 .extend16S)
  | i64Extend8S => some (.unary64 .extend8S)
  | i64Extend16S => some (.unary64 .extend16S)
  | i64Extend32S => some (.unary64 .extend32S)
  | _ => none

/-- The value with the same bits of the other kind of number. -/
def Value.reinterpret : Value → Value
  | i32 bits => f32 bits
  | f32 bits => i32 bits
  | i64 bits => f64 bits
  | f64 bits => i64 bits
  | v => v

namespace Meaning

/-- The types of the operands, in order. -/
def params : Meaning → List ValType
  | unary32 _ | test32 | extendS | extendU => [.i32]
  | unary64 _ | test64 => [.i64]
  | binary32 _ | compare32 _ => [.i32, .i32]
  | binary64 _ | compare64 _ => [.i64, .i64]
  | reinterpret input _ => [input]

/-- The type of the result. -/
def result : Meaning → ValType
  | unary32 _ | binary32 _ | test32 | test64 | compare32 _ | compare64 _ => .i32
  | unary64 _ | binary64 _ | extendS | extendU => .i64
  | reinterpret _ output => output

/-- The result for the operands in order, or the trap. -/
def eval : Meaning → List Value → Option (Except TrapCode Value)
  | unary32 op, [.i32 v] => some (.ok (.i32 (op.eval v)))
  | unary64 op, [.i64 v] => some (.ok (.i64 (op.eval v)))
  | binary32 op, [.i32 lhs, .i32 rhs] => some ((op.eval lhs rhs).map .i32)
  | binary64 op, [.i64 lhs, .i64 rhs] => some ((op.eval lhs rhs).map .i64)
  | test32, [.i32 v] => some (.ok (.i32 (if v = 0 then 1 else 0)))
  | test64, [.i64 v] => some (.ok (.i32 (if v = 0 then 1 else 0)))
  | compare32 op, [.i32 lhs, .i32 rhs] => some (.ok (.i32 (if op.eval lhs rhs then 1 else 0)))
  | compare64 op, [.i64 lhs, .i64 rhs] => some (.ok (.i32 (if op.eval lhs rhs then 1 else 0)))
  | extendS, [.i32 v] => some (.ok (.i64 (v.signExtend 64)))
  | extendU, [.i32 v] => some (.ok (.i64 (v.setWidth 64)))
  | reinterpret _ _, [v] => some (.ok v.reinterpret)
  | _, _ => none

end Meaning

/-- The types of the operands of a numeric operator, in order, and of its result. -/
def NumericOperator.signature : NumericOperator → List ValType × ValType
  | i32Eqz => ([.i32], .i32)
  | i32Eq | i32Ne | i32LtS | i32LtU | i32GtS | i32GtU | i32LeS | i32LeU | i32GeS | i32GeU =>
    ([.i32, .i32], .i32)
  | i64Eqz => ([.i64], .i32)
  | i64Eq | i64Ne | i64LtS | i64LtU | i64GtS | i64GtU | i64LeS | i64LeU | i64GeS | i64GeU =>
    ([.i64, .i64], .i32)
  | f32Eq | f32Ne | f32Lt | f32Gt | f32Le | f32Ge => ([.f32, .f32], .i32)
  | f64Eq | f64Ne | f64Lt | f64Gt | f64Le | f64Ge => ([.f64, .f64], .i32)
  | i32Clz | i32Ctz | i32Popcnt | i32Extend8S | i32Extend16S => ([.i32], .i32)
  | i32Add | i32Sub | i32Mul | i32DivS | i32DivU | i32RemS | i32RemU | i32And | i32Or | i32Xor | i32Shl
  | i32ShrS | i32ShrU | i32Rotl | i32Rotr => ([.i32, .i32], .i32)
  | i64Clz | i64Ctz | i64Popcnt | i64Extend8S | i64Extend16S | i64Extend32S => ([.i64], .i64)
  | i64Add | i64Sub | i64Mul | i64DivS | i64DivU | i64RemS | i64RemU | i64And | i64Or | i64Xor | i64Shl
  | i64ShrS | i64ShrU | i64Rotl | i64Rotr => ([.i64, .i64], .i64)
  | f32Abs | f32Neg | f32Ceil | f32Floor | f32Trunc | f32Nearest | f32Sqrt => ([.f32], .f32)
  | f32Add | f32Sub | f32Mul | f32Div | f32Min | f32Max | f32Copysign => ([.f32, .f32], .f32)
  | f64Abs | f64Neg | f64Ceil | f64Floor | f64Trunc | f64Nearest | f64Sqrt => ([.f64], .f64)
  | f64Add | f64Sub | f64Mul | f64Div | f64Min | f64Max | f64Copysign => ([.f64, .f64], .f64)
  | i32TruncF32S | i32TruncF32U | i32TruncSatF32S | i32TruncSatF32U | i32ReinterpretF32 => ([.f32], .i32)
  | i32TruncF64S | i32TruncF64U | i32TruncSatF64S | i32TruncSatF64U => ([.f64], .i32)
  | i64ExtendI32S | i64ExtendI32U => ([.i32], .i64)
  | i64TruncF32S | i64TruncF32U | i64TruncSatF32S | i64TruncSatF32U => ([.f32], .i64)
  | i64TruncF64S | i64TruncF64U | i64TruncSatF64S | i64TruncSatF64U | i64ReinterpretF64 => ([.f64], .i64)
  | f32ConvertI32S | f32ConvertI32U | f32ReinterpretI32 => ([.i32], .f32)
  | f32ConvertI64S | f32ConvertI64U => ([.i64], .f32)
  | f32DemoteF64 => ([.f64], .f32)
  | f64ConvertI32S | f64ConvertI32U => ([.i32], .f64)
  | f64ConvertI64S | f64ConvertI64U | f64ReinterpretI64 => ([.i64], .f64)
  | f64PromoteF32 => ([.f32], .f64)

/-- The value a load makes of the number it reads. -/
def LoadOperator.value (op : LoadOperator) (n : Nat) : Value :=
  match op with
  | i32Load8S => .i32 ((BitVec.ofNat 8 n).signExtend 32)
  | i32Load16S => .i32 ((BitVec.ofNat 16 n).signExtend 32)
  | i32Load | i32Load8U | i32Load16U => .i32 (BitVec.ofNat 32 n)
  | f32Load => .f32 (BitVec.ofNat 32 n)
  | f64Load => .f64 (BitVec.ofNat 64 n)
  | op => .i64 (op.extend n)

/-- The bits of a value as a number. -/
def Value.bits : Value → Nat
  | i32 b | f32 b | funcRef b | externRef b => b.toNat
  | i64 b | f64 b => b.toNat

section Typing

variable {M : Meaning} {op : NumericOperator} {vs : List Value} {v : Value} {t : ValType}

/-! ## The types of values -/

/-- A value of this type is a word. -/
lemma Value.ty_i32 (h : v.ty = .i32) : ∃ b, v = .i32 b := by
  cases v <;> cases h
  exact ⟨_, rfl⟩

/-- A value of this type has two limbs. -/
lemma Value.ty_i64 (h : v.ty = .i64) : ∃ b, v = .i64 b := by
  cases v <;> cases h
  exact ⟨_, rfl⟩

/-- Lists of values that have the types of one or two operands. -/
lemma map_ty_singleton (h : vs.map Value.ty = [t]) : ∃ v, vs = [v] ∧ v.ty = t := by
  obtain ⟨v, rest, rfl, ht, hr⟩ := List.map_eq_cons_iff.mp h
  rw [List.map_eq_nil_iff.mp hr]
  exact ⟨v, rfl, ht⟩

/-- Values of two types are two values. -/
lemma map_ty_pair {u : ValType} (h : vs.map Value.ty = [t, u]) :
    ∃ v w, vs = [v, w] ∧ v.ty = t ∧ w.ty = u := by
  obtain ⟨v, rest, rfl, ht, hr⟩ := List.map_eq_cons_iff.mp h
  obtain ⟨w, rfl, hu⟩ := map_ty_singleton hr
  exact ⟨v, w, rfl, ht, hu⟩

/-- What is reinterpreted is a number of the other kind. -/
lemma NumericOperator.meaning_reinterpret {input output : ValType}
    (h : op.meaning = some (.reinterpret input output)) (ty : v.ty = input) :
    v.reinterpret.ty = output := by
  cases op <;> cases h
  all_goals
    cases v <;> cases ty
    rfl

/-- An operator has a result of its type on operands of its types, or traps. -/
theorem NumericOperator.eval_typed (meaning : op.meaning = some M) (typed : vs.map Value.ty = M.params) :
    (∃ v, M.eval vs = some (.ok v) ∧ v.ty = M.result) ∨ ∃ code, M.eval vs = some (.error code) := by
  cases M with
  | unary32 | test32 | extendS | extendU =>
    obtain ⟨v, rfl, ht⟩ := map_ty_singleton typed
    obtain ⟨b, rfl⟩ := Value.ty_i32 ht
    exact .inl ⟨_, rfl, rfl⟩
  | unary64 | test64 =>
    obtain ⟨v, rfl, ht⟩ := map_ty_singleton typed
    obtain ⟨b, rfl⟩ := Value.ty_i64 ht
    exact .inl ⟨_, rfl, rfl⟩
  | binary32 op =>
    obtain ⟨v, w, rfl, hv, hw⟩ := map_ty_pair typed
    obtain ⟨a, rfl⟩ := Value.ty_i32 hv
    obtain ⟨b, rfl⟩ := Value.ty_i32 hw
    rw [Meaning.eval]
    cases op.eval a b with
    | ok c => exact .inl ⟨_, rfl, rfl⟩
    | error code => exact .inr ⟨_, rfl⟩
  | binary64 op =>
    obtain ⟨v, w, rfl, hv, hw⟩ := map_ty_pair typed
    obtain ⟨a, rfl⟩ := Value.ty_i64 hv
    obtain ⟨b, rfl⟩ := Value.ty_i64 hw
    rw [Meaning.eval]
    cases op.eval a b with
    | ok c => exact .inl ⟨_, rfl, rfl⟩
    | error code => exact .inr ⟨_, rfl⟩
  | compare32 =>
    obtain ⟨v, w, rfl, hv, hw⟩ := map_ty_pair typed
    obtain ⟨a, rfl⟩ := Value.ty_i32 hv
    obtain ⟨b, rfl⟩ := Value.ty_i32 hw
    exact .inl ⟨_, rfl, rfl⟩
  | compare64 =>
    obtain ⟨v, w, rfl, hv, hw⟩ := map_ty_pair typed
    obtain ⟨a, rfl⟩ := Value.ty_i64 hv
    obtain ⟨b, rfl⟩ := Value.ty_i64 hw
    exact .inl ⟨_, rfl, rfl⟩
  | reinterpret input output =>
    obtain ⟨v, rfl, ht⟩ := map_ty_singleton typed
    exact .inl ⟨_, rfl, meaning_reinterpret meaning ht⟩

/-- An operator has the types of its meaning. -/
lemma NumericOperator.signature_eq (meaning : op.meaning = some M) : op.signature = (M.params, M.result) := by
  cases op <;> cases meaning <;> rfl

end Typing

end Rwasm
