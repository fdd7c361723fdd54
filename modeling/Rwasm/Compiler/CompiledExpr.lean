import Rwasm.Compiler.SegmentBuilder

/-!
# Compiled constant expressions

The constant expressions of a module are turned into trees and evaluated by the compiler
(`compiler/compiled_expr.rs`). Everything is computed on 64 bits: a 32-bit number is kept
sign-extended, a reference and the bits of a float in their lowest 32 bits. Of a well-typed
expression the evaluation gives the value Wasm does.
-/

namespace Rwasm

/-- A compiled expression (`Op`, `CompiledExpr`). -/
inductive CompiledExpr where
  | const (value : BitVec 64)
  | global (idx : Nat)
  | funcRef (func : Nat)
  | expr (f : BitVec 64 → BitVec 64 → BitVec 64) (lhs rhs : CompiledExpr)

/-- What an expression is evaluated with (`EvalContext`). -/
structure EvalContext where
  getGlobal : Nat → Option Value
  getFunc : Nat → Option UntypedValue

/-- `EmptyEvalContext`. -/
def EvalContext.empty : EvalContext where
  getGlobal _ := none
  getFunc _ := none

/-- `u32::try_from`. -/
def u32TryFrom (v : BitVec 64) : Option UntypedValue :=
  if v.toNat < 2 ^ 32 then some (v.setWidth 32) else none

/-- The value of a global (`GlobalVariable::value`). -/
def GlobalVariable.value (global : GlobalVariable) : Option Value :=
  match global.contentType with
  | .i32 => some (.i32 (global.defaultValue.setWidth 32))
  | .i64 => some (.i64 global.defaultValue)
  | .f32 => some (.f32 (global.defaultValue.setWidth 32))
  | .f64 => some (.f64 global.defaultValue)
  | .v128 => none
  | .funcRef => (u32TryFrom global.defaultValue).map .funcRef
  | .externRef => (u32TryFrom global.defaultValue).map .externRef

namespace CompiledExpr

/-- `Op::constant`. -/
def constant (v : Value) : CompiledExpr :=
  .const <|
    match v with
    | .i32 b | .f32 b => b.signExtend 64
    | .i64 b | .f64 b => b
    | .funcRef b | .externRef b => b.setWidth 64

/-- `GlobalOp::eval`. -/
def globalBits : Value → BitVec 64
  | .i32 b => b.signExtend 64
  | .i64 b => b
  | .f32 b => b.setWidth 64
  | .f64 b => b
  | .funcRef b | .externRef b => b.signExtend 64

/-- `Op::eval`. -/
def eval (cx : EvalContext) : CompiledExpr → Option (BitVec 64)
  | const value => some value
  | global idx => (cx.getGlobal idx).map globalBits
  | funcRef func => (cx.getFunc func).map (·.setWidth 64)
  | expr f lhs rhs => do
    let l ← lhs.eval cx
    let r ← rhs.eval cx
    return f l r

/-- `eval_const`. -/
def evalConst (e : CompiledExpr) : Option (BitVec 64) :=
  e.eval .empty

/-- `funcref`. -/
def funcref : CompiledExpr → Option Nat
  | funcRef func => some func
  | _ => none

end CompiledExpr

/-- What an operator that pushes a value is compiled to. -/
def ConstAtom.compiled : ConstAtom → Compile CompiledExpr
  | i32Const v => return .constant (.i32 v)
  | i64Const v => return .constant (.i64 v)
  | f32Const v => return .constant (.f32 v)
  | f64Const v => return .constant (.f64 v)
  | globalGet idx => return .global idx
  | refNull .funcRef => return .constant (.funcRef 0)
  | refNull .externRef => return .constant (.externRef 0)
  | refNull _ => .panic
  | refFunc func => return .funcRef func

/-- The function an operator that combines two values is compiled to. -/
def ConstBinary.compiled : ConstBinary → BitVec 64 → BitVec 64 → BitVec 64
  | i32Add, lhs, rhs => (lhs.setWidth 32 + rhs.setWidth 32).signExtend 64
  | i32Sub, lhs, rhs => (lhs.setWidth 32 - rhs.setWidth 32).signExtend 64
  | i32Mul, lhs, rhs => (lhs.setWidth 32 * rhs.setWidth 32).signExtend 64
  | i64Add, lhs, rhs => lhs + rhs
  | i64Sub, lhs, rhs => lhs - rhs
  | i64Mul, lhs, rhs => lhs * rhs

namespace CompiledExpr

/-- The stack of compiled operands after the given operators. -/
def build : List ConstOperator → List CompiledExpr → Compile (List CompiledExpr)
  | [], stack => return stack
  | .atom op :: ops, stack => do
    let e ← op.compiled
    build ops (e :: stack)
  | .binary op :: ops, stack =>
    match stack with
    | rhs :: lhs :: stack => build ops (.expr op.compiled lhs rhs :: stack)
    | _ => .panic

/-- `CompiledExpr::new`. -/
def new (ops : List ConstOperator) : Compile CompiledExpr := do
  match ← build ops [] with
  | [e] => return e
  | _ => .panic

/-- What a structured expression is compiled to. -/
def ofExpr : ConstExpr → Compile CompiledExpr
  | .atom op => op.compiled
  | .binary op lhs rhs => do
    let lhs ← ofExpr lhs
    let rhs ← ofExpr rhs
    return .expr op.compiled lhs rhs

/-- The operators of an expression leave its compiled form on the stack. -/
lemma build_operators (e : ConstExpr) (ops : List ConstOperator) (stack : List CompiledExpr) :
    build (e.operators ++ ops) stack = ofExpr e >>= fun c => build ops (c :: stack) := by
  induction e generalizing ops stack with
  | atom op => rfl
  | binary op lhs rhs ihl ihr =>
    rw [ConstExpr.operators, List.append_assoc, List.append_assoc, ihl, ofExpr, bind_assoc]
    congr 1
    funext l
    rw [ihr, bind_assoc]
    rfl

/-- Reading back the operators of a constant expression gives what it compiles to. -/
lemma new_operators (e : ConstExpr) : new e.operators = ofExpr e := by
  have built := build_operators e [] []
  rw [List.append_nil] at built
  rw [new, built]
  cases ofExpr e <;> rfl

end CompiledExpr

/-- The 64 bits that stand for a value. -/
def Value.Encodes : Value → BitVec 64 → Prop
  | .i32 b, x => x = b.signExtend 64
  | .i64 b, x | .f64 b, x => x = b
  | .f32 b, x | .funcRef b, x | .externRef b, x => x.setWidth 32 = b

/-- A global holds a value: it has its type, and its bits. -/
def GlobalVariable.Holds (global : GlobalVariable) (v : Value) : Prop :=
  global.contentType = v.ty ∧
    match v with
    | .i64 b | .f64 b => global.defaultValue = b
    | .i32 b | .f32 b | .funcRef b | .externRef b => global.defaultValue.setWidth 32 = b

/-- Sign extension keeps the lowest bits. -/
@[simp] lemma setWidth_signExtend (b : BitVec 32) : (b.signExtend 64).setWidth 32 = b := by
  apply BitVec.eq_of_getElem_eq
  intro i hi
  rw [BitVec.getElem_setWidth, BitVec.getLsbD_signExtend, if_pos hi, decide_eq_true (by omega),
    Bool.true_and, BitVec.getLsbD_eq_getElem hi]

/-- A global of the right type that was given the bits of a value holds it. -/
lemma Value.Encodes.holds {v : Value} {x : BitVec 64} {type : GlobalType} (h : v.Encodes x)
    (ty : type.contentType = v.ty) : GlobalVariable.Holds ⟨type, x⟩ v := by
  refine ⟨ty, ?_⟩
  cases v with
  | i32 b =>
    rw [show x = b.signExtend 64 from h]
    exact setWidth_signExtend b
  | _ => exact h

/-- The value of a global is the one it holds. -/
lemma GlobalVariable.Holds.value {global : GlobalVariable} {v v' : Value} (h : global.Holds v)
    (hv : global.value = some v') : v' = v := by
  obtain ⟨ty, bits⟩ := h
  unfold GlobalVariable.value at hv
  cases v <;> simp only [ty, Value.ty, u32TryFrom] at hv bits
  case funcRef | externRef =>
    split at hv <;> cases hv
    rw [bits]
  all_goals
    cases hv
    rw [bits]

/-- A context in which the globals have the given values, and function `f` is `f + 1`. -/
structure EvalContext.Agrees (cx : EvalContext) (vals : List Value) : Prop where
  globals : ∀ i v, cx.getGlobal i = some v → vals[i]? = some v
  funcs : ∀ f r, cx.getFunc f = some r → r = BitVec.ofNat 32 (f + 1)

namespace CompiledExpr

variable {cx : EvalContext} {vals : List Value} {t : ValType}

/-- The bits of a global encode its value. -/
lemma encodes_globalBits (v : Value) : v.Encodes (globalBits v) := by
  cases v <;> simp [Value.Encodes, globalBits]

/-- An operator that pushes a value is compiled to an expression that encodes it. -/
lemma eval_atom {op : ConstAtom} {c : CompiledExpr} {x : BitVec 64} (agrees : cx.Agrees vals)
    (compiled : op.compiled = .ok c) (h : c.eval cx = some x) :
    ∃ v, op.value vals = some v ∧ v.Encodes x := by
  cases op with
  | globalGet idx =>
    cases compiled
    obtain ⟨v, hv, rfl⟩ := Option.map_eq_some_iff.mp h
    exact ⟨v, agrees.globals idx v hv, encodes_globalBits v⟩
  | refFunc func =>
    cases compiled
    obtain ⟨r, hr, rfl⟩ := Option.map_eq_some_iff.mp h
    refine ⟨_, rfl, ?_⟩
    simp [Value.Encodes, agrees.funcs func r hr]
  | refNull type =>
    cases type <;> cases compiled <;> cases h <;> exact ⟨_, rfl, rfl⟩
  | _ =>
    cases compiled
    cases h
    exact ⟨_, rfl, by simp [Value.Encodes]⟩

/-- An operator on encoded values gives the encoded result. -/
lemma encodes_binary {op : ConstBinary} {v w u : Value} {x y : BitVec 64}
    (hv : v.Encodes x) (hw : w.Encodes y) (hu : op.value v w = some u) :
    u.Encodes (op.compiled x y) := by
  cases op <;> cases v <;> cases w <;> cases hu <;> cases hv <;> cases hw <;>
    simp [Value.Encodes, ConstBinary.compiled]

/-- The evaluation of a well-typed constant expression encodes its value. -/
theorem eval_encodes {e : ConstExpr} {c : CompiledExpr} {x : BitVec 64} (agrees : cx.Agrees vals)
    (typed : e.type? (vals.map Value.ty) = some t) (compiled : ofExpr e = .ok c)
    (h : c.eval cx = some x) : ∃ v, e.value vals = some v ∧ v.ty = t ∧ v.Encodes x := by
  obtain ⟨v, hv, ty⟩ := ConstExpr.exists_value typed
  refine ⟨v, hv, ty, ?_⟩
  clear typed ty
  induction e generalizing c x v with
  | atom op =>
    obtain ⟨v', hv', enc⟩ := eval_atom agrees compiled h
    cases hv.symm.trans hv'
    exact enc
  | binary op lhs rhs ihl ihr =>
    simp only [ofExpr, Compile.bind_ok] at compiled
    obtain ⟨l, hl, r, hr, compiled⟩ := compiled
    cases compiled
    simp only [ConstExpr.value, Option.bind_eq_bind, Option.bind_eq_some_iff] at hv
    obtain ⟨vl, hvl, vr, hvr, hv⟩ := hv
    simp only [eval, Option.bind_eq_bind, Option.bind_eq_some_iff] at h
    obtain ⟨xl, hxl, xr, hxr, h⟩ := h
    cases h
    exact encodes_binary (ihl hl hxl vl hvl) (ihr hr hxr vr hvr) hv

/-- The only constant reference that is no function is the null reference. -/
lemma evalConst_reference {e : ConstExpr} {c : CompiledExpr} {x : BitVec 64}
    (typed : e.type? (vals.map Value.ty) = some .funcRef ∨
      e.type? (vals.map Value.ty) = some .externRef)
    (compiled : ofExpr e = .ok c) (h : c.evalConst = some x) : x = 0 ∧ ∃ type, e = .atom (.refNull type) := by
  cases e with
  | binary op lhs rhs =>
    simp only [ConstExpr.type?] at typed
    split at typed <;> cases op <;> simp [ConstBinary.operandType] at typed
  | atom op =>
    cases op with
    | refNull type =>
      refine ⟨?_, type, rfl⟩
      cases type <;> cases compiled <;> cases h <;> rfl
    | globalGet | refFunc =>
      cases compiled
      cases h
    | _ => simp [ConstExpr.type?, ConstAtom.type?] at typed

end CompiledExpr

end Rwasm
