import Rwasm.Compiler.Parser

/-!
# Evaluating constant expressions

The evaluation of the compiler (`eval_const`) is total on valid expressions, and its result stands for
the value Wasm gives: a number of 32 bits is sign-extended to 64, and a reference is `0` for null and
`f + 1` for function `f`. A global that is initialized with the result can be read by the expressions
behind it.
-/

namespace Rwasm

/-- A value in a module with so many functions: a reference is null or one of its functions. -/
def Value.InModule (funcs : Nat) : Value → Prop
  | .funcRef b | .externRef b => b.toNat ≤ funcs
  | _ => True

/-- The functions that an operator refers to are in the module. -/
def ConstAtom.InModule (funcs : Nat) : ConstAtom → Prop
  | refFunc func => func < funcs
  | _ => True

/-- So are those that an expression refers to. -/
def ConstExpr.InModule (funcs : Nat) : ConstExpr → Prop
  | atom op => op.InModule funcs
  | binary _ lhs rhs => lhs.InModule funcs ∧ rhs.InModule funcs

/-- The 64 bits the compiler computes for a value, of which those of a 32-bit float are only the lowest
ones. -/
def Value.Represents : Value → BitVec 64 → Prop
  | .i32 b, x => x = b.signExtend 64
  | .i64 b, x | .f64 b, x => x = b
  | .f32 b, x => x.setWidth 32 = b
  | .funcRef b, x | .externRef b, x => x = b.setWidth 64

/-- A global of the compiler holds a value, all bits of which it gives back. -/
def GlobalVariable.Stores (global : GlobalVariable) (v : Value) : Prop :=
  global.contentType = v.ty ∧
    match v with
    | .i64 b | .f64 b => global.defaultValue = b
    | .i32 b | .f32 b => global.defaultValue.setWidth 32 = b
    | .funcRef b | .externRef b => global.defaultValue = b.setWidth 64

/-- The number of a reference survives the conversions of the compiler. -/
lemma u32TryFrom_setWidth (b : BitVec 32) : u32TryFrom (b.setWidth 64) = some b := by
  have lt : (b.setWidth 64).toNat < 2 ^ 32 := by
    rw [BitVec.toNat_setWidth]
    exact Nat.lt_of_le_of_lt (Nat.mod_le _ _) b.isLt
  rw [u32TryFrom, if_pos lt]
  simp

/-- It is not negative as a signed number. -/
lemma signExtend_reference {b : BitVec 32} (small : b.toNat < 2 ^ 31) :
    b.signExtend 64 = b.setWidth 64 := by
  have positive : b.msb = false := by
    rw [BitVec.msb_eq_false_iff_two_mul_lt]
    omega
  exact BitVec.signExtend_eq_setWidth_of_msb_false positive

/-- A global gives back what it stores. -/
lemma GlobalVariable.Stores.value {global : GlobalVariable} {v : Value} (h : global.Stores v) :
    global.value = some v := by
  obtain ⟨ty, bits⟩ := h
  unfold GlobalVariable.value
  cases v with
  | funcRef b | externRef b =>
    simp only [ty, Value.ty]
    rw [show global.defaultValue = _ from bits, u32TryFrom_setWidth]
    rfl
  | _ =>
    simp only [ty, Value.ty]
    rw [bits]

/-- A global that is given the bits of a value stores it. -/
lemma Value.Represents.stores {v : Value} {x : BitVec 64} {type : GlobalType} (h : v.Represents x)
    (ty : type.contentType = v.ty) : GlobalVariable.Stores ⟨type, x⟩ v := by
  refine ⟨ty, ?_⟩
  cases v with
  | i32 b =>
    rw [show x = b.signExtend 64 from h]
    exact setWidth_signExtend b
  | _ => exact h

/-- A context of the globals with the given values, where the functions of the module have their
references. -/
structure EvalContext.Gives (cx : EvalContext) (funcs : Nat) (vals : List Value) : Prop where
  globals : ∀ i, cx.getGlobal i = vals[i]?
  funcs : ∀ f < funcs, cx.getFunc f = some (BitVec.ofNat 32 (f + 1))

namespace CompiledExpr

variable {cx : EvalContext} {vals : List Value} {funcs : Nat} {t : ValType}

/-- The bits of a global represent its value. -/
lemma represents_globalBits {v : Value} (limit : funcs < 2 ^ 31) (known : v.InModule funcs) :
    v.Represents (globalBits v) := by
  cases v with
  | f32 b => simp [Value.Represents, globalBits]
  | funcRef b | externRef b => exact signExtend_reference (Nat.lt_of_le_of_lt known limit)
  | _ => rfl

/-- The bits of a constant represent it. -/
lemma represents_constant (v : Value) :
    ∃ x, (constant v).eval cx = some x ∧ v.Represents x := by
  refine ⟨_, rfl, ?_⟩
  cases v with
  | f32 b => simp [Value.Represents]
  | _ => rfl

/-- An operator that pushes a value is compiled and evaluated. -/
lemma atom_evaluates {op : ConstAtom} (limit : funcs < 2 ^ 31) (gives : cx.Gives funcs vals)
    (known : ∀ v ∈ vals, v.InModule funcs) (inside : op.InModule funcs)
    (typed : op.type? (vals.map Value.ty) = some t) :
    ∃ v c x, op.value vals = some v ∧ v.InModule funcs ∧ op.compiled = .ok c ∧ c.eval cx = some x ∧
      v.Represents x := by
  cases op with
  | globalGet idx =>
    rw [ConstAtom.type?, List.getElem?_map, Option.map_eq_some_iff] at typed
    obtain ⟨v, hv, -⟩ := typed
    have mem := known v (List.mem_of_getElem? hv)
    refine ⟨v, _, _, hv, mem, rfl, ?_, represents_globalBits limit mem⟩
    rw [eval, gives.globals, hv]
    rfl
  | refFunc func =>
    have lt : func + 1 < 2 ^ 32 := by
      have : func < funcs := inside
      omega
    refine ⟨_, _, _, rfl, ?_, rfl, ?_, rfl⟩
    · show (BitVec.ofNat 32 (func + 1)).toNat ≤ funcs
      rw [BitVec.toNat_ofNat, Nat.mod_eq_of_lt lt]
      exact inside
    · rw [eval, gives.funcs func inside]
      rfl
  | refNull type =>
    cases type <;> cases typed
    · exact ⟨_, _, _, rfl, Nat.zero_le _, rfl, rfl, rfl⟩
    · exact ⟨_, _, _, rfl, Nat.zero_le _, rfl, rfl, rfl⟩
  | i32Const v | i64Const v | f32Const v | f64Const v =>
    obtain ⟨x, hx, represents⟩ := @represents_constant cx _
    exact ⟨_, _, x, rfl, trivial, rfl, hx, represents⟩

/-- An operator is computed at its own width. -/
lemma binary_represents {op : ConstBinary} {v w u : Value} {x y : BitVec 64} (hv : v.Represents x)
    (hw : w.Represents y) (hu : op.value v w = some u) :
    u.InModule funcs ∧ u.Represents (op.compiled x y) := by
  cases op <;> cases v <;> cases w <;> cases hu <;> cases hv <;> cases hw <;>
    exact ⟨trivial, by simp [Value.Represents, ConstBinary.compiled]⟩

/-- A valid expression is compiled, and its evaluation represents its value. -/
theorem expr_evaluates {e : ConstExpr} (limit : funcs < 2 ^ 31) (gives : cx.Gives funcs vals)
    (known : ∀ v ∈ vals, v.InModule funcs) (inside : e.InModule funcs)
    (typed : e.type? (vals.map Value.ty) = some t) :
    ∃ v c x, e.value vals = some v ∧ v.InModule funcs ∧ ofExpr e = .ok c ∧ c.eval cx = some x ∧
      v.Represents x := by
  induction e generalizing t with
  | atom op => exact atom_evaluates limit gives known inside typed
  | binary op lhs rhs ihl ihr =>
    obtain ⟨w, hw, -⟩ := ConstExpr.exists_value typed
    simp only [ConstExpr.type?] at typed
    split at typed
    next operands =>
      obtain ⟨v₁, c₁, x₁, hv₁, -, hc₁, hx₁, r₁⟩ := ihl inside.1 operands.1
      obtain ⟨v₂, c₂, x₂, hv₂, -, hc₂, hx₂, r₂⟩ := ihr inside.2 operands.2
      have value : op.value v₁ v₂ = some w := by
        rw [ConstExpr.value, hv₁, hv₂] at hw
        exact hw
      obtain ⟨mem, represents⟩ := binary_represents r₁ r₂ value
      refine ⟨w, .expr op.compiled c₁ c₂, _, hw, mem, ?_, ?_, represents⟩
      · rw [ofExpr, hc₁, hc₂]
        rfl
      · rw [eval, hx₁, hx₂]
        rfl
    · cases typed

end CompiledExpr

namespace ModuleParser

variable {p q : ModuleParser} {vals : List Value} {funcs : Nat} {t : ValType}

/-- What the compiler evaluates with, once the globals so far store their values. -/
lemma evalContext_gives (stored : List.Forall₂ GlobalVariable.Stores p.globals vals) :
    p.evalContext.Gives funcs vals where
  globals i := by
    show p.globals[i]?.bind GlobalVariable.value = vals[i]?
    rcases Nat.lt_or_ge i p.globals.length with lt | ge
    · have lt' := stored.length_eq ▸ lt
      rw [List.getElem?_eq_getElem lt, List.getElem?_eq_getElem lt', Option.bind_some]
      exact (stored.get lt lt').value
    · rw [List.getElem?_eq_none ge, List.getElem?_eq_none (stored.length_eq ▸ ge)]
      rfl
  funcs f _ := rfl

/-- The evaluation of a valid expression succeeds. -/
lemma evalConst_represents {e : ConstExpr} (limit : funcs < 2 ^ 31)
    (stored : List.Forall₂ GlobalVariable.Stores p.globals vals)
    (known : ∀ v ∈ vals, v.InModule funcs) (inside : e.InModule funcs)
    (typed : e.type? (vals.map Value.ty) = some t) :
    ∃ v x, e.value vals = some v ∧ v.ty = t ∧ v.InModule funcs ∧ p.evalConst e = .ok x ∧
      v.Represents x := by
  obtain ⟨v, c, x, hv, mem, hc, hx, represents⟩ :=
    CompiledExpr.expr_evaluates limit (evalContext_gives stored) known inside typed
  obtain ⟨v', hv', ty⟩ := ConstExpr.exists_value typed
  obtain rfl : v = v' := Option.some.inj (hv.symm.trans hv')
  refine ⟨v, x, hv, ty, mem, ?_, represents⟩
  rw [evalConst, CompiledExpr.new_operators, hc]
  refine Compile.bind_ok.mpr ⟨c, rfl, ?_⟩
  rw [hx]
  rfl

/-- A global of the type of a value can be added. -/
lemma addGlobal_ok {global : GlobalVariable} {v : Value} (ty : global.contentType = v.ty) :
    ∃ q, p.addGlobal global = .ok q ∧ q.globals = p.globals ++ [global] := by
  unfold addGlobal SegmentBuilder.addGlobalVariable
  rw [ty]
  cases v <;> exact ⟨_, rfl, rfl⟩

/-- Every global of a section gets its value, from those in front of it. -/
theorem processGlobals_stores {globals : List Global} (limit : funcs < 2 ^ 31)
    (stored : List.Forall₂ GlobalVariable.Stores p.globals vals)
    (known : ∀ v ∈ vals, v.InModule funcs)
    (inside : ∀ global ∈ globals, global.initExpr.InModule funcs)
    (typed : Global.WellTyped (vals.map Value.ty) globals) :
    ∃ vals' q, globals.foldlM (fun vals g => do return vals ++ [← g.initExpr.value vals]) vals =
        some vals' ∧
      globals.foldlM processGlobal p = .ok q ∧
      List.Forall₂ GlobalVariable.Stores q.globals vals' ∧
      ∀ v ∈ vals', v.InModule funcs := by
  induction globals generalizing p vals with
  | nil => exact ⟨vals, p, rfl, rfl, stored, known⟩
  | cons global globals ih =>
    obtain ⟨first, rest⟩ := typed
    obtain ⟨v, x, hv, ty, mem, hx, represents⟩ :=
      evalConst_represents limit stored known (inside global List.mem_cons_self) first
    obtain ⟨p', hp, globals_eq⟩ := @addGlobal_ok p ⟨global.type, x⟩ v ty.symm
    have stored' : List.Forall₂ GlobalVariable.Stores p'.globals (vals ++ [v]) := by
      rw [globals_eq]
      exact List.rel_append stored (.cons (represents.stores ty.symm) .nil)
    have known' : ∀ w ∈ vals ++ [v], w.InModule funcs := by
      intro w hw
      rcases List.mem_append.mp hw with hw | hw
      · exact known w hw
      · rw [List.mem_singleton.mp hw]
        exact mem
    have typed' : Global.WellTyped ((vals ++ [v]).map Value.ty) globals := by
      rw [List.map_append, List.map_singleton, ty]
      exact rest
    obtain ⟨vals', q, hvals, hq, holds⟩ :=
      ih stored' known' (fun g mem => inside g (List.mem_cons_of_mem _ mem)) typed'
    refine ⟨vals', q, ?_, ?_, holds⟩
    · rw [List.foldlM_cons, hv]
      exact hvals
    · rw [List.foldlM_cons, processGlobal, hx]
      show (p.addGlobal ⟨global.type, x⟩ >>= fun p => globals.foldlM processGlobal p) = _
      rw [hp]
      exact hq

end ModuleParser

/-- The compiler evaluates every valid constant expression to the value Wasm gives it, each operator at
its own width, for all values of the globals in front of it; and a global that is initialized with the
result gives that value back. So do all globals of a section, each evaluated behind those in front of it. -/
theorem evalConst_exact {p : ModuleParser} {vals : List Value} {funcs : Nat} {e : ConstExpr}
    {t : ValType} (limit : funcs < 2 ^ 31)
    (stored : List.Forall₂ GlobalVariable.Stores p.globals vals)
    (known : ∀ v ∈ vals, v.InModule funcs) (inside : e.InModule funcs)
    (typed : e.type? (vals.map Value.ty) = some t) :
    (∃ v x, e.value vals = some v ∧ v.ty = t ∧ v.InModule funcs ∧
      p.evalConst e = .ok x ∧
      v.Represents x ∧
      ∀ isMutable, GlobalVariable.Stores ⟨⟨t, isMutable⟩, x⟩ v) ∧
    ∀ globals : List Global, (∀ global ∈ globals, global.initExpr.InModule funcs) →
      Global.WellTyped (vals.map Value.ty) globals →
      ∃ vals' q, globals.foldlM (fun vals g => do return vals ++ [← g.initExpr.value vals]) vals =
          some vals' ∧
        globals.foldlM ModuleParser.processGlobal p = .ok q ∧
        List.Forall₂ GlobalVariable.Stores q.globals vals' ∧
        ∀ v ∈ vals', v.InModule funcs := by
  refine ⟨?_, fun globals => ModuleParser.processGlobals_stores limit stored known⟩
  obtain ⟨v, x, hv, ty, mem, hx, represents⟩ :=
    ModuleParser.evalConst_represents limit stored known inside typed
  exact ⟨v, x, hv, ty, mem, hx, represents, fun _ => represents.stores ty.symm⟩

/-- The sum of a global and a constant wraps at 32 bits, whatever is above the lowest 32 bits of the
global. -/
theorem evalConst_exact_wraps :
    ∃ v x, (ConstExpr.binary .i32Add (.atom (.globalGet 0)) (.atom (.i32Const 1))).value
        [.i32 (-1)] = some v ∧ v.ty = .i32 ∧ v.InModule 0 ∧
      ModuleParser.evalConst { globals := [⟨⟨.i32, false⟩, 0x7FFFFFFFF⟩] }
        (.binary .i32Add (.atom (.globalGet 0)) (.atom (.i32Const 1))) = .ok x ∧
      v.Represents x ∧
      ∀ isMutable, GlobalVariable.Stores ⟨⟨.i32, isMutable⟩, x⟩ v :=
  (@evalConst_exact _ [.i32 (-1)] 0 (.binary .i32Add (.atom (.globalGet 0)) (.atom (.i32Const 1))) _
    (by norm_num) (.cons ⟨rfl, rfl⟩ .nil) (List.forall_mem_singleton.mpr trivial) ⟨trivial, trivial⟩ rfl).1

end Rwasm
