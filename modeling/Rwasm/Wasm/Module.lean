import Rwasm.Vm.ImportLinker
import Rwasm.Wasm.Syntax

/-!
# Wasm modules

A module as the parser reads it, section by section: its types, imports, functions, tables, memories
and globals, the exports of functions, the start function, and its element and data segments. The
constant expressions in it come with the values Wasm gives them.

A module is taken as the validator has accepted it; what the compiler relies on of that is
`WasmModule.Valid`.
-/

namespace Rwasm

/-- The type of a global, as far as the compiler uses them. -/
structure GlobalType where
  contentType : ValType
  mutable : Bool
  deriving DecidableEq, Repr

/-- A table type. -/
structure TableType where
  elementType : ValType
  initial : Nat
  maximum : Option Nat
  deriving DecidableEq, Repr

/-- A memory type. -/
structure MemoryType where
  initial : Nat
  maximum : Option Nat
  deriving DecidableEq, Repr

/-- The operators of constant expressions that push a value. -/
inductive ConstAtom where
  | i32Const (value : BitVec 32)
  | i64Const (value : BitVec 64)
  | f32Const (bits : BitVec 32)
  | f64Const (bits : BitVec 64)
  | globalGet (idx : Nat)
  | refNull (type : ValType)
  | refFunc (func : Nat)
  deriving DecidableEq, Repr

/-- The operators of constant expressions that combine two values. -/
inductive ConstBinary where
  | i32Add
  | i32Sub
  | i32Mul
  | i64Add
  | i64Sub
  | i64Mul
  deriving DecidableEq, Repr

/-- The operators of constant expressions, in the order of the binary format. -/
inductive ConstOperator where
  | atom (op : ConstAtom)
  | binary (op : ConstBinary)
  deriving DecidableEq, Repr

/-- Structured constant expressions. -/
inductive ConstExpr where
  | atom (op : ConstAtom)
  | binary (op : ConstBinary) (lhs rhs : ConstExpr)
  deriving DecidableEq, Repr

/-- The operators of a constant expression. -/
def ConstExpr.operators : ConstExpr → List ConstOperator
  | atom op => [.atom op]
  | binary op lhs rhs => lhs.operators ++ rhs.operators ++ [.binary op]

/-- The type of what an operator pushes, given the types of the globals. -/
def ConstAtom.type? (globals : List ValType) : ConstAtom → Option ValType
  | i32Const _ => some .i32
  | i64Const _ => some .i64
  | f32Const _ => some .f32
  | f64Const _ => some .f64
  | globalGet idx => globals[idx]?
  | refNull .funcRef => some .funcRef
  | refNull .externRef => some .externRef
  | refNull _ => none
  | refFunc _ => some .funcRef

/-- The type of the operands and of the result. -/
def ConstBinary.operandType : ConstBinary → ValType
  | i32Add | i32Sub | i32Mul => .i32
  | i64Add | i64Sub | i64Mul => .i64

/-- The type of a constant expression, if it is well typed. -/
def ConstExpr.type? (globals : List ValType) : ConstExpr → Option ValType
  | atom op => op.type? globals
  | binary op lhs rhs =>
    if lhs.type? globals = some op.operandType ∧ rhs.type? globals = some op.operandType then
      some op.operandType
    else
      none

/-- What an operator pushes, given the values of the globals. A reference to function `f` is `f + 1`,
and the null reference is `0`. -/
def ConstAtom.value (globals : List Value) : ConstAtom → Option Value
  | i32Const v => some (.i32 v)
  | i64Const v => some (.i64 v)
  | f32Const v => some (.f32 v)
  | f64Const v => some (.f64 v)
  | globalGet idx => globals[idx]?
  | refNull .funcRef => some (.funcRef 0)
  | refNull .externRef => some (.externRef 0)
  | refNull _ => none
  | refFunc func => some (.funcRef (BitVec.ofNat 32 (func + 1)))

/-- What an operator makes of two values. -/
def ConstBinary.value : ConstBinary → Value → Value → Option Value
  | i32Add, .i32 x, .i32 y => some (.i32 (x + y))
  | i32Sub, .i32 x, .i32 y => some (.i32 (x - y))
  | i32Mul, .i32 x, .i32 y => some (.i32 (x * y))
  | i64Add, .i64 x, .i64 y => some (.i64 (x + y))
  | i64Sub, .i64 x, .i64 y => some (.i64 (x - y))
  | i64Mul, .i64 x, .i64 y => some (.i64 (x * y))
  | _, _, _ => none

/-- The value of a constant expression. -/
def ConstExpr.value (globals : List Value) : ConstExpr → Option Value
  | atom op => op.value globals
  | binary op lhs rhs => do
    let x ← lhs.value globals
    let y ← rhs.value globals
    op.value x y

/-- What is imported. -/
inductive ImportType where
  | func (type : Nat)
  | global (type : GlobalType)
  | other
  deriving DecidableEq

/-- An import (`wasmparser::Import`). -/
structure Import where
  name : ImportName
  type : ImportType

/-- A global with its initial value (`wasmparser::Global`). -/
structure Global where
  type : GlobalType
  initExpr : ConstExpr

/-- The items of an element segment (`wasmparser::ElementItems`). -/
inductive ElementItems where
  | functions (funcs : List Nat)
  | expressions (exprs : List ConstExpr)

/-- The kinds of element segments (`wasmparser::ElementKind`). -/
inductive ElementKind where
  | active (table : Nat) (offset : ConstExpr)
  | passive
  | declared

/-- An element segment (`wasmparser::Element`). -/
structure Element where
  kind : ElementKind
  items : ElementItems

/-- The kinds of data segments (`wasmparser::DataKind`). -/
inductive DataKind where
  | active (memory : Nat) (offset : ConstExpr)
  | passive

/-- A data segment (`wasmparser::Data`). -/
structure Data where
  kind : DataKind
  data : List Byte

/-- A Wasm module. -/
structure WasmModule where
  binary : List Byte := []
  types : List FuncType := []
  imports : List Import := []
  functions : List FuncBody := []
  tables : List TableType := []
  memories : List MemoryType := []
  globals : List Global := []
  exports : List (String × Nat) := []
  start : Option Nat := none
  elements : List Element := []
  data : List Data := []

/-- The number of items. -/
def ElementItems.count : ElementItems → Nat
  | functions funcs => funcs.length
  | expressions exprs => exprs.length

/-- The type of an import that is a global. -/
def Import.globalType? (i : Import) : Option GlobalType :=
  match i.type with
  | .global type => some type
  | _ => none

/-- The types of the imported globals. -/
def WasmModule.importedGlobals (wasm : WasmModule) : List GlobalType :=
  wasm.imports.filterMap Import.globalType?

/-- The types of all globals. -/
def WasmModule.globalTypes (wasm : WasmModule) : List ValType :=
  wasm.importedGlobals.map GlobalType.contentType ++ wasm.globals.map (·.type.contentType)

/-- Globals whose initial values are well typed, and use only globals before them. -/
def Global.WellTyped : List ValType → List Global → Prop
  | _, [] => True
  | before, g :: globals =>
    g.initExpr.type? before = some g.type.contentType ∧
      WellTyped (before ++ [g.type.contentType]) globals

/-- What the compiler relies on of a validated module. -/
structure WasmModule.Valid (wasm : WasmModule) : Prop where
  globals : Global.WellTyped (wasm.importedGlobals.map GlobalType.contentType) wasm.globals
  tables : ∀ t ∈ wasm.tables, t.initial < 2 ^ 32
  memories : wasm.memories.length ≤ 1 ∧ ∀ m ∈ wasm.memories, m.initial ≤ 65536
  /-- The tables of active element segments exist, and their offsets are numbers. -/
  elementKinds : ∀ e ∈ wasm.elements, ∀ table offset, e.kind = .active table offset →
    table < wasm.tables.length ∧ offset.type? wasm.globalTypes = some .i32
  /-- Element expressions are references. -/
  elementItems : ∀ e ∈ wasm.elements, ∀ exprs, e.items = .expressions exprs → ∀ x ∈ exprs,
    x.type? wasm.globalTypes = some .funcRef ∨ x.type? wasm.globalTypes = some .externRef
  dataKinds : ∀ d ∈ wasm.data, ∀ memory offset, d.kind = .active memory offset →
    offset.type? wasm.globalTypes = some .i32
  /-- The binary format stores the sizes of the sections in 32 bits. -/
  elements_lt : (wasm.elements.map (·.items.count)).sum < 2 ^ 32
  data_lt : (wasm.data.map (·.data.length)).sum < 2 ^ 32

section TypeSoundness

variable {globals : List Value} {t : ValType}

/-- A well-typed operator pushes a value of its type. -/
lemma ConstAtom.exists_value {op : ConstAtom} (h : op.type? (globals.map Value.ty) = some t) :
    ∃ v, op.value globals = some v ∧ v.ty = t := by
  cases op with
  | globalGet idx =>
    rw [type?, List.getElem?_map, Option.map_eq_some_iff] at h
    exact h
  | refNull type =>
    cases type <;> cases h
    · exact ⟨_, rfl, rfl⟩
    · exact ⟨_, rfl, rfl⟩
  | _ =>
    cases h
    exact ⟨_, rfl, rfl⟩

/-- Two operands of the right type have a value of that type. -/
lemma ConstBinary.exists_value {op : ConstBinary} {x y : Value} (hx : x.ty = op.operandType)
    (hy : y.ty = op.operandType) : ∃ v, op.value x y = some v ∧ v.ty = op.operandType := by
  cases op <;> cases x <;> cases hx <;> cases y <;> cases hy <;> exact ⟨_, rfl, rfl⟩

/-- A well-typed constant expression has a value of its type. -/
theorem ConstExpr.exists_value {e : ConstExpr} (h : e.type? (globals.map Value.ty) = some t) :
    ∃ v, e.value globals = some v ∧ v.ty = t := by
  induction e generalizing t with
  | atom op => exact ConstAtom.exists_value h
  | binary op lhs rhs ihl ihr =>
    unfold type? at h
    split at h
    next typed =>
      cases h
      obtain ⟨x, hx, tx⟩ := ihl typed.1
      obtain ⟨y, hy, ty⟩ := ihr typed.2
      obtain ⟨v, hv, tv⟩ := ConstBinary.exists_value tx ty
      refine ⟨v, ?_, tv⟩
      rw [value, hx, hy]
      exact hv
    · cases h

end TypeSoundness

end Rwasm
