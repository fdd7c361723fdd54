import Rwasm.Wasm.Numerics

/-!
# Typed expressions

The typing rules of structured expressions, with a rule for each of their operators. The operators behind
one that never goes on may be anything. That a segment or a memory is there is left to the validation of the
module.
-/

namespace Rwasm

/-- What is known where a function body is validated. -/
structure Typing where
  types : List FuncType
  /-- The functions that may be called. -/
  callees : Nat → Option FuncType
  globals : List ValType
  /-- The types of the elements of the tables. -/
  tables : List ValType
  locals : List ValType
  /-- The results of the function. -/
  results : List ValType

/-- The type of a block. -/
def Typing.blockType (Γ : Typing) : BlockType → Option FuncType
  | .empty => some ⟨[], []⟩
  | .type t => some ⟨[], [t]⟩
  | .funcType idx => Γ.types[idx]?

/-- The types on the stack before and after an operator, topmost first. -/
inductive PlainOperator.HasType (Γ : Typing) : PlainOperator → List ValType → List ValType → Prop
  | nop {ts} :
    HasType Γ nop ts ts
  | call {func type ts} :
    Γ.callees func = some type →
    HasType Γ (call func) (type.params.reverse ++ ts) (type.results.reverse ++ ts)
  | callIndirect {idx table type ts} :
    Γ.types[idx]? = some type →
    HasType Γ (callIndirect idx table) (.i32 :: (type.params.reverse ++ ts)) (type.results.reverse ++ ts)
  | drop {t ts} :
    HasType Γ drop (t :: ts) ts
  | select {t ts} :
    HasType Γ select (.i32 :: t :: t :: ts) (t :: ts)
  | typedSelect {t ts} :
    HasType Γ (typedSelect t) (.i32 :: t :: t :: ts) (t :: ts)
  | localGet {idx t ts} :
    Γ.locals[idx]? = some t →
    HasType Γ (localGet idx) ts (t :: ts)
  | localSet {idx t ts} :
    Γ.locals[idx]? = some t →
    HasType Γ (localSet idx) (t :: ts) ts
  | localTee {idx t ts} :
    Γ.locals[idx]? = some t →
    HasType Γ (localTee idx) (t :: ts) (t :: ts)
  | globalGet {idx t ts} :
    Γ.globals[idx]? = some t →
    HasType Γ (globalGet idx) ts (t :: ts)
  | globalSet {idx t ts} :
    Γ.globals[idx]? = some t →
    HasType Γ (globalSet idx) (t :: ts) ts
  | load {op offset ts} :
    HasType Γ (load op offset) (.i32 :: ts) (op.loadedType :: ts)
  | store {op offset ts} :
    HasType Γ (store op offset) (op.storedType :: .i32 :: ts) ts
  | memorySize {ts} :
    HasType Γ memorySize ts (.i32 :: ts)
  | memoryGrow {ts} :
    HasType Γ memoryGrow (.i32 :: ts) (.i32 :: ts)
  | i32Const {value ts} :
    HasType Γ (i32Const value) ts (.i32 :: ts)
  | i64Const {value ts} :
    HasType Γ (i64Const value) ts (.i64 :: ts)
  | f32Const {bits ts} :
    HasType Γ (f32Const bits) ts (.f32 :: ts)
  | f64Const {bits ts} :
    HasType Γ (f64Const bits) ts (.f64 :: ts)
  | refNull {t ts} :
    t = .funcRef ∨ t = .externRef →
    HasType Γ (refNull t) ts (t :: ts)
  | refIsNull {t ts} :
    t = .funcRef ∨ t = .externRef →
    HasType Γ refIsNull (t :: ts) (.i32 :: ts)
  | refFunc {func ts} :
    HasType Γ (refFunc func) ts (.funcRef :: ts)
  | i32WrapI64 {ts} :
    HasType Γ i32WrapI64 (.i64 :: ts) (.i32 :: ts)
  | numeric {op ts} :
    HasType Γ (numeric op) ((NumericOperator.signature op).1.reverse ++ ts)
      ((NumericOperator.signature op).2 :: ts)
  | memoryInit {segment ts} :
    HasType Γ (memoryInit segment) (.i32 :: .i32 :: .i32 :: ts) ts
  | dataDrop {segment ts} :
    HasType Γ (dataDrop segment) ts ts
  | memoryCopy {ts} :
    HasType Γ memoryCopy (.i32 :: .i32 :: .i32 :: ts) ts
  | memoryFill {ts} :
    HasType Γ memoryFill (.i32 :: .i32 :: .i32 :: ts) ts
  | tableInit {segment table ts} :
    HasType Γ (tableInit segment table) (.i32 :: .i32 :: .i32 :: ts) ts
  | elemDrop {segment ts} :
    HasType Γ (elemDrop segment) ts ts
  | tableCopy {dst src ts} :
    HasType Γ (tableCopy dst src) (.i32 :: .i32 :: .i32 :: ts) ts
  | tableFill {table t ts} :
    Γ.tables[table]? = some t →
    t = .funcRef ∨ t = .externRef →
    HasType Γ (tableFill table) (.i32 :: t :: .i32 :: ts) ts
  | tableGet {table t ts} :
    Γ.tables[table]? = some t →
    t = .funcRef ∨ t = .externRef →
    HasType Γ (tableGet table) (.i32 :: ts) (t :: ts)
  | tableSet {table t ts} :
    Γ.tables[table]? = some t →
    t = .funcRef ∨ t = .externRef →
    HasType Γ (tableSet table) (t :: .i32 :: ts) ts
  | tableGrow {table t ts} :
    Γ.tables[table]? = some t →
    t = .funcRef ∨ t = .externRef →
    HasType Γ (tableGrow table) (.i32 :: t :: ts) (.i32 :: ts)
  | tableSize {table ts} :
    HasType Γ (tableSize table) ts (.i32 :: ts)

/-- The types on the stack before and after an expression, topmost first. A branch to a label carries values
of its types; the first label is that of the innermost block, and the last one that of the function. -/
inductive Expr.HasType (Γ : Typing) : List (List ValType) → Expr → List ValType → List ValType → Prop
  | nil {labels ts} :
    HasType Γ labels .nil ts ts
  | plain {labels op rest ts us vs} :
    PlainOperator.HasType Γ op ts us →
    HasType Γ labels rest us vs →
    HasType Γ labels (.plain op rest) ts vs
  | unreachable {labels rest ts vs} :
    HasType Γ labels (.leave .unreachable rest) ts vs
  | br {labels depth label rest ts vs} :
    labels[depth]? = some label →
    HasType Γ labels (.leave (.br depth) rest) (label.reverse ++ ts) vs
  | brTable {labels targets default rest ts vs} :
    (∀ depth ∈ targets ++ [default], ∃ label us, labels[depth]? = some label ∧ ts = label.reverse ++ us) →
    HasType Γ labels (.leave (.brTable targets default) rest) (.i32 :: ts) vs
  | ret {labels rest ts vs} :
    HasType Γ labels (.leave .ret rest) (Γ.results.reverse ++ ts) vs
  | returnCall {labels func type rest ts vs} :
    Γ.callees func = some type →
    type.results = Γ.results →
    HasType Γ labels (.leave (.returnCall func) rest) (type.params.reverse ++ ts) vs
  | returnCallIndirect {labels idx table type rest ts vs} :
    Γ.types[idx]? = some type →
    type.results = Γ.results →
    HasType Γ labels (.leave (.returnCallIndirect idx table) rest) (.i32 :: (type.params.reverse ++ ts)) vs
  | brIf {labels depth label rest ts vs} :
    labels[depth]? = some label →
    HasType Γ labels rest (label.reverse ++ ts) vs →
    HasType Γ labels (.brIf depth rest) (.i32 :: (label.reverse ++ ts)) vs
  | block {labels type ps rs body rest ts vs} :
    Γ.blockType type = some ⟨ps, rs⟩ →
    HasType Γ (rs :: labels) body ps.reverse rs.reverse →
    HasType Γ labels rest (rs.reverse ++ ts) vs →
    HasType Γ labels (.block type body rest) (ps.reverse ++ ts) vs
  | loop {labels type ps rs body rest ts vs} :
    Γ.blockType type = some ⟨ps, rs⟩ →
    HasType Γ (ps :: labels) body ps.reverse rs.reverse →
    HasType Γ labels rest (rs.reverse ++ ts) vs →
    HasType Γ labels (.loop type body rest) (ps.reverse ++ ts) vs
  | if {labels type ps body rest ts vs} :
    Γ.blockType type = some ⟨ps, ps⟩ →
    HasType Γ (ps :: labels) body ps.reverse ps.reverse →
    HasType Γ labels rest (ps.reverse ++ ts) vs →
    HasType Γ labels (.if type body rest) (.i32 :: (ps.reverse ++ ts)) vs
  | ifElse {labels type ps rs body orelse rest ts vs} :
    Γ.blockType type = some ⟨ps, rs⟩ →
    HasType Γ (rs :: labels) body ps.reverse rs.reverse →
    HasType Γ (rs :: labels) orelse ps.reverse rs.reverse →
    HasType Γ labels rest (rs.reverse ++ ts) vs →
    HasType Γ labels (.ifElse type body orelse rest) (.i32 :: (ps.reverse ++ ts)) vs

end Rwasm
