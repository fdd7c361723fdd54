import Rwasm.Library.Slice

/-!
# Values and trap codes

The 32-bit stack slot `UntypedValue` (`types/untyped_value.rs`) with the operations the executor
applies to it, the typed `Value` exchanged with the host (`types/value.rs`), the Wasm value types
and the trap codes (`types/trap_code.rs`).

A slot is a bit vector. `i32` and `u32` are two readings of it, so that wrapping arithmetic and the
signed and unsigned comparisons are those of `BitVec`.
-/

namespace Rwasm

/-- A stack slot (`UntypedValue`). -/
abbrev UntypedValue := BitVec 32

/-- A byte of linear memory or of the data section. -/
abbrev Byte := BitVec 8

/-- The trap codes of the machine (`TrapCode`). -/
inductive TrapCode where
  | unreachableCodeReached
  | memoryOutOfBounds
  | tableOutOfBounds
  | indirectCallToNull
  | integerDivisionByZero
  | integerOverflow
  | badConversionToInteger
  | stackOverflow
  | badSignature
  | outOfFuel
  | unknownExternalFunction
  | illegalOpcode
  | interruptionCalled
  | executionHalted
  deriving DecidableEq, Repr

/-- The Wasm value types (`wasmparser::ValType`). -/
inductive ValType where
  | i32
  | i64
  | f32
  | f64
  | v128
  | funcRef
  | externRef
  deriving DecidableEq, Repr

/-- A typed value, as passed to and from the host (`Value`); floats are kept as their bits. -/
inductive Value where
  | i32 (bits : BitVec 32)
  | i64 (bits : BitVec 64)
  | f32 (bits : BitVec 32)
  | f64 (bits : BitVec 64)
  | funcRef (idx : BitVec 32)
  | externRef (idx : BitVec 32)
  deriving DecidableEq, Repr

namespace Value

/-- The type of a value (`Value::ty`). -/
def ty : Value → ValType
  | i32 _ => .i32
  | i64 _ => .i64
  | f32 _ => .f32
  | f64 _ => .f64
  | funcRef _ => .funcRef
  | externRef _ => .externRef

/-- The zero of a type (`Value::default`); the source panics on `v128`. -/
def default : ValType → Option Value
  | .i32 => some (.i32 0)
  | .i64 => some (.i64 0)
  | .f32 => some (.f32 0)
  | .f64 => some (.f64 0)
  | .v128 => none
  | .funcRef => some (.funcRef 0)
  | .externRef => some (.externRef 0)

end Value

/-- Every value type but `v128` has a zero. -/
lemma mapM_default_isSome {ts : List ValType} : (ts.mapM Value.default).isSome ↔ .v128 ∉ ts := by
  induction ts with
  | nil => simp
  | cons t ts ih =>
    cases t <;> cases hts : ts.mapM Value.default <;>
      simp_all [List.mapM_cons, Value.default]

/-- The zeros of a list of types have these types. -/
lemma mapM_default_ty {ts : List ValType} {vs : List Value} (h : ts.mapM Value.default = some vs) :
    vs.map Value.ty = ts := by
  induction ts generalizing vs with
  | nil =>
    cases h
    rfl
  | cons t ts ih =>
    simp only [List.mapM_cons, Option.bind_eq_bind, Option.bind_eq_some_iff] at h
    obtain ⟨v, hv, ws, hws, h⟩ := h
    cases h
    rw [List.map_cons, ih hws]
    congr 1
    cases t <;> cases hv <;> rfl

/-- The low and the high limb of a 64-bit value (`I64ValueSplit::split_into_i32_tuple`). -/
def splitIntoI32Tuple (v : BitVec 64) : UntypedValue × UntypedValue :=
  (v.setWidth 32, (v >>> 32).setWidth 32)

/-- The 64-bit value of two limbs, as `pop_i64` puts it together. -/
def joinLimbs (lo hi : UntypedValue) : BitVec 64 :=
  (hi.setWidth 64 <<< 32) ||| lo.setWidth 64

/-- A value is joined from its limbs. -/
@[simp] lemma joinLimbs_split (v : BitVec 64) :
    joinLimbs (splitIntoI32Tuple v).1 (splitIntoI32Tuple v).2 = v := by
  apply BitVec.eq_of_getLsbD_eq
  intro i hi
  simp only [joinLimbs, splitIntoI32Tuple, BitVec.getLsbD_or, BitVec.getLsbD_shiftLeft,
    BitVec.getLsbD_setWidth, BitVec.getLsbD_ushiftRight]
  rcases Nat.lt_or_ge i 32 with lo | hi'
  · simp [lo, hi]
  · have e : 32 + (i - 32) = i := by omega
    simp [e, hi, show ¬ i < 32 by omega, show i - 32 < 64 by omega, show i - 32 < 32 by omega]

/-- A pair of limbs is the split of the value it joins to. -/
@[simp] lemma split_joinLimbs (lo hi : UntypedValue) :
    splitIntoI32Tuple (joinLimbs lo hi) = (lo, hi) := by
  simp only [splitIntoI32Tuple, joinLimbs, Prod.mk.injEq]
  constructor
  · apply BitVec.eq_of_getLsbD_eq
    intro i hi'
    simp [hi']
  · apply BitVec.eq_of_getLsbD_eq
    intro i hi'
    simp [hi', show 32 + i < 64 by omega]

namespace UntypedValue

/-- The slot of a truth value. -/
def ofBool (b : Bool) : UntypedValue :=
  if b then 1 else 0

/-- The slot read as a truth value. -/
def toBool (v : UntypedValue) : Bool :=
  v != 0

/-- `i32::from(v) as usize`: the slot sign-extended to the 64 bits of an index. -/
def asI32Usize (v : UntypedValue) : Nat :=
  (v.signExtend 64).toNat

/-- Below `2^31` the signed reading of an index is the unsigned one, above it lies past the end of
every list the executor can hold. -/
lemma asI32Usize_eq (v : UntypedValue) :
    v.asI32Usize = if v.toNat < 2 ^ 31 then v.toNat else v.toNat + (2 ^ 64 - 2 ^ 32) := by
  have hv := v.isLt
  unfold asI32Usize
  rw [BitVec.toNat_signExtend, BitVec.msb_eq_decide, BitVec.toNat_setWidth]
  by_cases h : v.toNat < 2 ^ 31
  · rw [if_pos h, decide_eq_false (by omega)]
    simp only [Bool.false_eq_true, if_false]
    omega
  · rw [if_neg h, decide_eq_true (by omega)]
    simp only [if_true]
    omega

/-- The operations on one slot (`execute_unary`). -/
inductive UnaryOp where
  | i32Eqz
  | i32Clz
  | i32Ctz
  | i32Popcnt
  | i32WrapI64
  | i32Extend8S
  | i32Extend16S
  deriving DecidableEq, Repr

/-- The value of a unary operation. -/
def UnaryOp.eval (op : UnaryOp) (v : UntypedValue) : UntypedValue :=
  match op with
  | .i32Eqz => ofBool (v == 0)
  | .i32Clz => v.clz
  | .i32Ctz => v.ctz
  | .i32Popcnt => v.cpop
  | .i32WrapI64 => v
  | .i32Extend8S => (v.setWidth 8).signExtend 32
  | .i32Extend16S => (v.setWidth 16).signExtend 32

/-- The total operations on two slots (`execute_binary`). -/
inductive BinaryOp where
  | i32Eq
  | i32Ne
  | i32LtS
  | i32LtU
  | i32GtS
  | i32GtU
  | i32LeS
  | i32LeU
  | i32GeS
  | i32GeU
  | i32Add
  | i32Sub
  | i32Mul
  | i32And
  | i32Or
  | i32Xor
  | i32Shl
  | i32ShrS
  | i32ShrU
  | i32Rotl
  | i32Rotr
  deriving DecidableEq, Repr

/-- The value of a total binary operation. -/
def BinaryOp.eval (op : BinaryOp) (lhs rhs : UntypedValue) : UntypedValue :=
  match op with
  | .i32Eq => ofBool (lhs == rhs)
  | .i32Ne => ofBool (lhs != rhs)
  | .i32LtS => ofBool (lhs.slt rhs)
  | .i32LtU => ofBool (lhs.ult rhs)
  | .i32GtS => ofBool (rhs.slt lhs)
  | .i32GtU => ofBool (rhs.ult lhs)
  | .i32LeS => ofBool (lhs.sle rhs)
  | .i32LeU => ofBool (lhs.ule rhs)
  | .i32GeS => ofBool (rhs.sle lhs)
  | .i32GeU => ofBool (rhs.ule lhs)
  | .i32Add => lhs + rhs
  | .i32Sub => lhs - rhs
  | .i32Mul => lhs * rhs
  | .i32And => lhs &&& rhs
  | .i32Or => lhs ||| rhs
  | .i32Xor => lhs ^^^ rhs
  | .i32Shl => lhs <<< (rhs &&& 0x1F).toNat
  | .i32ShrS => lhs.sshiftRight (rhs &&& 0x1F).toNat
  | .i32ShrU => lhs >>> (rhs &&& 0x1F).toNat
  | .i32Rotl => lhs.rotateLeft rhs.toNat
  | .i32Rotr => lhs.rotateRight rhs.toNat

/-- The operations on two slots that may trap (`try_execute_binary`). -/
inductive FallibleOp where
  | i32DivS
  | i32DivU
  | i32RemS
  | i32RemU
  deriving DecidableEq, Repr

/-- The value of a fallible binary operation (`Integer::div`, `Integer::rem`). -/
def FallibleOp.eval (op : FallibleOp) (lhs rhs : UntypedValue) : Except TrapCode UntypedValue :=
  if rhs = 0 then
    .error .integerDivisionByZero
  else
    match op with
    | .i32DivS =>
      if lhs = BitVec.intMin 32 ∧ rhs = -1 then .error .integerOverflow else .ok (lhs.sdiv rhs)
    | .i32DivU => .ok (lhs.udiv rhs)
    | .i32RemS => .ok (lhs.srem rhs)
    | .i32RemU => .ok (lhs.umod rhs)

/-- The effective address of a memory access; it must not overflow 32 bits. -/
def effectiveAddress (address offset : Nat) : Option Nat :=
  if offset + address < 2 ^ 32 then some (offset + address) else none

/-- The little-endian number of a list of bytes. -/
def fromLeBytes : List Byte → Nat
  | [] => 0
  | b :: bs => b.toNat + 256 * fromLeBytes bs

/-- The lowest `n` bytes of a number, little-endian. -/
def intoLeBytes : Nat → Nat → List Byte
  | 0, _ => []
  | n + 1, v => BitVec.ofNat 8 v :: intoLeBytes n (v / 256)

/-- A number is written to as many bytes as asked for. -/
@[simp] lemma length_intoLeBytes (n v : Nat) : (intoLeBytes n v).length = n := by
  induction n generalizing v with
  | zero => rfl
  | succ n ih => simp [intoLeBytes, ih]

/-- The 32-bit loads (`load`, `load_extend`). -/
inductive LoadOp where
  | i32Load
  | i32Load8S
  | i32Load8U
  | i32Load16S
  | i32Load16U
  deriving DecidableEq, Repr

/-- The number of bytes a load reads. -/
def LoadOp.width : LoadOp → Nat
  | .i32Load => 4
  | .i32Load8S | .i32Load8U => 1
  | .i32Load16S | .i32Load16U => 2

/-- The slot a load makes of the number it reads. -/
def LoadOp.extend (op : LoadOp) (n : Nat) : UntypedValue :=
  match op with
  | .i32Load | .i32Load8U | .i32Load16U => BitVec.ofNat 32 n
  | .i32Load8S => (BitVec.ofNat 8 n).signExtend 32
  | .i32Load16S => (BitVec.ofNat 16 n).signExtend 32

/-- A load from memory. -/
def LoadOp.eval (op : LoadOp) (memory : List Byte) (address : UntypedValue) (offset : Nat) :
    Except TrapCode UntypedValue :=
  match effectiveAddress address.toNat offset with
  | none => .error .memoryOutOfBounds
  | some addr =>
    match memory.getSlice? addr op.width with
    | none => .error .memoryOutOfBounds
    | some bytes => .ok (op.extend (fromLeBytes bytes))

/-- The 32-bit stores (`store`, `store_wrap`). -/
inductive StoreOp where
  | i32Store
  | i32Store8
  | i32Store16
  deriving DecidableEq, Repr

/-- The number of bytes a store writes. -/
def StoreOp.width : StoreOp → Nat
  | .i32Store => 4
  | .i32Store8 => 1
  | .i32Store16 => 2

/-- A store to memory. -/
def StoreOp.eval (op : StoreOp) (memory : List Byte) (address : UntypedValue) (offset : Nat)
    (value : UntypedValue) : Except TrapCode (List Byte) :=
  match effectiveAddress address.toNat offset with
  | none => .error .memoryOutOfBounds
  | some addr =>
    if addr + op.width ≤ memory.length then
      .ok (memory.setSlice addr (intoLeBytes op.width value.toNat))
    else
      .error .memoryOutOfBounds

/-- A store keeps the length of the memory. -/
lemma StoreOp.length_eval {op : StoreOp} {memory memory' : List Byte} {address offset value}
    (h : op.eval memory address offset value = .ok memory') :
    memory'.length = memory.length := by
  unfold StoreOp.eval at h
  split at h
  · cases h
  · split at h
    · cases h
      exact List.length_setSlice (by simpa)
    · cases h

end UntypedValue

end Rwasm
