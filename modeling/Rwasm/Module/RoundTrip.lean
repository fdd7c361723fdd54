import Rwasm.Module.Codec

/-!
# Decoding an encoded module

Each decoder takes the encoding of a value back to the value, whatever follows, and reports an error
where it is cut off. The last field of a module is the exception: when all of it is missing, the
module is decoded without it.
-/

namespace Rwasm

open Codec

/-- A number that fits its bytes is read back. -/
lemma fromLeBytes_intoLeBytes {n v : Nat} (h : v < 256 ^ n) :
    UntypedValue.fromLeBytes (UntypedValue.intoLeBytes n v) = v := by
  induction n generalizing v with
  | zero =>
    obtain rfl : v = 0 := by simpa using h
    rfl
  | succ n ih =>
    have high : v / 256 < 256 ^ n := by
      rw [Nat.div_lt_iff_lt_mul (by norm_num), ← pow_succ]
      exact h
    rw [UntypedValue.intoLeBytes, UntypedValue.fromLeBytes, ih high, BitVec.toNat_ofNat]
    omega

/-- A word of `n` bytes is coded by its bytes. -/
lemma codes_word {n v : Nat} (h : v < 256 ^ n) : (decodeWord n).Codes (encodeWord n v) v := by
  have len : (encodeWord n v).length = n := UntypedValue.length_intoLeBytes n v
  have bytes : (Decoder.take DecodeError.unexpectedEnd n : Decode (List Byte)).Codes (encodeWord n v)
      (encodeWord n v) := by
    simpa only [len] using Decoder.Codes.take DecodeError.unexpectedEnd (encodeWord n v)
  refine bytes.bind_nil ?_
  rw [encodeWord, fromLeBytes_intoLeBytes h]
  exact .pure v

/-- A signed word is read back. -/
lemma codes_i32 {v : Int} (h : -2 ^ 31 ≤ v ∧ v < 2 ^ 31) : decodeI32.Codes (encodeI32 v) v := by
  have word : (BitVec.ofInt 32 v).toNat < 256 ^ 4 := (BitVec.ofInt 32 v).isLt
  refine (codes_word word).bind_nil ?_
  have back : (BitVec.ofNat 32 (BitVec.ofInt 32 v).toNat).toInt = v := by
    rw [BitVec.ofNat_toNat, BitVec.setWidth_eq, BitVec.toInt_ofInt]
    exact Int.bmod_eq_of_le (by omega) (by omega)
  rw [back]
  exact .pure v

variable {variants : TrapCode.Numbering}

/-- The list of the trap codes is complete. -/
lemma TrapCode.mem_all (code : TrapCode) : code ∈ TrapCode.all := by
  cases code <;> decide

/-- A trap code is read back. -/
lemma codes_trapCode (code : TrapCode) :
    (TrapCode.decode variants).Codes (code.encode variants) code := by
  have word : (variants.number code).toNat < 256 ^ 4 := (variants.number code).isLt
  refine (codes_word word).bind_nil ?_
  cases found : TrapCode.all.find? fun c => (variants.number c).toNat = (variants.number code).toNat with
  | none =>
    have absent := List.find?_eq_none.mp found code code.mem_all
    exact absurd (decide_eq_true rfl) absent
  | some c =>
    have same : (variants.number c).toNat = (variants.number code).toNat := by
      simpa using List.find?_some found
    rw [variants.injective (BitVec.eq_of_toNat_eq same)]
    exact .pure code

/-- The value of an operand is one of its type. -/
def Operand.Fits : Operand → Prop
  | .u16 v => v < 2 ^ 16
  | .u32 v => v < 2 ^ 32
  | .i32 v => -2 ^ 31 ≤ v ∧ v < 2 ^ 31
  | .trapCode _ => True

/-- Whether an operand fits is decided by its range. -/
instance : DecidablePred Operand.Fits
  | .u16 v => inferInstanceAs (Decidable (v < 2 ^ 16))
  | .u32 v => inferInstanceAs (Decidable (v < 2 ^ 32))
  | .i32 v => inferInstanceAs (Decidable (-2 ^ 31 ≤ v ∧ v < 2 ^ 31))
  | .trapCode _ => inferInstanceAs (Decidable True)

/-- The immediates of an opcode are of the types the source gives them. -/
def Opcode.Fits (op : Opcode) : Prop :=
  ∀ operand ∈ op.operands, operand.Fits

/-- Whether an opcode fits is decided by its operands. -/
instance : DecidablePred Opcode.Fits :=
  fun op => inferInstanceAs (Decidable (∀ operand ∈ op.operands, operand.Fits))

/-- What a shape reads when the operands of an opcode follow. -/
def Shape.Of (shape : Shape) (op : Opcode) : Prop :=
  match shape with
  | .plain op' => op.operands = [] ∧ op' = op
  | .u16 make => ∃ v, op.operands = [.u16 v] ∧ make v = op
  | .u16Pair make => ∃ v w, op.operands = [.u16 v, .u16 w] ∧ make v w = op
  | .u32 make => ∃ v, op.operands = [.u32 v] ∧ make v = op
  | .i32 make => ∃ v, op.operands = [.i32 v] ∧ make v = op
  | .trapCode make => ∃ code, op.operands = [.trapCode code] ∧ make code = op

/-- Codes from the offset on are those of the floating-point opcodes. -/
lemma Opcode.shape_fpu (n : Nat) : Opcode.shape (FPU_OPCODE_OFFSET + n) = FpuOpcode.shape n := by
  unfold Opcode.shape
  split
  case h_85 =>
    rw [if_pos (Nat.le_add_right _ n), Nat.add_sub_cancel_left]
  all_goals
    rename_i h
    unfold FPU_OPCODE_OFFSET at h
    omega

/-- The decoder knows the code of every opcode. -/
lemma Opcode.shape_code (op : Opcode) :
    ∃ shape, Opcode.shape op.code = some shape ∧ shape.Of op := by
  cases op
  case fpu op =>
    simp only [Opcode.code, Opcode.shape_fpu]
    cases op <;> first | exact ⟨_, rfl, rfl, rfl⟩ | exact ⟨_, rfl, _, rfl, rfl⟩
  case unary op => cases op <;> exact ⟨_, rfl, rfl, rfl⟩
  case binary op => cases op <;> exact ⟨_, rfl, rfl, rfl⟩
  case fallible op => cases op <;> exact ⟨_, rfl, rfl, rfl⟩
  case load op offset => cases op <;> exact ⟨_, rfl, _, rfl, rfl⟩
  case store op offset => cases op <;> exact ⟨_, rfl, _, rfl, rfl⟩
  case tableCopy dst src => exact ⟨_, rfl, _, _, rfl, rfl⟩
  case i32Const value => exact ⟨_, rfl, _, rfl, by simp⟩
  all_goals first | exact ⟨_, rfl, rfl, rfl⟩ | exact ⟨_, rfl, _, rfl, rfl⟩

/-- A shape reads the operands of its opcode. -/
lemma Shape.Of.codes {shape : Shape} {op : Opcode} (h : shape.Of op) (fits : op.Fits) :
    (shape.decode variants).Codes (op.operands.flatMap (Operand.encode variants)) op := by
  cases shape with
  | plain op' =>
    obtain ⟨none, rfl⟩ := h
    rw [none]
    exact .pure op'
  | u16 make =>
    obtain ⟨v, one, rfl⟩ := h
    have word : v < 256 ^ 2 := fits (.u16 v) (by simp [one])
    rw [one, List.flatMap_singleton]
    exact (codes_word word).bind_nil (.pure _)
  | u16Pair make =>
    obtain ⟨v, w, two, rfl⟩ := h
    have first : v < 256 ^ 2 := fits (.u16 v) (by simp [two])
    have second : w < 256 ^ 2 := fits (.u16 w) (by simp [two])
    rw [two, List.flatMap_cons, List.flatMap_singleton]
    exact (codes_word first).bind ((codes_word second).bind_nil (.pure _))
  | u32 make =>
    obtain ⟨v, one, rfl⟩ := h
    have word : v < 256 ^ 4 := fits (.u32 v) (by simp [one])
    rw [one, List.flatMap_singleton]
    exact (codes_word word).bind_nil (.pure _)
  | i32 make =>
    obtain ⟨v, one, rfl⟩ := h
    have word : -2 ^ 31 ≤ v ∧ v < 2 ^ 31 := fits (.i32 v) (by simp [one])
    rw [one, List.flatMap_singleton]
    exact (codes_i32 word).bind_nil (.pure _)
  | trapCode make =>
    obtain ⟨code, one, rfl⟩ := h
    rw [one, List.flatMap_singleton]
    exact (codes_trapCode code).bind_nil (.pure _)

/-- The code of an opcode fits four bytes. -/
lemma Opcode.code_lt (op : Opcode) : op.code < 256 ^ 4 := by
  cases op
  case unary op => cases op <;> exact Nat.le_of_ble_eq_true rfl
  case binary op => cases op <;> exact Nat.le_of_ble_eq_true rfl
  case fallible op => cases op <;> exact Nat.le_of_ble_eq_true rfl
  case load op offset => cases op <;> exact Nat.le_of_ble_eq_true rfl
  case store op offset => cases op <;> exact Nat.le_of_ble_eq_true rfl
  case fpu op => cases op <;> exact Nat.le_of_ble_eq_true rfl
  all_goals exact Nat.le_of_ble_eq_true rfl

/-- An opcode whose operands fit is read back. -/
lemma codes_opcode {op : Opcode} (fits : op.Fits) :
    (Opcode.decode variants).Codes (op.encode variants) op := by
  obtain ⟨shape, known, of⟩ := op.shape_code
  refine (codes_word op.code_lt).bind ?_
  rw [known]
  exact of.codes fits

/-- A list of them that is not too long is read back. -/
lemma codes_instructionSet {code : List Opcode} (fits : ∀ op ∈ code, op.Fits)
    (length : code.length ≤ MAX_OPCODE_CAPACITY) :
    (InstructionSet.decode variants).Codes (InstructionSet.encode variants code) code := by
  have word : code.length < 256 ^ 8 := length.trans_lt (by decide)
  have opcodes : ((Opcode.decode variants).times code.length).Codes
      (code.flatMap (Opcode.encode variants)) (code.map id) :=
    Decoder.Codes.times fun op h => codes_opcode (fits op h)
  rw [List.map_id] at opcodes
  exact (codes_word word).bind ((Decoder.Codes.reserve length).bind opcodes)

/-- A run of bytes is read back. -/
lemma codes_bytes {bytes : List Byte} (h : bytes.length < 2 ^ 63) :
    decodeBytes.Codes (encodeBytes bytes) bytes := by
  have word : bytes.length < 256 ^ 8 := h.trans (by decide)
  have room : bytes.length ≤ VecItem.byte.capacity := Nat.le_pred_of_lt h
  exact (codes_word word).bind ((Decoder.Codes.reserve room).bind (.take _ bytes))

/-- A run of words is read back, if there is room for so many. -/
lemma codes_words {words : List UntypedValue} (h : words.length ≤ VecItem.word.capacity) :
    decodeWords.Codes (encodeWords words) words := by
  have items : ((decodeWord 4).times words.length).Codes
      (words.flatMap fun word => encodeWord 4 word.toNat) (words.map BitVec.toNat) :=
    Decoder.Codes.times fun word _ => codes_word word.isLt
  have word : words.length < 256 ^ 8 := h.trans_lt (by decide)
  refine (codes_word word).bind ((Decoder.Codes.reserve h).bind (items.bind_nil ?_))
  have back : (words.map BitVec.toNat).map (BitVec.ofNat 32) = words := by
    rw [List.map_map]
    refine (List.map_congr_left fun word _ => ?_).trans (List.map_id words)
    exact (BitVec.ofNat_toNat 32 word).trans (BitVec.setWidth_eq word)
  rw [back]
  exact .pure words

/-- The fields of a module are values of the types the source gives them; a vector has at most
`isize::MAX` bytes. -/
structure RwasmModule.Representable (m : RwasmModule) : Prop where
  opcodes : ∀ op ∈ m.codeSection, op.Fits
  codeSection : m.codeSection.length ≤ MAX_OPCODE_CAPACITY
  dataSection : m.dataSection.length < 2 ^ 63
  elemSection : m.elemSection.length ≤ VecItem.word.capacity
  hintSection : m.hintSection.length < 2 ^ 63
  sourcePc : m.sourcePc < 2 ^ 32

/-- The encoding of a module without its last field. -/
def RwasmModule.encodeSections (variants : TrapCode.Numbering) (m : RwasmModule) : List Byte :=
  encodeWord 1 RWASM_MAGIC_BYTE_0 ++ (encodeWord 1 RWASM_MAGIC_BYTE_1 ++
    (encodeWord 1 RWASM_VERSION_V1 ++ (InstructionSet.encode variants m.codeSection ++
      (encodeBytes m.dataSection ++ (encodeWords m.elemSection ++ encodeBytes m.hintSection)))))

/-- The last field of a module is where it starts from source. -/
lemma RwasmModule.encode_eq (m : RwasmModule) :
    m.encode variants = m.encodeSections variants ++ encodeWord 4 m.sourcePc := by
  simp only [encode, encodeSections, List.append_assoc]

/-- The last field is read when it is there, and missing as a whole otherwise. -/
lemma codes_sourcePc {pc : Nat} (h : pc < 2 ^ 32) :
    ((decodeWord 4).orDefault DecodeError.isMissingWord 0).CodesOptional (encodeWord 4 pc) pc []
      0 := by
  have len : (encodeWord 4 pc).length = 4 := UntypedValue.length_intoLeBytes 4 pc
  have word := @Decoder.CodesOptional.word VecItem _ _ _ (encodeWord 4 pc) DecodeError.unexpectedEnd
    DecodeError.isMissingWord UntypedValue.fromLeBytes 0 (by rw [len]; decide) (by rw [len]; decide)
    (fun n lt => decide_eq_false (by omega))
  rw [len] at word
  have back : UntypedValue.fromLeBytes (encodeWord 4 pc) = pc := fromLeBytes_intoLeBytes h
  rw [back] at word
  exact word

/-- The decoder of modules takes an encoding to its module, and its sections alone to the module
that starts at `0`. -/
lemma codes_module {m : RwasmModule} (h : m.Representable) :
    (RwasmModule.decode variants).CodesOptional (m.encode variants) m (m.encodeSections variants)
      { m with sourcePc := 0 } := by
  have magic0 : RWASM_MAGIC_BYTE_0 < 256 ^ 1 := by decide
  have magic1 : RWASM_MAGIC_BYTE_1 < 256 ^ 1 := by decide
  have version : RWASM_VERSION_V1 < 256 ^ 1 := by decide
  have last := (codes_sourcePc h.sourcePc).map fun pc => { m with sourcePc := pc }
  refine Decoder.CodesOptional.bind (codes_word magic0) (Decoder.CodesOptional.bind (codes_word magic1) ?_)
  rw [if_neg (by decide)]
  refine Decoder.CodesOptional.bind (codes_word version) ?_
  rw [if_neg (by decide)]
  refine Decoder.CodesOptional.bind (codes_instructionSet h.opcodes h.codeSection) ?_
  refine Decoder.CodesOptional.bind (codes_bytes h.dataSection) ?_
  refine Decoder.CodesOptional.bind (codes_words h.elemSection) ?_
  exact Decoder.CodesOptional.bind_nil (codes_bytes h.hintSection) last

variable {m : RwasmModule}

/-- An encoding, and whatever follows, is decoded to its module. -/
lemma newChecked_append (h : m.Representable) (tail : List Byte) :
    (RwasmModule.newChecked variants (m.serialize variants ++ tail)).result =
      .ok (m, (m.serialize variants).length) := by
  obtain ⟨reserved, eq⟩ := (@codes_module variants m h).reads tail []
  rw [RwasmModule.newChecked, RwasmModule.serialize, eq]
  simp

/-- The sections alone are decoded to the module that starts at `0`. -/
lemma newChecked_sections (h : m.Representable) :
    (RwasmModule.newChecked variants (m.encodeSections variants)).result =
      .ok ({ m with sourcePc := 0 }, (m.encodeSections variants).length) := by
  obtain ⟨reserved, eq⟩ := (@codes_module variants m h).readsCore []
  rw [RwasmModule.newChecked, eq]
  simp

/-- Other prefixes of an encoding are refused. -/
lemma newChecked_truncated (h : m.Representable) {p : List Byte} (hp : p <+: m.serialize variants)
    (ne : p ≠ m.serialize variants) (neCore : p ≠ m.encodeSections variants) :
    ∃ e, (RwasmModule.newChecked variants p).result = .error (.error e) := by
  obtain ⟨e, r, eq⟩ := (@codes_module variants m h).truncated p hp ne neCore []
  refine ⟨e, ?_⟩
  rw [RwasmModule.newChecked, eq]

/-- Decoding takes back encoding: an encoding is decoded to its module, all of it and nothing else is
read, and no two modules share one. A part of an encoding is refused, unless it lacks the four bytes
of the last field and nothing else. -/
theorem serialize_roundTrip (variants : TrapCode.Numbering) (m : RwasmModule)
    (h : m.Representable) :
    (RwasmModule.newChecked variants (m.serialize variants)).result =
        .ok (m, (m.serialize variants).length) ∧
      (∀ m' : RwasmModule, m'.Representable → m'.serialize variants = m.serialize variants →
        m' = m) ∧
      (∀ tail, (RwasmModule.newChecked variants (m.serialize variants ++ tail)).result =
        .ok (m, (m.serialize variants).length)) ∧
      ∀ p, p <+: m.serialize variants → p ≠ m.serialize variants →
        if p.length + 4 = (m.serialize variants).length then
          (RwasmModule.newChecked variants p).result = .ok ({ m with sourcePc := 0 }, p.length)
        else
          ∃ e, (RwasmModule.newChecked variants p).result = .error (.error e) := by
  have whole : (RwasmModule.newChecked variants (m.serialize variants)).result =
      .ok (m, (m.serialize variants).length) := by
    simpa only [List.append_nil] using @newChecked_append variants m h []
  have split : m.serialize variants = m.encodeSections variants ++ encodeWord 4 m.sourcePc :=
    m.encode_eq
  have length : (m.serialize variants).length = (m.encodeSections variants).length + 4 := by
    rw [split, List.length_append, encodeWord, UntypedValue.length_intoLeBytes]
  refine ⟨whole, ?_, newChecked_append h, ?_⟩
  · intro m' h' same
    have whole' := @newChecked_append variants m' h' []
    rw [List.append_nil, same, whole] at whole'
    cases whole'
    rfl
  · intro p hp ne
    split_ifs with four
    · have core : p = m.encodeSections variants := by
        obtain ⟨q, eq⟩ := hp
        exact List.append_inj_left (eq.trans split) (by omega)
      rw [core]
      exact newChecked_sections h
    · refine newChecked_truncated h hp ne fun core => four ?_
      rw [core, length]

/-- The round trip of a module with a branch, a trap and two sections. -/
theorem serialize_roundTrip_small :
    let m : RwasmModule :=
      { codeSection := [.i32Const 7, .br (-1), .trap .outOfFuel], dataSection := [1, 2],
        elemSection := [3], sourcePc := 1 }
    (RwasmModule.newChecked .declared (m.serialize .declared)).result =
      .ok (m, (m.serialize .declared).length) :=
  (serialize_roundTrip .declared _
    ⟨by decide, by decide, by decide, by decide, by decide, by decide⟩).1

end Rwasm
