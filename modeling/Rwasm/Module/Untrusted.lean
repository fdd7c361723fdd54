import Rwasm.Module.Codec

/-!
# Decoding untrusted bytes

What `RwasmModule::new_checked` does on arbitrary bytes. Each of the four vectors of a module is preceded
by its length, which is read from the input and handed to the allocator unchecked; the rest of the decoder
neither panics nor reserves space.
-/

namespace Rwasm

open Codec

variable {variants : TrapCode.Numbering}

/-- The encodings of an element. -/
def VecItem.Encodes (variants : TrapCode.Numbering) : VecItem → List Byte → Prop
  | opcode, bytes => ∃ op : Opcode, bytes = op.encode variants
  | byte, bytes => bytes.length = 1
  | word, bytes => bytes.length = 4

/-- The fewest bytes that encode an element. An opcode takes at least the four bytes of its code. -/
def VecItem.least : VecItem → Nat
  | opcode | word => 4
  | byte => 1

/-- The bytes that were left can hold the elements that space was reserved for. -/
def FitsIn (variants : TrapCode.Numbering) (reservation : Reservation VecItem) : Prop :=
  ∃ elements : List (List Byte), elements.length = reservation.count ∧
    (∀ bytes ∈ elements, reservation.kind.Encodes variants bytes) ∧
    elements.flatten.length ≤ reservation.left

/-- A module and a number of bytes within the input, or an error, without a reservation that the
input cannot fill. -/
structure CheckedModule.Bounded (variants : TrapCode.Numbering) (sink : List Byte)
    (out : CheckedModule) : Prop where
  total : (∃ m n, out.result = .ok (m, n) ∧ n ≤ sink.length) ∨
    ∃ e, out.result = .error (.error e)
  reserved : ∀ reservation ∈ out.reserved, FitsIn variants reservation

/-! ## The length fields of an input -/

/-- What is left of some bytes behind `n` elements, if they begin with as many. -/
def VecItem.skip (variants : TrapCode.Numbering) (n : Nat) : VecItem → List Byte → Option (List Byte)
  | opcode, bytes =>
    match (Opcode.decode variants).times n ⟨bytes, []⟩ with
    | (.ok _, r) => some r.symbols
    | (.error _, _) => none
  | byte, bytes => if n ≤ bytes.length then some (bytes.drop n) else none
  | word, bytes => if 4 * n ≤ bytes.length then some (bytes.drop (4 * n)) else none

/-- The length fields of some vectors, as far as the bytes go: each one stands behind the elements of the
vector before it. -/
def lengthFields (variants : TrapCode.Numbering) :
    List VecItem → List Byte → List (Reservation VecItem)
  | [], _ => []
  | item :: items, bytes =>
    if 8 ≤ bytes.length then
      let n := UntypedValue.fromLeBytes (bytes.take 8)
      ⟨item, n, bytes.length - 8⟩ ::
        (item.skip variants n (bytes.drop 8)).elim [] (lengthFields variants items)
    else
      []

/-- The length fields of a byte string with the header of a module. -/
def claimedLengths (variants : TrapCode.Numbering) (sink : List Byte) : List (Reservation VecItem) :=
  match sink with
  | sig0 :: sig1 :: version :: rest =>
    if sig0.toNat = RWASM_MAGIC_BYTE_0 ∧ sig1.toNat = RWASM_MAGIC_BYTE_1 ∧
        version.toNat = RWASM_VERSION_V1 then
      lengthFields variants [.opcode, .byte, .word, .byte] rest
    else
      []
  | _ => []

/-- A length that a vector can have and that the bytes behind it can hold. -/
def Holds (field : Reservation VecItem) : Prop :=
  field.count ≤ field.kind.capacity ∧ field.kind.least * field.count ≤ field.left

/-! ## The decoder -/

/-- A word is read without a reservation. -/
lemma contained_word (n : Nat) : (decodeWord n).Contained :=
  (Decoder.Contained.take _ n).bind fun _ => .pure _

/-- So is a trap code. -/
lemma contained_trapCode : (TrapCode.decode variants).Contained := by
  refine (contained_word 4).bind fun v => ?_
  split
  · exact .pure _
  · exact .fail _

/-- So are the operands of an opcode. -/
lemma contained_shape (shape : Shape) : (shape.decode variants).Contained := by
  cases shape with
  | plain op => exact .pure op
  | u16 make => exact (contained_word 2).bind fun _ => .pure _
  | u16Pair make => exact (contained_word 2).bind fun _ => (contained_word 2).bind fun _ => .pure _
  | u32 make => exact (contained_word 4).bind fun _ => .pure _
  | i32 make => exact ((contained_word 4).bind fun _ => .pure _).bind fun _ => .pure _
  | trapCode make => exact contained_trapCode.bind fun _ => .pure _

/-- So is an opcode. -/
lemma contained_opcode : (Opcode.decode variants).Contained := by
  refine (contained_word 4).bind fun code => ?_
  split
  · exact contained_shape _
  · exact .fail _

/-- A word that is there. -/
lemma decodeWord_eq {n : Nat} {bytes : List Byte} {reserved} (h : n ≤ bytes.length) :
    decodeWord n ⟨bytes, reserved⟩ =
      (.ok (UntypedValue.fromLeBytes (bytes.take n)), ⟨bytes.drop n, reserved⟩) :=
  Decoder.bind_ok (if_pos h)

/-- A word that is cut off. -/
lemma decodeWord_short {n : Nat} {bytes : List Byte} {reserved} (h : bytes.length < n) :
    decodeWord n ⟨bytes, reserved⟩ =
      (.error (.error (.unexpectedEnd (n - bytes.length))), ⟨bytes, reserved⟩) :=
  Decoder.bind_stop (Decoder.take_of_lt (r := ⟨bytes, reserved⟩) h)

/-- The elements of a vector leave what `skip` says. -/
lemma skips_opcodes (n : Nat) :
    ((Opcode.decode variants).times n).Skips (VecItem.opcode.skip variants n) := by
  intro bytes reserved
  have contained : ((Opcode.decode variants).times n).Contained := contained_opcode.times n
  obtain ⟨out, rest, eq⟩ := contained bytes
  rw [VecItem.skip, eq, eq]
  cases out with
  | ok ops => exact ⟨ops, rfl⟩
  | error e => exact ⟨e, rest, rfl⟩

/-- Reading bytes moves on by their number. -/
lemma skips_bytes (n : Nat) : (Decoder.take DecodeError.unexpectedEnd n : Decode _).Skips
    (VecItem.byte.skip variants n) := by
  intro bytes reserved
  rw [VecItem.skip]
  by_cases fits : n ≤ bytes.length
  · rw [if_pos fits]
    exact ⟨_, if_pos fits⟩
  · rw [if_neg fits]
    exact ⟨_, _, if_neg fits⟩

/-- Reading words moves on word by word. -/
lemma skips_words (n : Nat) :
    ((decodeWord 4).times n).Skips (VecItem.word.skip variants n) := by
  intro bytes reserved
  rw [VecItem.skip]
  induction n generalizing bytes with
  | zero =>
    rw [if_pos (Nat.zero_le _)]
    exact ⟨[], rfl⟩
  | succ n ih =>
    by_cases four : 4 ≤ bytes.length
    · have rest := ih (bytes.drop 4)
      have first : decodeWord 4 ⟨bytes, reserved⟩ = (.ok _, ⟨bytes.drop 4, reserved⟩) :=
        decodeWord_eq four
      have step : (decodeWord 4).times (n + 1) ⟨bytes, reserved⟩ = _ := Decoder.bind_ok first
      rw [step]
      rw [List.length_drop, List.drop_drop] at rest
      by_cases fits : 4 * (n + 1) ≤ bytes.length
      · have fits' : 4 * n ≤ bytes.length - 4 := by omega
        rw [if_pos fits'] at rest
        obtain ⟨words, eq⟩ := rest
        rw [if_pos fits, Decoder.bind_ok eq, show 4 * (n + 1) = 4 + 4 * n by omega]
        exact ⟨_, rfl⟩
      · have fits' : ¬ 4 * n ≤ bytes.length - 4 := by omega
        rw [if_neg fits'] at rest
        obtain ⟨e, left, eq⟩ := rest
        rw [if_neg fits]
        exact ⟨e, left, Decoder.bind_stop eq⟩
    · have fits : ¬ 4 * (n + 1) ≤ bytes.length := by omega
      rw [if_neg fits]
      exact ⟨_, bytes, Decoder.bind_stop (decodeWord_short (Nat.lt_of_not_le four))⟩

/-- A vector asks for the space its length field claims, and what follows it for what it does. -/
lemma claims_vector {item : VecItem} {items : List VecItem} {α γ : Type} {elements : Nat → Decode α}
    {f : α → Decode γ} (skips : ∀ n, (elements n).Skips (item.skip variants n))
    (hf : ∀ a, (f a).Claims VecItem.capacity (lengthFields variants items)) :
    (decodeWord 8 >>= fun length => Decoder.reserve item item.capacity length >>= fun _ =>
        elements length >>= f).Claims VecItem.capacity (lengthFields variants (item :: items)) := by
  intro bytes reserved
  rw [lengthFields]
  by_cases eight : 8 ≤ bytes.length
  · have length : decodeWord 8 ⟨bytes, reserved⟩ = (.ok _, ⟨bytes.drop 8, reserved⟩) :=
      decodeWord_eq eight
    have behind (n : Nat) := Decoder.Claims.bind (skips n) hf
    rw [if_pos eight, Decoder.bind_ok length, ← List.length_drop]
    exact (behind _).reserve (bytes.drop 8) reserved
  · rw [if_neg eight, Decoder.bind_stop (decodeWord_short (Nat.lt_of_not_le eight))]
    exact ⟨fun _ => ⟨nofun, rfl⟩, fun ⟨_, mem, _⟩ => absurd mem List.not_mem_nil⟩

/-- The sections behind the header. -/
def decodeSections (variants : TrapCode.Numbering) : Decode RwasmModule := do
  let codeSection ← InstructionSet.decode variants
  let dataSection ← decodeBytes
  let elemSection ← decodeWords
  let hintSection ← decodeBytes
  let sourcePc ← (decodeWord 4).orDefault DecodeError.isMissingWord 0
  pure { codeSection, dataSection, elemSection, hintSection, sourcePc }

/-- They ask for the space that the length fields of the four vectors claim. -/
lemma claims_sections : (decodeSections variants).Claims VecItem.capacity
    (lengthFields variants [.opcode, .byte, .word, .byte]) := by
  unfold decodeSections InstructionSet.decode decodeBytes decodeWords
  simp only [Decoder.bind_bind]
  refine claims_vector skips_opcodes fun codeSection => ?_
  refine claims_vector skips_bytes fun dataSection => ?_
  refine claims_vector skips_words fun words => ?_
  refine claims_vector skips_bytes fun hintSection => ?_
  have last : ((decodeWord 4).orDefault DecodeError.isMissingWord 0).Contained :=
    (contained_word 4).orDefault _ _
  exact (last.bind fun _ => .pure _).claims

/-- The decoder reports an error in the header, or goes on with the sections behind it. -/
lemma decode_cases (variants : TrapCode.Numbering) (sink : List Byte) :
    (claimedLengths variants sink = [] ∧ ∃ e bytes, RwasmModule.decode variants ⟨sink, []⟩ =
      (.error (.error e), ⟨bytes, []⟩)) ∨
    ∃ rest, claimedLengths variants sink =
        lengthFields variants [.opcode, .byte, .word, .byte] rest ∧
      RwasmModule.decode variants ⟨sink, []⟩ = decodeSections variants ⟨rest, []⟩ := by
  rcases sink with _ | ⟨sig0, _ | ⟨sig1, rest⟩⟩
  · exact .inl ⟨rfl, _, _, Decoder.bind_stop (decodeWord_short Nat.one_pos)⟩
  · exact .inl ⟨rfl, _, _, (Decoder.bind_ok (decodeWord_eq (Nat.le_refl 1))).trans
      (Decoder.bind_stop (decodeWord_short Nat.one_pos))⟩
  have signature : RwasmModule.decode variants ⟨sig0 :: sig1 :: rest, []⟩ = _ :=
    (Decoder.bind_ok (decodeWord_eq (Nat.le_add_left 1 _))).trans
      (Decoder.bind_ok (decodeWord_eq (Nat.le_add_left 1 _)))
  rw [signature]
  have word (b : Byte) (bs : List Byte) : UntypedValue.fromLeBytes ((b :: bs).take 1) = b.toNat := by
    simp [UntypedValue.fromLeBytes]
  simp only [List.drop_succ_cons, List.drop_zero, word]
  by_cases magic : sig0.toNat ≠ RWASM_MAGIC_BYTE_0 ∨ sig1.toNat ≠ RWASM_MAGIC_BYTE_1
  · rw [if_pos magic]
    refine .inl ⟨?_, _, _, rfl⟩
    rcases rest with _ | ⟨version, rest⟩
    · rfl
    · exact if_neg fun h => magic.elim (fun ne => ne h.1) fun ne => ne h.2.1
  rw [if_neg magic]
  push Not at magic
  rcases rest with _ | ⟨version, rest⟩
  · exact .inl ⟨rfl, _, _, Decoder.bind_stop (decodeWord_short Nat.one_pos)⟩
  rw [Decoder.bind_ok (decodeWord_eq (Nat.le_add_left 1 _))]
  simp only [List.drop_succ_cons, List.drop_zero, word]
  by_cases supported : version.toNat ≠ RWASM_VERSION_V1
  · rw [if_pos supported]
    exact .inl ⟨if_neg fun h => supported h.2.2, _, _, rfl⟩
  rw [if_neg supported]
  push Not at supported
  exact .inr ⟨rest, if_pos ⟨magic.1, magic.2, supported⟩, rfl⟩

/-! ## The input bounds what is reserved -/

/-- An opcode takes four bytes at least. -/
lemma four_le_length_encode (op : Opcode) : 4 ≤ (op.encode variants).length := by
  rw [Opcode.encode, List.length_append, encodeWord, UntypedValue.length_intoLeBytes]
  exact Nat.le_add_right 4 _

/-- An item takes its least number of bytes at least. -/
lemma VecItem.least_le_length {item : VecItem} {bytes : List Byte}
    (h : item.Encodes variants bytes) : item.least ≤ bytes.length := by
  cases item with
  | opcode =>
    obtain ⟨op, rfl⟩ := h
    exact four_le_length_encode op
  | byte => exact h.ge
  | word => exact h.ge

/-- Some element takes no more than the fewest bytes. -/
lemma VecItem.exists_least (item : VecItem) :
    ∃ bytes, item.Encodes variants bytes ∧ bytes.length = item.least := by
  cases item with
  | opcode => exact ⟨Opcode.unreachable.encode variants, ⟨_, rfl⟩, rfl⟩
  | byte => exact ⟨[0], rfl, rfl⟩
  | word => exact ⟨[0, 0, 0, 0], rfl, rfl⟩

/-- Elements fit if as many of the shortest ones do. -/
lemma fitsIn_iff {reservation : Reservation VecItem} :
    FitsIn variants reservation ↔
      reservation.kind.least * reservation.count ≤ reservation.left := by
  constructor
  · rintro ⟨elements, length, encode, fits⟩
    rw [← length]
    refine le_trans ?_ fits
    clear length fits
    induction elements with
    | nil => exact Nat.zero_le _
    | cons bytes elements ih =>
      have first := VecItem.least_le_length (encode bytes List.mem_cons_self)
      have rest := ih fun b mem => encode b (List.mem_cons_of_mem _ mem)
      rw [List.length_cons, List.flatten_cons, List.length_append, Nat.mul_succ]
      omega
  · intro fits
    obtain ⟨bytes, encodes, short⟩ := @VecItem.exists_least variants reservation.kind
    refine ⟨List.replicate reservation.count bytes, List.length_replicate,
      fun b mem => List.eq_of_mem_replicate mem ▸ encodes, ?_⟩
    rw [List.length_flatten, List.map_replicate, List.sum_replicate, short, smul_eq_mul, mul_comm]
    exact fits

/-- The decoder is total and bounded on a byte string exactly when every length field that it gets to is
one that a vector can have, and the elements it claims fit in the bytes that follow. -/
theorem newChecked_bounded_iff (variants : TrapCode.Numbering) (sink : List Byte) :
    (RwasmModule.newChecked variants sink).Bounded variants sink ↔
      ∀ field ∈ claimedLengths variants sink, Holds field := by
  rcases decode_cases variants sink with ⟨none, e, bytes, eq⟩ | ⟨rest, fields, eq⟩
  · have out : RwasmModule.newChecked variants sink = ⟨.error (.error e), []⟩ := by
      rw [RwasmModule.newChecked, eq]
    rw [out, none]
    exact iff_of_true ⟨.inr ⟨e, rfl⟩, nofun⟩ nofun
  · obtain ⟨calm, loud⟩ := @claims_sections variants rest []
    rw [← fields] at calm loud
    rw [List.append_nil] at calm
    by_cases within : ∀ field ∈ claimedLengths variants sink, field.count ≤ field.kind.capacity
    · obtain ⟨quiet, held⟩ := calm within
      have reserved : (RwasmModule.newChecked variants sink).reserved =
          (claimedLengths variants sink).reverse := by
        refine Eq.trans ?_ held
        rw [RwasmModule.newChecked, eq]
        split <;> rename_i h <;> rw [h]
      constructor
      · rintro ⟨-, fits⟩ field mem
        refine ⟨within field mem, fitsIn_iff.mp (fits field ?_)⟩
        rw [reserved]
        exact List.mem_reverse.mpr mem
      · intro holds
        refine ⟨?_, fun reservation mem => ?_⟩
        · rw [RwasmModule.newChecked, eq]
          rcases out : decodeSections variants ⟨rest, []⟩ with ⟨(e | _) | m, r⟩
          · exact .inr ⟨e, rfl⟩
          · exact absurd (by rw [out]) quiet
          · exact .inl ⟨m, _, rfl, Nat.sub_le _ _⟩
        · rw [reserved, List.mem_reverse] at mem
          exact fitsIn_iff.mpr (holds reservation mem).2
    · refine iff_of_false ?_ fun holds => within fun field mem => (holds field mem).1
      push Not at within
      have panics := loud within
      rintro ⟨ok, -⟩
      rw [RwasmModule.newChecked, eq] at ok
      rcases out : decodeSections variants ⟨rest, []⟩ with ⟨result, r⟩
      rw [out] at panics ok
      dsimp only at panics
      subst panics
      rcases ok with ⟨_, _, h, _⟩ | ⟨_, h⟩
      · cases h
      · cases h

/-- Eleven bytes that claim `2^64 - 1` opcodes make the decoder panic. -/
theorem not_newChecked_bounded :
    ¬ (RwasmModule.newChecked .declared
        [0xef, 0x52, 0x01, 0xff, 0xff, 0xff, 0xff, 0xff, 0xff, 0xff, 0xff]).Bounded .declared
      [0xef, 0x52, 0x01, 0xff, 0xff, 0xff, 0xff, 0xff, 0xff, 0xff, 0xff] := by
  rintro ⟨⟨_, _, h, _⟩ | ⟨_, h⟩, _⟩
  · cases h
  · cases h

end Rwasm
