import Rwasm.Compiler.EntrypointCalls

/-!
# The layout of a compiled module

The code section of a module is its entrypoint, followed by the functions in the order of their numbers and
by the functions of the snippets that are called. Each instruction that names a function, and each element,
holds the address of the function it was emitted for.
-/

namespace Rwasm

open Opcode ModuleParser

/-- What the code section of a module is put together from. -/
structure Layout where
  entrypoint : List Opcode
  imported : List (List Emission)
  bodies : List (List Emission)
  snippets : List Snippet

namespace Layout

variable (l : Layout)

/-- The functions, of which the snippets come last. -/
def units : List (List Emission) :=
  l.imported ++ l.bodies ++ l.snippets.map fun s => (snippetCode s).map Opcode.emission

/-- All the instructions, in order. -/
def emissions : List Emission :=
  l.entrypoint.map Opcode.emission ++ l.units.flatten

/-- Where a function begins. -/
def start (k : Nat) : Nat :=
  l.entrypoint.length + startOf l.units k

/-- The function that is meant by a reference. -/
def unit? : Reference → Option Nat
  | .null => none
  | .func f => some f
  | .snippet s => some (l.imported.length + l.bodies.length + l.snippets.idxOf s)

/-- The address of a reference: where its function begins, and `0` for null. -/
def address (r : Reference) : Nat :=
  match l.unit? r with
  | some k => l.start k
  | none => 0

/-- The function of a reference is there. -/
def Has (r : Reference) : Prop :=
  ∀ k, l.unit? r = some k → k < l.units.length

/-- The instruction with the address of what it was emitted for. -/
def place (e : Emission) : Opcode :=
  match e.target with
  | some r => e.op.relocated fun _ => l.address r
  | none => e.op

variable {l}

/-- How many units a layout has. -/
lemma length_units :
    l.units.length = l.imported.length + l.bodies.length + l.snippets.length := by
  rw [units, List.length_append, List.length_append, List.length_map]

/-- The emissions of a layout, unit by unit. -/
lemma emissions_eq : l.emissions = l.entrypoint.map Opcode.emission ++
    ((l.imported ++ l.bodies).flatten ++ ((l.snippets.map snippetCode).flatten).map Opcode.emission) := by
  rw [emissions, units, List.flatten_append, List.map_flatten, List.map_map]
  rfl

/-- No function is empty. -/
def Inhabited (l : Layout) : Prop :=
  l.entrypoint ≠ [] ∧ ∀ unit ∈ l.units, unit ≠ []

/-- Different functions begin at different places, behind the entrypoint. -/
lemma Inhabited.start_lt {j k : Nat} (h : l.Inhabited) (lt : j < k) (le : k ≤ l.units.length) :
    l.start j < l.start k :=
  Nat.add_lt_add_left (startOf_lt h.2 lt le) _

/-- A function is told by where it begins. -/
lemma Inhabited.start_inj {j k : Nat} (h : l.Inhabited) (hj : j < l.units.length) (hk : k < l.units.length)
    (same : l.start j = l.start k) : j = k := by
  rcases Nat.lt_trichotomy j k with lt | eq | lt
  · exact absurd same (h.start_lt lt (Nat.le_of_lt hk)).ne
  · exact eq
  · exact absurd same (h.start_lt lt (Nat.le_of_lt hj)).ne'

/-- No unit starts at address zero, where the entrypoint does. -/
lemma Inhabited.start_pos {k : Nat} (h : l.Inhabited) : 0 < l.start k :=
  Nat.lt_of_lt_of_le (List.length_pos_of_ne_nil h.1) (Nat.le_add_right _ _)

/-- Only null has the address `0`. -/
lemma Inhabited.unit?_eq_none {r : Reference} (h : l.Inhabited) (null : l.address r = 0) :
    l.unit? r = none := by
  unfold address at null
  cases hr : l.unit? r with
  | none => rfl
  | some k =>
    rw [hr] at null
    exact absurd null h.start_pos.ne'

/-- Different references have different addresses. -/
lemma Inhabited.address_inj {r r' : Reference} (h : l.Inhabited) (has : l.Has r) (has' : l.Has r')
    (same : l.address r = l.address r') : l.unit? r = l.unit? r' := by
  unfold address at same
  cases hr : l.unit? r with
  | none =>
    rw [hr] at same
    cases hr' : l.unit? r' with
    | none => rfl
    | some k' =>
      rw [hr'] at same
      exact absurd same.symm h.start_pos.ne'
  | some k =>
    rw [hr] at same
    cases hr' : l.unit? r' with
    | none =>
      rw [hr'] at same
      exact absurd same h.start_pos.ne'
    | some k' =>
      rw [hr'] at same
      exact congrArg some (h.start_inj (has k hr) (has' k' hr') same)

/-- The instructions before a function, the entrypoint apart. -/
def before (l : Layout) (k : Nat) : List Emission :=
  (l.units.take k).flatten

/-- A module has this layout. Its code is that of the entrypoint which `q` was assembled with, of the
trampolines and function bodies as they were translated, from the types in `p₀` on, and of the snippets, each
instruction with the address of what it was emitted for. The numbers of its functions are those of the
imported functions and of the function bodies; `cx` is what the bodies were translated in, and `vals` are the
values of its globals. -/
structure Describes (l : Layout) (policy : FuelPolicy) (config : CompilationConfig) (wasm : WasmModule)
    (p₀ q : ModuleParser) (cx : Context) (vals : List Value) (m : RwasmModule) : Prop where
  inhabited : l.Inhabited
  assembled : l.entrypoint = q.segmentBuilder.entrypointBytecode
  entrypoint : Explained config wasm cx vals l.entrypoint
  imported : List.Forall₂ (Imported policy config) (wasm.imports.filterMap Import.func?) l.imported
  trampolines : Trampolines policy config p₀ wasm.imports l.imported
  bodies : Bodies cx l.imported wasm.functions l.bodies
  nodup : l.snippets.Nodup
  called : ∀ s, s ∈ l.snippets ↔ ∃ e ∈ (l.imported ++ l.bodies).flatten, e.snippet? = some s
  known : ∀ e ∈ l.emissions, ∀ r, e.target = some r → l.Has r
  code : m.codeSection = l.emissions.map l.place
  elements : ∃ elements, wasm.elements.mapM (Element.segment vals) = some elements ∧
    (∀ b ∈ elements.flatMap ElementSegment.elements, l.Has (.ofNumber b.toNat)) ∧
    m.elemSection = (elements.flatMap ElementSegment.elements).map fun b =>
      BitVec.ofNat 32 (l.address (.ofNumber b.toNat))

/-- An instruction of the layout is emitted for something: one of the entrypoint, or one that an operator of
a function body is translated to. -/
inductive EmittedAt (l : Layout) (config : CompilationConfig) (wasm : WasmModule) (cx : Context)
    (vals : List Value) : Nat → Opcode → Reference → Prop
  | entrypoint {i : Nat} {o : Opcode} {r : Reference} :
    l.entrypoint[i]? = some o →
    EntrypointRefers config wasm cx vals o r →
    EmittedAt l config wasm cx vals i o r
  | body {j loc : Nat} {body : FuncBody} {t : InstructionTranslator} {o : Opcode} {r : Reference} :
    wasm.functions[j]? = some body →
    FuncBuilder.enter cx (l.imported.length + j) body.locals
      ((l.before (l.imported.length + j)).map Emission.op)
      (snippetCallsFrom 0 (l.before (l.imported.length + j))) = .ok t →
    InstructionTranslator.VisitedAt cx body.operators t loc o r →
    EmittedAt l config wasm cx vals (l.entrypoint.length + loc) o r

/-- The numbers of functions in a module are addresses. Other than `0`, the number in an instruction is where
the function that it was emitted for begins, and so is an element; `0` is what it was emitted with. All the
functions stand where they begin, at different addresses. -/
structure Resolves (l : Layout) (config : CompilationConfig) (wasm : WasmModule) (cx : Context)
    (vals : List Value) (m : RwasmModule) : Prop where
  code : ∀ i op n, m.codeSection[i]? = some op → op.funcNumber = some n → n ≠ 0 →
    ∃ o r k, l.EmittedAt config wasm cx vals i o r ∧ op = o.relocated (fun _ => n) ∧
      l.unit? r = some k ∧ k < l.units.length ∧ n = l.start k
  null : ∀ i op, m.codeSection[i]? = some op → op.funcNumber = some 0 →
    l.EmittedAt config wasm cx vals i op .null
  elements : ∃ elements, wasm.elements.mapM (Element.segment vals) = some elements ∧
    List.Forall₂ (fun b x => (b = 0 → x = 0) ∧ ∀ f, b.toNat = f + 1 →
      f < l.units.length ∧ x = BitVec.ofNat 32 (l.start f))
      (elements.flatMap ElementSegment.elements) m.elemSection
  stands : ∀ k unit j e, l.units[k]? = some unit → unit[j]? = some e →
    m.codeSection[l.start k + j]? = some (l.place e)
  apart : ∀ j < l.units.length, ∀ k < l.units.length, l.start j = l.start k → j = k
  pos : ∀ k, l.start k ≠ 0

end Layout

namespace ModuleParser

variable {offsets : List Nat} {len n : Nat}

/-! ## Links -/

/-- Only functions that are there have an address. -/
lemma address_known {a : Nat} (h : address offsets len n = .ok a) : n ≤ offsets.length := by
  unfold address at h
  split at h
  next pos =>
    simp only [Compile.bind_ok, Compile.unwrap_ok] at h
    obtain ⟨offset, found, -⟩ := h
    have lt := (List.getElem?_eq_some_iff.mp found).1
    omega
  next zero => omega

/-- A function that is relocated is one of the table. -/
lemma relocate_known {op op' : Opcode} (named : op.funcNumber = some n)
    (h : relocate offsets len op = .ok op') : n ≤ offsets.length := by
  cases op <;> cases named
  all_goals
    obtain ⟨a, ha, -⟩ := Compile.bind_ok.mp h
    exact address_known ha

/-- A step that is taken for each element is taken for every one. -/
lemma exists_of_mapM_ok {α β : Type} {f : α → Compile β} {as : List α} {bs : List β} {a : α}
    (h : as.mapM f = .ok bs) (mem : a ∈ as) : ∃ b, f a = .ok b := by
  induction as generalizing bs with
  | nil => cases mem
  | cons a' as ih =>
    rw [List.mapM_cons] at h
    obtain ⟨b, hb, h⟩ := Compile.bind_ok.mp h
    obtain ⟨bs', hbs, -⟩ := Compile.bind_ok.mp h
    rcases List.mem_cons.mp mem with rfl | mem
    · exact ⟨b, hb⟩
    · exact ih hbs mem

end ModuleParser

namespace Layout

variable {l : Layout} {offsets : List Nat} {n : Nat}

/-- A number up to that of the last function stands for a function that is there, and its address is the
one it is linked to. -/
lemma has_ofNumber (known : n ≤ l.units.length) : l.Has (.ofNumber n) := by
  cases n with
  | zero => nofun
  | succ f =>
    rintro _ ⟨⟩
    exact known

/-- The table of offsets gives the addresses of the layout. -/
lemma addressOf_eq (numbered : offsets = (List.range l.units.length).map (startOf l.units))
    (known : n ≤ l.units.length) :
    addressOf offsets l.entrypoint.length n = l.address (.ofNumber n) := by
  cases n with
  | zero => rfl
  | succ f =>
    have offset : offsets.getD f 0 = startOf l.units f := by
      rw [numbered, List.getD_eq_getElem?_getD, List.getElem?_map, List.getElem?_range known]
      rfl
    rw [addressOf, if_pos (Nat.succ_pos f), Nat.add_sub_cancel, offset, Nat.add_comm]
    rfl

/-- The number of the function of a snippet. -/
def numberOf (l : Layout) (s : Snippet) : Nat :=
  l.imported.length + l.bodies.length + l.snippets.idxOf s

/-- Linking and relocating an instruction puts the address of what it was emitted for into it. -/
lemma linked_relocated {e : Emission} {addr : Nat → Nat}
    (addressed : ∀ n, (linkCall l.numberOf e e.op).funcNumber = some n →
      addr n = l.address (.ofNumber n)) :
    (linkCall l.numberOf e e.op).relocated addr = l.place e := by
  rcases e.named with target | ⟨s, target, call⟩
  · have plain : linkCall l.numberOf e e.op = e.op := by
      rw [linkCall, Emission.snippet?, target]
      cases e.op.funcNumber with
      | none => rfl
      | some n => cases n <;> rfl
    rw [plain] at addressed ⊢
    rw [place, target]
    cases named : e.op.funcNumber with
    | none =>
      generalize e.op = op at named
      cases op <;> first | rfl | cases named
    | some n =>
      have address := addressed n named
      rw [Option.map_some]
      dsimp only
      rw [← address]
      generalize e.op = op at named
      cases op <;> cases named <;> rfl
  · have linked : linkCall l.numberOf e e.op = callInternal (l.numberOf s + 1) := by
      rw [linkCall, Emission.snippet?, target]
    rw [linked] at addressed ⊢
    rw [place, target, call]
    show callInternal (addr (l.numberOf s + 1)) = _
    rw [addressed _ rfl]
    rfl

/-- So it does for all of them. -/
lemma linked_relocated_all {es : List Emission} {addr : Nat → Nat}
    (addressed : ∀ op ∈ List.zipWith (linkCall l.numberOf) es (es.map Emission.op), ∀ n,
      op.funcNumber = some n → addr n = l.address (.ofNumber n)) :
    (List.zipWith (linkCall l.numberOf) es (es.map Emission.op)).map (Opcode.relocated addr) =
      es.map l.place := by
  induction es with
  | nil => rfl
  | cons e es ih =>
    rw [List.map_cons, List.zipWith_cons_cons] at addressed ⊢
    rw [List.map_cons, List.map_cons, linked_relocated (addressed _ (.head _)),
      ih fun op mem => addressed op (.tail _ mem)]

/-- Instructions that name functions by their numbers. -/
lemma emission_relocated {ops : List Opcode} {addr : Nat → Nat}
    (addressed : ∀ op ∈ ops, ∀ n, op.funcNumber = some n → addr n = l.address (.ofNumber n)) :
    ops.map (Opcode.relocated addr) = (ops.map Opcode.emission).map l.place := by
  have plain : ∀ ops : List Opcode,
      List.zipWith (linkCall l.numberOf) (ops.map Opcode.emission) ops = ops := by
    intro ops
    induction ops with
    | nil => rfl
    | cons op ops ih =>
      rw [List.map_cons, List.zipWith_cons_cons, ih, linkCall, Opcode.snippet?_emission]
  have linked := @linked_relocated_all l (ops.map Opcode.emission) addr
  rw [op_emission, plain] at linked
  exact linked addressed

end Layout

namespace Layout

section Linked

variable {l : Layout} {p q : ModuleParser} {emitted : List (Snippet × Nat)} {m : RwasmModule} {pc : Nat}
  {binary : List Byte}

/-- What a layout consists of: the functions, behind which the snippets they call were emitted, and the
entrypoint. -/
structure Assembled (l : Layout) (p q : ModuleParser) (emitted : List (Snippet × Nat)) : Prop where
  entrypoint : q.segmentBuilder.entrypointBytecode = l.entrypoint
  laid : p.Laid (l.imported ++ l.bodies)
  linked : p.Linked l.snippets emitted
    (List.zipWith (linkCall l.numberOf) (l.imported ++ l.bodies).flatten p.instructionSet) q
  called : ∀ s, s ∈ l.snippets ↔ ∃ e ∈ (l.imported ++ l.bodies).flatten, e.snippet? = some s

namespace Assembled

/-- The parser's table of offsets is that of the layout. -/
lemma numbered (h : l.Assembled p q emitted) :
    q.funcOffsets = (List.range l.units.length).map (startOf l.units) := by
  have snippets : ∀ k, startOf (l.snippets.map fun s => (snippetCode s).map Opcode.emission) k =
      startOf (l.snippets.map snippetCode) k := by
    intro k
    have map := @startOf_map _ (l.snippets.map snippetCode) k _ Opcode.emission
    rwa [List.map_map] at map
  have behind : (List.zipWith (linkCall l.numberOf) (l.imported ++ l.bodies).flatten
      p.instructionSet).length = (l.imported ++ l.bodies).flatten.length := by
    rw [h.linked.length, h.laid.length]
  have count : l.units.length = (l.imported ++ l.bodies).length + l.snippets.length := by
    rw [length_units, List.length_append]
  rw [h.linked.funcOffsets, h.laid.funcOffsets, behind, count, List.range_add, List.map_append,
    List.map_map]
  refine congrArg₂ (· ++ ·) (List.map_congr_left fun k mem => ?_) (List.map_congr_left fun k _ => ?_)
  · exact (startOf_append (Nat.le_of_lt (List.mem_range.mp mem))).symm
  · rw [Function.comp_apply, units, startOf_append_right, snippets]

/-- The instructions of a module that is linked name functions that are there. -/
lemma addressed (h : l.Assembled p q emitted) (linked : q.link pc binary = .ok m) :
    ∀ op ∈ l.entrypoint ++ q.instructionSet, ∀ n, op.funcNumber = some n → n ≤ l.units.length := by
  intro op mem n named
  simp only [link, Compile.bind_ok] at linked
  obtain ⟨code, relocated, -⟩ := linked
  rw [h.entrypoint] at relocated
  obtain ⟨op', step⟩ := exists_of_mapM_ok relocated mem
  have known := relocate_known named step
  rwa [h.numbered, List.length_map, List.length_range] at known

/-- The address the parser looks up is that of the layout. -/
lemma addressOf (h : l.Assembled p q emitted) {n : Nat} (known : n ≤ l.units.length) :
    addressOf q.funcOffsets q.segmentBuilder.entrypointBytecode.length n = l.address (.ofNumber n) := by
  rw [h.entrypoint]
  exact addressOf_eq h.numbered known

/-- The code section holds the instructions of the layout with their addresses. -/
lemma code (h : l.Assembled p q emitted) (linked : q.link pc binary = .ok m) :
    m.codeSection = l.emissions.map l.place := by
  have addresses : ∀ op ∈ l.entrypoint ++ q.instructionSet, ∀ n, op.funcNumber = some n →
      ModuleParser.addressOf q.funcOffsets q.segmentBuilder.entrypointBytecode.length n =
        l.address (.ofNumber n) :=
    fun op mem n named => h.addressOf (h.addressed linked op mem n named)
  rw [(link_eq linked).1]
  rw [h.linked.instructionSet, h.laid.code] at addresses ⊢
  generalize ModuleParser.addressOf q.funcOffsets q.segmentBuilder.entrypointBytecode.length = addr
    at addresses ⊢
  have front := @emission_relocated l l.entrypoint addr fun op mem =>
    addresses op (List.mem_append_left _ mem)
  have middle := @linked_relocated_all l (l.imported ++ l.bodies).flatten addr
    fun op mem => addresses op (List.mem_append_right _ (List.mem_append_left _ mem))
  have back := @emission_relocated l (l.snippets.map snippetCode).flatten addr fun op mem =>
    addresses op (List.mem_append_right _ (List.mem_append_right _ mem))
  rw [h.entrypoint, List.map_append, List.map_append, front, middle, back, emissions_eq, List.map_append,
    List.map_append]

/-- The instructions of the layout stand for functions that are there. -/
lemma known (h : l.Assembled p q emitted) (linked : q.link pc binary = .ok m) :
    ∀ e ∈ l.emissions, ∀ r, e.target = some r → l.Has r := by
  have numbers := h.addressed linked
  rw [h.linked.instructionSet] at numbers
  have plain : ∀ op ∈ l.entrypoint ++ (l.snippets.map snippetCode).flatten, ∀ r,
      op.emission.target = some r → l.Has r := by
    intro op mem r target
    obtain ⟨n, named, rfl⟩ := Option.map_eq_some_iff.mp target
    refine has_ofNumber (numbers op ?_ n named)
    rcases List.mem_append.mp mem with mem | mem
    · exact List.mem_append_left _ mem
    · exact List.mem_append_right _ (List.mem_append_right _ mem)
  intro e mem r target
  rw [emissions_eq] at mem
  rcases List.mem_append.mp mem with mem | mem
  · obtain ⟨op, within_, rfl⟩ := List.mem_map.mp mem
    exact plain op (List.mem_append_left _ within_) r target
  rcases List.mem_append.mp mem with mem | mem
  · rcases e.named with named | ⟨s, snippet, -⟩
    · obtain ⟨n, number, rfl⟩ := Option.map_eq_some_iff.mp (named ▸ target)
      obtain ⟨k, found⟩ := List.mem_iff_getElem?.mp mem
      -- the instruction at its place is the one that was emitted
      have there : p.instructionSet[k]? = some e.op := by
        rw [h.laid.code, List.getElem?_map, found, Option.map_some]
      refine has_ofNumber (numbers e.op ?_ n number)
      refine List.mem_append_right _ (List.mem_append_left _ ?_)
      have plain : linkCall l.numberOf e e.op = e.op := by
        rw [linkCall, Emission.snippet?, target]
        cases n <;> rfl
      refine List.mem_of_getElem? (i := k) ?_
      rw [List.getElem?_zipWith_eq_some]
      exact ⟨_, _, found, there, plain⟩
    · have mem' : s ∈ l.snippets := (h.called s).mpr ⟨e, mem, by rw [Emission.snippet?, snippet]⟩
      cases snippet.symm.trans target
      rintro _ ⟨⟩
      rw [length_units]
      exact Nat.add_lt_add_left (List.idxOf_lt_length_of_mem mem') _
  · obtain ⟨op, within_, rfl⟩ := List.mem_map.mp mem
    exact plain op (List.mem_append_right _ within_) r target

/-- So do the elements. -/
lemma elements (h : l.Assembled p q emitted) (linked : q.link pc binary = .ok m) :
    (∀ b ∈ q.segmentBuilder.globalElementSection, l.Has (.ofNumber b.toNat)) ∧
      m.elemSection = q.segmentBuilder.globalElementSection.map fun b =>
        BitVec.ofNat 32 (l.address (.ofNumber b.toNat)) := by
  have known : ∀ b ∈ q.segmentBuilder.globalElementSection, b.toNat ≤ l.units.length := by
    intro b mem
    simp only [link, Compile.bind_ok] at linked
    obtain ⟨_, -, refs, relocated, -⟩ := linked
    obtain ⟨ref, step⟩ := exists_of_mapM_ok relocated mem
    obtain ⟨a, ha, -⟩ := Compile.bind_ok.mp step
    have bound := address_known ha
    rwa [h.numbered, List.length_map, List.length_range] at bound
  refine ⟨fun b mem => has_ofNumber (known b mem), ?_⟩
  rw [(link_eq linked).2.2]
  exact List.map_congr_left fun b mem => congrArg (BitVec.ofNat 32) (h.addressOf (known b mem))

end Assembled

end Linked

end Layout

namespace Layout.Describes

variable {l : Layout} {policy : FuelPolicy} {config : CompilationConfig} {wasm : WasmModule}
  {p₀ q : ModuleParser} {cx : Context} {vals : List Value} {m : RwasmModule}

/-- Each instruction of a function stands at its place, with the address of what it was emitted for. -/
lemma placed (h : l.Describes policy config wasm p₀ q cx vals m) {k j : Nat} {unit : List Emission}
    {e : Emission} (found : l.units[k]? = some unit) (at' : unit[j]? = some e) :
    m.codeSection[l.start k + j]? = some (l.place e) := by
  have there : l.emissions[l.start k + j]? = some e := by
    rw [emissions, start, Nat.add_assoc, List.getElem?_append_right (by rw [List.length_map]; omega),
      List.length_map, Nat.add_sub_cancel_left]
    exact getElem?_startOf found at'
  rw [h.code, List.getElem?_map, there, Option.map_some]

/-- What stands in the code of a function is emitted for something. -/
lemma emittedAt (h : l.Describes policy config wasm p₀ q cx vals m) {i : Nat} {e : Emission} {r : Reference}
    (found : l.emissions[i]? = some e) (target : e.target = some r) :
    l.EmittedAt config wasm cx vals i e.op r := by
  rw [emissions] at found
  by_cases front : i < (l.entrypoint.map Opcode.emission).length
  · rw [List.getElem?_append_left front, List.getElem?_map] at found
    obtain ⟨o, there, rfl⟩ := Option.map_eq_some_iff.mp found
    obtain ⟨n, named, rfl⟩ := Option.map_eq_some_iff.mp target
    exact .entrypoint there (h.entrypoint o (List.mem_of_getElem? there) n named)
  · rw [List.getElem?_append_right (Nat.not_lt.mp front)] at found
    rw [List.length_map] at front found
    obtain ⟨k, unit, j, known, at', place⟩ := exists_unit found
    have mem := List.mem_of_getElem? at'
    by_cases imported : k < l.imported.length
    · -- a trampoline names no function
      rw [units, List.append_assoc, List.getElem?_append_left imported] at known
      obtain ⟨lt, rfl⟩ := List.getElem?_eq_some_iff.mp known
      have lt' := h.imported.length_eq.symm ▸ lt
      obtain ⟨signature, rest, unnamed, eq⟩ := ((List.forall₂_iff_get.mp h.imported).2 k lt' lt).unnamed
      rw [List.get_eq_getElem] at eq
      rw [eq] at mem
      have names : Unnamed (signatureCheck signature :: rest) :=
        .append (.of_all rfl : Unnamed [signatureCheck signature]) unnamed
      rw [names.target mem] at target
      cases target
    · by_cases body : k < l.imported.length + l.bodies.length
      · rw [units, List.getElem?_append_left (by rwa [List.length_append]),
          List.getElem?_append_right (Nat.not_lt.mp imported)] at known
        have lt : k - l.imported.length < wasm.functions.length := by
          rw [← h.bodies.1]
          exact (List.getElem?_eq_some_iff.mp known).1
        have func := List.getElem?_eq_getElem lt
        have index : l.imported.length + (k - l.imported.length) = k := by omega
        have inside : k ≤ (l.imported ++ l.bodies).length := by
          rw [List.length_append]
          exact Nat.le_of_lt body
        have before : ((l.imported ++ l.bodies).take (l.imported.length + (k - l.imported.length))).flatten =
            l.before (l.imported.length + (k - l.imported.length)) := by
          rw [index, Layout.before, units, List.take_append_of_le_length inside]
        obtain ⟨t, entered, visited⟩ := (h.bodies.2 _ _ unit func known).translates.refers j e r at' target
        rw [before] at entered visited
        have whole : i = l.entrypoint.length +
            (((l.before (l.imported.length + (k - l.imported.length))).map Emission.op).length + j) := by
          have place : i - l.entrypoint.length = (l.before k).length + j := place
          rw [index, List.length_map]
          omega
        rw [whole]
        exact .body func entered visited
      · -- nor does the code of a snippet
        rw [units, List.getElem?_append_right (by rw [List.length_append]; omega),
          List.getElem?_map] at known
        obtain ⟨s, -, rfl⟩ := Option.map_eq_some_iff.mp known
        have names : Unnamed (snippetCode s) := .append (.append (.of_all rfl) s.unnamed) (.of_all rfl)
        rw [names.target mem] at target
        cases target

/-- An instruction that names a function holds the address of what it was emitted for. -/
lemma resolved (h : l.Describes policy config wasm p₀ q cx vals m) {i n : Nat} {op : Opcode}
    (found : m.codeSection[i]? = some op) (named : op.funcNumber = some n) :
    ∃ o r, l.EmittedAt config wasm cx vals i o r ∧ l.Has r ∧
      op = o.relocated (fun _ => l.address r) ∧ n = l.address r := by
  rw [h.code, List.getElem?_map] at found
  obtain ⟨e, there, rfl⟩ := Option.map_eq_some_iff.mp found
  cases target : e.target with
  | none =>
    have unnamed := e.isSome_target
    rw [place, target] at named
    rw [target, named] at unnamed
    cases unnamed
  | some r =>
    refine ⟨e.op, r, h.emittedAt there target, h.known e (List.mem_of_getElem? there) r target, ?_, ?_⟩
    · rw [place, target]
    · rw [place, target] at named
      generalize e.op = o at named
      cases o <;> cases named <;> rfl

/-- An instruction that holds `0` was emitted with it. -/
lemma null (h : l.Describes policy config wasm p₀ q cx vals m) {i : Nat} {op : Opcode}
    (found : m.codeSection[i]? = some op) (named : op.funcNumber = some 0) :
    l.EmittedAt config wasm cx vals i op .null := by
  rw [h.code, List.getElem?_map] at found
  obtain ⟨e, there, rfl⟩ := Option.map_eq_some_iff.mp found
  cases target : e.target with
  | none =>
    have unnamed := e.isSome_target
    rw [place, target] at named
    rw [target, named] at unnamed
    cases unnamed
  | some r =>
    have address : l.address r = 0 := by
      rw [place, target] at named
      dsimp only at named
      generalize l.address r = a at named ⊢
      generalize e.op = o at named
      cases o <;> cases named <;> rfl
    have null : r = .null := by
      have none := h.inhabited.unit?_eq_none address
      cases r with
      | null => rfl
      | func f => cases none
      | snippet s => cases none
    rcases e.named with number | ⟨s, snippet, -⟩
    · obtain ⟨n, number, eq⟩ := Option.map_eq_some_iff.mp (number.symm.trans target)
      have zero : n = 0 := by
        cases n with
        | zero => rfl
        | succ f => cases eq.trans null
      have same : l.place e = e.op := by
        rw [place, target]
        rw [zero] at number
        dsimp only
        rw [address]
        generalize e.op = o at number
        cases o <;> cases number <;> rfl
      rw [same, ← null]
      exact h.emittedAt there target
    · cases (snippet.symm.trans target).trans (congrArg some null)

/-- The numbers of functions in the module are addresses. -/
lemma resolves (h : l.Describes policy config wasm p₀ q cx vals m) :
    l.Resolves config wasm cx vals m where
  code i op n found named pos := by
    obtain ⟨o, r, emitted, has, eq, rfl⟩ := h.resolved found named
    cases unit : l.unit? r with
    | none =>
      rw [Layout.address, unit] at pos
      cases pos rfl
    | some k =>
      refine ⟨o, r, k, emitted, eq, unit, has k unit, ?_⟩
      rw [Layout.address, unit]
  null _ _ := h.null
  elements := by
    obtain ⟨elements, segments, known, eq⟩ := h.elements
    refine ⟨elements, segments, ?_⟩
    rw [eq, List.forall₂_map_right_iff, List.forall₂_same]
    intro b mem
    constructor
    · intro zero
      rw [zero]
      rfl
    · intro f number
      have has := known b mem
      rw [number] at has ⊢
      exact ⟨has f rfl, rfl⟩
  stands _ _ _ _ := h.placed
  apart _ hj _ hk := h.inhabited.start_inj hj hk
  pos _ := h.inhabited.start_pos.ne'

end Layout.Describes

section Relocation

variable {policy : FuelPolicy} {config : CompilationConfig} {wasm : WasmModule} {m : RwasmModule}

/-- Only the operators that call a snippet refer to one. -/
lemma Operator.Refers.calls {cx : Context} {op : Operator} {o : Opcode} {s : Snippet}
    (h : op.Refers cx o (.snippet s)) : ∃ op : PlainOperator, op.snippet? cx = some s := by
  generalize hr : Reference.snippet s = r at h
  cases h with
  | snippet called =>
    cases hr
    exact ⟨_, called⟩
  | @intrinsic _ _ _ _ n _ _ _ _ => cases n <;> cases hr
  | _ => cases hr

/-- Operators call no snippets while they are switched off. -/
lemma snippet?_eq_none {cx : Context} {op : PlainOperator} (off : cx.withCodeSnippets = false) :
    op.snippet? cx = none := by
  have numeric : ∀ op : NumericOperator, op.snippet? cx = none := by
    intro op
    unfold NumericOperator.snippet?
    split
    · rw [off]
      rfl
    · rfl
  cases op
  case numeric op => exact numeric op
  case refIsNull => exact numeric .i32Eqz
  all_goals rfl

/-- Nor do the functions. -/
lemma emission_snippet?_eq_none {cx : Context} {imported bodies : List (List Emission)}
    (off : cx.withCodeSnippets = false)
    (trampolines : List.Forall₂ (Imported policy config) (wasm.imports.filterMap Import.func?) imported)
    (translated : Bodies cx imported wasm.functions bodies) :
    ∀ e ∈ (imported ++ bodies).flatten, e.snippet? = none := by
  intro e mem
  obtain ⟨unit, known, mem⟩ := List.mem_flatten.mp mem
  rcases List.mem_append.mp known with known | known
  · obtain ⟨i, lt, rfl⟩ := List.mem_iff_getElem.mp known
    have lt' := trampolines.length_eq.symm ▸ lt
    obtain ⟨signature, rest, -, eq⟩ := ((List.forall₂_iff_get.mp trampolines).2 i lt' lt).unnamed
    rw [List.get_eq_getElem] at eq
    rw [eq] at mem
    obtain ⟨op, -, rfl⟩ := List.mem_map.mp mem
    exact Opcode.snippet?_emission
  · obtain ⟨j, found⟩ := List.mem_iff_getElem?.mp known
    obtain ⟨k, at'⟩ := List.mem_iff_getElem?.mp mem
    have lt : j < wasm.functions.length := by
      rw [← translated.1]
      exact (List.getElem?_eq_some_iff.mp found).1
    have body := translated.2 j _ unit (List.getElem?_eq_getElem lt) found
    cases target : e.target with
    | none => rw [Emission.snippet?, target]
    | some r =>
      obtain ⟨t, -, pre, op, post, t₁, t₂, -, -, -, -, -, -, refers⟩ :=
        body.translates.refers k e r at' target
      cases r with
      | snippet s =>
        obtain ⟨op, called⟩ := refers.calls
        rw [snippet?_eq_none off] at called
        cases called
      | null | func f => rw [Emission.snippet?, target]

/-- A function begins with its signature check. -/
lemma functions_ne_nil {cx : Context} {imported bodies : List (List Emission)}
    (trampolines : List.Forall₂ (Imported policy config) (wasm.imports.filterMap Import.func?) imported)
    (translated : Bodies cx imported wasm.functions bodies) :
    ∀ unit ∈ imported ++ bodies, unit ≠ [] := by
  rintro _ mem rfl
  rcases List.mem_append.mp mem with mem | mem
  · obtain ⟨i, lt, empty⟩ := List.mem_iff_getElem.mp mem
    have lt' := trampolines.length_eq.symm ▸ lt
    obtain ⟨signature, rest, -, eq⟩ := ((List.forall₂_iff_get.mp trampolines).2 i lt' lt).unnamed
    rw [List.get_eq_getElem, empty] at eq
    cases eq
  · obtain ⟨j, found⟩ := List.mem_iff_getElem?.mp mem
    have lt : j < wasm.functions.length := by
      rw [← translated.1]
      exact (List.getElem?_eq_some_iff.mp found).1
    obtain ⟨type, signature, -, -, begins⟩ :=
      (translated.2 j _ [] (List.getElem?_eq_getElem lt) found).translates.begins
    cases begins

/-- Every compiled module has a layout: the instructions and elements that name functions hold the addresses
of what they were emitted for. -/
theorem compile_layout (valid : wasm.Valid)
    (compiled : RwasmModule.compile policy config wasm = .ok m) :
    ∃ p₀ p pc q vals l, ({} : ModuleParser).processTypes wasm.types = .ok p₀ ∧
      parse policy config wasm = .ok p ∧ p.assemble policy config = .ok (pc, q) ∧
      wasm.initialGlobals (config.defaultImportedGlobalValue.getD 0) = some vals ∧
      Layout.Describes l policy config wasm p₀ q (p.context policy config) vals m := by
  obtain ⟨p, parsed, compiled⟩ := Compile.bind_ok.mp compiled
  obtain ⟨⟨pc, q⟩, assembled, linked⟩ := Compile.bind_ok.mp compiled
  obtain ⟨p₀, imported, bodies, typed, laid, trampolines, made, translated⟩ := parse_laid parsed
  obtain ⟨p', sections, code⟩ := Compile.bind_ok.mp parsed
  obtain ⟨vals, elements, initial, segments, holds, section_⟩ := parseSections_values valid sections
  have same := processCode_eq code
  have calls := parse_calls parsed
  have explained : Explained config wasm (p.context policy config) vals
      p.segmentBuilder.entrypointBytecode := by
    rw [same.1]
    exact .sections (parseSections_names sections) holds
  obtain ⟨explained, nonempty, snippets, emitted, called, stands⟩ := assemble_linked assembled laid
    (fun off => emission_snippet?_eq_none off trampolines translated)
    (by rw [same.2, parseSections_startFunc sections]) calls.1 explained
  obtain ⟨l, hl⟩ : ∃ l : Layout, l = ⟨q.segmentBuilder.entrypointBytecode, imported, bodies, snippets⟩ :=
    ⟨_, rfl⟩
  have h : l.Assembled p q emitted := by
    refine hl ▸ ⟨rfl, laid, ?_, called⟩
    have number : Layout.numberOf ⟨q.segmentBuilder.entrypointBytecode, imported, bodies, snippets⟩ =
        fun s => p.nextFunc + snippets.idxOf s := by
      funext s
      rw [laid.nextFunc, List.length_append]
      rfl
    rw [number]
    exact stands
  refine ⟨p₀, p, pc, q, vals, l, typed, parsed, assembled, initial, ?_⟩
  obtain ⟨ops, ops', appended, -⟩ := assemble_appends assembled
  have references : q.segmentBuilder.globalElementSection =
      elements.flatMap ElementSegment.elements := by
    rw [appended, ← section_, ← same.1]
    rfl
  exact {
    inhabited := by
      refine ⟨hl ▸ nonempty, fun unit mem => ?_⟩
      rw [hl] at mem
      rcases List.mem_append.mp mem with mem | mem
      · exact functions_ne_nil trampolines translated unit mem
      · obtain ⟨s, -, rfl⟩ := List.mem_map.mp mem
        exact List.cons_ne_nil _ _
    assembled := hl ▸ rfl
    entrypoint := hl ▸ explained
    imported := hl ▸ trampolines
    trampolines := hl ▸ made
    bodies := hl ▸ translated
    nodup := hl ▸ stands.nodup
    called := h.called
    known := h.known linked
    code := h.code linked
    elements := ⟨elements, segments, by
      rw [← references]
      exact h.elements linked⟩ }

/-- Relocation is exact. -/
theorem relocation_exact (valid : wasm.Valid)
    (compiled : RwasmModule.compile policy config wasm = .ok m) :
    ∃ p₀ p pc q vals l, ({} : ModuleParser).processTypes wasm.types = .ok p₀ ∧
      parse policy config wasm = .ok p ∧ p.assemble policy config = .ok (pc, q) ∧
      wasm.initialGlobals (config.defaultImportedGlobalValue.getD 0) = some vals ∧
      Layout.Describes l policy config wasm p₀ q (p.context policy config) vals m ∧
      (∀ i op n, m.codeSection[i]? = some op → op.funcNumber = some n →
        ∃ o r, l.EmittedAt config wasm (p.context policy config) vals i o r ∧ l.Has r ∧
          op = o.relocated (fun _ => l.address r) ∧ n = l.address r) ∧
      (∀ k unit j e, l.units[k]? = some unit → unit[j]? = some e →
        m.codeSection[l.start k + j]? = some (l.place e)) ∧
      (∀ r r', l.Has r → l.Has r' → l.address r = l.address r' → l.unit? r = l.unit? r') ∧
      ∀ r, l.address r = 0 → l.unit? r = none := by
  obtain ⟨p₀, p, pc, q, vals, l, typed, parsed, assembled, initial, h⟩ := compile_layout valid compiled
  exact ⟨p₀, p, pc, q, vals, l, typed, parsed, assembled, initial, h, fun _ _ _ => h.resolved,
    fun _ _ _ _ => h.placed, fun _ _ => h.inhabited.address_inj, fun _ => h.inhabited.unit?_eq_none⟩

/-- The functions of a compiled module are called and referred to at their addresses. -/
theorem compiled_addresses (valid : wasm.Valid)
    (compiled : RwasmModule.compile policy config wasm = .ok m) :
    ∃ p₀ p pc q vals l, ({} : ModuleParser).processTypes wasm.types = .ok p₀ ∧
      parse policy config wasm = .ok p ∧ p.assemble policy config = .ok (pc, q) ∧
      wasm.initialGlobals (config.defaultImportedGlobalValue.getD 0) = some vals ∧
      Layout.Describes l policy config wasm p₀ q (p.context policy config) vals m ∧
      l.Resolves config wasm (p.context policy config) vals m := by
  obtain ⟨p₀, p, pc, q, vals, l, typed, parsed, assembled, initial, h⟩ := compile_layout valid compiled
  exact ⟨p₀, p, pc, q, vals, l, typed, parsed, assembled, initial, h, h.resolves⟩

end Relocation

/-- A function that calls a snippet twice, and the function behind it, and elements that name both. -/
def linkedWasm : WasmModule where
  types := [⟨[], []⟩]
  functions := [
    ⟨0, [], .plain (.i64Const 7) (.plain (.i64Const 3) (.plain (.numeric .i64Eq) (.plain .drop
      (.plain (.i64Const 7) (.plain (.i64Const 7) (.plain (.numeric .i64Eq) (.plain .drop
        (.plain (.call 1) .nil))))))))⟩,
    ⟨0, [], .nil⟩]
  elements := [⟨.passive, .functions [1, 0]⟩]

/-- Its compilation: the entrypoint, the two functions, and the snippet. -/
def linkedModule : RwasmModule where
  codeSection := [
    stackCheck 5, ret, drop, ret,
    signatureCheck 0, consumeFuel 8, stackCheck 4,
    i32Const 7, i32Const 0, i32Const 3, i32Const 0, callInternal 25, drop,
    i32Const 7, i32Const 0, i32Const 7, i32Const 0, callInternal 25, drop,
    callInternal 21, ret,
    signatureCheck 0, consumeFuel 1, stackCheck 0, ret,
    stackCheck 1, localGet 3, i32Eq, localSet 2, localGet 3, i32Eq, localSet 2, i32And, ret]
  elemSection := [21, 4]
  sourcePc := 2

/-- The module of the example is valid. -/
lemma linkedWasm_valid : linkedWasm.Valid := by
  refine ⟨trivial, nofun, ⟨by decide, nofun⟩, ?_, ?_, nofun, by decide, by decide⟩
  · intro e mem table offset kind
    cases List.mem_singleton.mp mem
    cases kind
  · intro e mem exprs items
    cases List.mem_singleton.mp mem
    cases items

/-- It is compiled to this. -/
lemma linkedWasm_compiled : RwasmModule.compile unitPolicy bareConfig linkedWasm = .ok linkedModule := by
  decide +kernel

/-- The calls and references of a compiled module lead to the functions they were emitted for. -/
theorem relocation_exact_linked :
    RwasmModule.compile unitPolicy bareConfig linkedWasm = .ok linkedModule ∧
      ∃ (p₀ p q : ModuleParser) (vals : List Value) (l : Layout),
        l.Describes unitPolicy bareConfig linkedWasm p₀ q (p.context unitPolicy bareConfig) vals
          linkedModule ∧
        ∀ i op n, linkedModule.codeSection[i]? = some op → op.funcNumber = some n →
          ∃ o r, l.EmittedAt bareConfig linkedWasm (p.context unitPolicy bareConfig) vals i o r ∧
            l.Has r ∧ op = o.relocated (fun _ => l.address r) ∧ n = l.address r := by
  have compiled := linkedWasm_compiled
  obtain ⟨p₀, p, pc, q, vals, l, -, -, -, -, h, resolved, -⟩ :=
    relocation_exact linkedWasm_valid compiled
  exact ⟨compiled, p₀, p, q, vals, l, h, resolved⟩

/-- The numbers in the module of the example are such addresses. -/
theorem compiled_addresses_linked :
    ∃ (p₀ p q : ModuleParser) (vals : List Value) (l : Layout),
      l.Describes unitPolicy bareConfig linkedWasm p₀ q (p.context unitPolicy bareConfig) vals linkedModule ∧
      l.Resolves bareConfig linkedWasm (p.context unitPolicy bareConfig) vals linkedModule := by
  obtain ⟨p₀, p, pc, q, vals, l, -, -, -, -, h, resolves⟩ :=
    compiled_addresses linkedWasm_valid linkedWasm_compiled
  exact ⟨p₀, p, q, vals, l, h, resolves⟩

/-- An import that an intrinsic replaces by a call of address `0`. -/
def restartEntity : ImportLinkerEntity where
  sysFuncIdx := 71
  syscallFuelParam := .none
  params := []
  result := []
  intrinsic := some (.replace [callInternal 0])

/-- A linker that knows the import. -/
def restartLinker : ImportLinker where
  entities := [(⟨"env", "restart"⟩, restartEntity)]
  names_nodup := by decide
  indices_nodup := by decide

/-- A function that calls the import. -/
def restartWasm : WasmModule where
  types := [⟨[], []⟩]
  imports := [⟨⟨"env", "restart"⟩, .func 0⟩]
  functions := [⟨0, [], .plain (.call 0) .nil⟩]

/-- A configuration with that linker. -/
def restartConfig : CompilationConfig :=
  { bareConfig with importLinker := some restartLinker }

/-- Its compilation: the entrypoint, the trampoline and the function. -/
def restartModule : RwasmModule where
  codeSection := [
    stackCheck 5, ret, drop, ret,
    signatureCheck 0, consumeFuel 0, stackCheck 0, call 71, ret,
    signatureCheck 0, consumeFuel 2, stackCheck 0, callInternal 0, ret]
  sourcePc := 2

/-- A call that an intrinsic brings along with the number `0` keeps it, and no function begins there. -/
theorem not_compiled_addresses :
    restartWasm.Valid ∧
      RwasmModule.compile unitPolicy restartConfig restartWasm = .ok restartModule ∧
      restartModule.codeSection[12]? = some (callInternal 0) ∧
      ∀ p₀ q cx vals (l : Layout),
        l.Describes unitPolicy restartConfig restartWasm p₀ q cx vals restartModule →
          ∀ k, l.start k ≠ 0 := by
  refine ⟨⟨trivial, nofun, ⟨by decide, nofun⟩, nofun, nofun, nofun, by decide, by decide⟩,
    by decide +kernel, rfl, ?_⟩
  intro p₀ q cx vals l h k
  exact h.inhabited.start_pos.ne'

end Rwasm
