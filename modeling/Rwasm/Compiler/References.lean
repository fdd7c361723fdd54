import Rwasm.Compiler.Control

/-!
# References in emitted code

Three instructions name a function, and what each of them is emitted for: a function of the module, a
snippet that is linked later, or, where the number is `0`, nothing. The visit of an operator adds such
instructions behind the code before it, which keeps the ones it has.
-/

namespace Rwasm

open Opcode

/-- The number of the function that an instruction names. -/
def Opcode.funcNumber : Opcode → Option Nat
  | callInternal func | returnCallInternal func | refFunc func => some func
  | _ => none

/-- What is left of an instruction that may still be changed: charges grow, and offsets and heights are
filled in. -/
def Opcode.stencil : Opcode → Opcode
  | consumeFuel _ => consumeFuel 0
  | br _ => br 0
  | brIfEqz _ => brIfEqz 0
  | brIfNez _ => brIfNez 0
  | stackCheck _ => stackCheck 0
  | op => op

/-- An instruction that names a function is not changed. -/
lemma Opcode.funcNumber_stencil {op : Opcode} : op.stencil.funcNumber = op.funcNumber := by
  cases op <;> rfl

/-- An instruction that names a function is determined by its stencil. -/
lemma Opcode.eq_of_stencil {op op' : Opcode} {n : Nat} (same : op.stencil = op'.stencil)
    (named : op.funcNumber = some n) : op' = op := by
  have named' : op'.funcNumber = some n := by
    rw [← funcNumber_stencil, ← same, funcNumber_stencil, named]
  cases op <;> cases named <;> cases op' <;> cases named' <;> first | rfl | cases same

/-- What an instruction that names a function stands for. -/
inductive Reference where
  | null
  | func (func : Nat)
  | snippet (s : Snippet)
  deriving DecidableEq, Repr

/-- What the number of a function stands for. -/
def Reference.ofNumber : Nat → Reference
  | 0 => null
  | f + 1 => func f

/-- An emitted instruction, with what it stands for if it names a function: what its number stands for, or
a snippet that is linked later. -/
structure Emission where
  op : Opcode
  target : Option Reference
  named : target = op.funcNumber.map .ofNumber ∨
    ∃ s, target = some (.snippet s) ∧ op = callInternal (2 ^ 32 - 1)

/-- An instruction that names functions by their numbers. -/
def Opcode.emission (op : Opcode) : Emission where
  op := op
  target := op.funcNumber.map .ofNumber
  named := .inl rfl

/-- The emission of an instruction refers to the function it names. -/
lemma Opcode.target_emission {op : Opcode} :
    op.emission.target = op.funcNumber.map .ofNumber := rfl

/-- A call of a snippet that is still to be linked. -/
def Snippet.emission (s : Snippet) : Emission where
  op := callInternal (2 ^ 32 - 1)
  target := some (.snippet s)
  named := .inr ⟨s, rfl, rfl⟩

/-- An instruction stands for something if it names a function. -/
lemma Emission.isSome_target {e : Emission} : e.target.isSome = e.op.funcNumber.isSome := by
  rcases e.named with plain | ⟨s, target, op⟩
  · rw [plain, Option.isSome_map]
  · rw [target, op]
    rfl

/-- The snippet an instruction is emitted for. -/
def Emission.snippet? (e : Emission) : Option Snippet :=
  match e.target with
  | some (.snippet s) => some s
  | _ => none

/-- The calls of snippets among instructions, the first of which is at `loc`. -/
def snippetCallsFrom (loc : Nat) : List Emission → List SnippetCall
  | [] => []
  | e :: es => (e.snippet?.map (SnippetCall.mk loc)).toList ++ snippetCallsFrom (loc + 1) es

/-- The snippet calls of two runs of emissions. -/
lemma snippetCallsFrom_append {loc : Nat} {as bs : List Emission} :
    snippetCallsFrom loc (as ++ bs) =
      snippetCallsFrom loc as ++ snippetCallsFrom (loc + as.length) bs := by
  induction as generalizing loc with
  | nil => rfl
  | cons a as ih =>
    have shift : loc + (a :: as).length = loc + 1 + as.length := by
      rw [List.length_cons]
      omega
    rw [List.cons_append, shift, snippetCallsFrom, snippetCallsFrom, ih, List.append_assoc]

/-- Numbers do not stand for snippets. -/
lemma Opcode.snippet?_emission {op : Opcode} : op.emission.snippet? = none := by
  rw [Emission.snippet?, target_emission]
  cases op.funcNumber with
  | none => rfl
  | some n => cases n <;> rfl

/-- Plain instructions are no snippet calls. -/
lemma snippetCallsFrom_emission {loc : Nat} {ops : List Opcode} :
    snippetCallsFrom loc (ops.map Opcode.emission) = [] := by
  induction ops generalizing loc with
  | nil => rfl
  | cons op ops ih =>
    rw [List.map_cons, snippetCallsFrom, Opcode.snippet?_emission, ih]
    rfl

/-- The instructions of emissions of instructions. -/
lemma op_emission {ops : List Opcode} : (ops.map Opcode.emission).map Emission.op = ops := by
  rw [List.map_map]
  exact List.map_id ops

/-- The emitted instruction, with its charge, offset or height filled in. -/
def Emission.filled (e : Emission) (op : Opcode) (same : op.stencil = e.op.stencil) : Emission where
  op := op
  target := e.target
  named := by
    rcases e.named with plain | ⟨s, target, call⟩
    · left
      rw [plain, ← Opcode.funcNumber_stencil, ← same, Opcode.funcNumber_stencil]
    · have named : e.op.funcNumber = some (2 ^ 32 - 1) := by
        rw [call]
        rfl
      exact .inr ⟨s, target, by rw [Opcode.eq_of_stencil same.symm named, call]⟩

/-- Instructions with the stencils of emitted ones stand for the same. -/
lemma exists_filled {es : List Emission} {ops : List Opcode}
    (same : ops.map Opcode.stencil = (es.map Emission.op).map Opcode.stencil) :
    ∃ es' : List Emission, es'.map Emission.op = ops ∧
      es'.map Emission.target = es.map Emission.target := by
  induction es generalizing ops with
  | nil => exact ⟨[], (List.map_eq_nil_iff.mp same).symm, rfl⟩
  | cons e es ih =>
    cases ops with
    | nil => cases same
    | cons op ops =>
      rw [List.map_cons, List.map_cons, List.map_cons, List.cons.injEq] at same
      obtain ⟨es', code, targets⟩ := ih same.2
      refine ⟨e.filled op same.1 :: es', ?_, ?_⟩
      · rw [List.map_cons, code]
        rfl
      · rw [List.map_cons, targets, List.map_cons]
        rfl

/-- The calls of snippets depend on what the instructions stand for. -/
lemma snippetCallsFrom_congr {loc : Nat} {es es' : List Emission}
    (same : es'.map Emission.target = es.map Emission.target) :
    snippetCallsFrom loc es' = snippetCallsFrom loc es := by
  induction es generalizing loc es' with
  | nil =>
    rw [List.map_eq_nil_iff.mp same]
  | cons e es ih =>
    cases es' with
    | nil => cases same
    | cons e' es' =>
      rw [List.map_cons, List.map_cons, List.cons.injEq] at same
      rw [snippetCallsFrom, snippetCallsFrom, ih same.2, Emission.snippet?, Emission.snippet?, same.1]

/-- Replacing an element by one with the same image. -/
lemma map_set_same {α β : Type} {f : α → β} {as : List α} {i : Nat} {a b : α}
    (found : as[i]? = some b) (same : f a = f b) : (as.set i a).map f = as.map f := by
  obtain ⟨lt, rfl⟩ := List.getElem?_eq_some_iff.mp found
  rw [List.map_set, same, ← List.map_set, List.set_getElem_self]

/-- What the instructions that an operator is translated to are emitted for. -/
inductive Operator.Refers (cx : Context) : Operator → Opcode → Reference → Prop
  | call {func : Nat} :
    cx.intrinsic func = none →
    Refers cx (.plain (.call func)) (callInternal (func + 1)) (.func func)
  | returnCall {func : Nat} :
    cx.intrinsic func = none →
    Refers cx (.leave (.returnCall func)) (returnCallInternal (func + 1)) (.func func)
  | refFunc {func : Nat} :
    Refers cx (.plain (.refFunc func)) (.refFunc (func + 1)) (.func func)
  | snippet {op : PlainOperator} {s : Snippet} :
    op.snippet? cx = some s →
    Refers cx (.plain op) (callInternal (2 ^ 32 - 1)) (.snippet s)
  /-- The code of an intrinsic names functions by their numbers. -/
  | intrinsic {op : Operator} {func : Nat} {ops : List Opcode} {o : Opcode} {n : Nat} :
    op = .plain (.call func) ∨ op = .leave (.returnCall func) →
    cx.intrinsic func = some (.replace ops) →
    o ∈ ops →
    o.funcNumber = some n →
    Refers cx op o (.ofNumber n)

/-- Code that names no function. -/
def Unnamed (ops : List Opcode) : Prop :=
  ∀ op ∈ ops, op.funcNumber = none

namespace Unnamed

variable {ops ops' : List Opcode}

/-- Two pieces of code that name no function. -/
lemma append (h : Unnamed ops) (h' : Unnamed ops') : Unnamed (ops ++ ops') := by
  intro op mem
  rcases List.mem_append.mp mem with mem | mem
  · exact h op mem
  · exact h' op mem

/-- A repeated instruction that names no function. -/
lemma replicate {n : Nat} {op : Opcode} (h : op.funcNumber = none) :
    Unnamed (List.replicate n op) := by
  intro op' mem
  rw [List.eq_of_mem_replicate mem]
  exact h

/-- Code whose instructions are known. -/
lemma of_all (h : ops.all (fun op => op.funcNumber.isNone) = true) : Unnamed ops := by
  intro op mem
  exact Option.isNone_iff_eq_none.mp (List.all_eq_true.mp h op mem)

/-- The code that drops slots. -/
lemma dropKeep {dk : DropKeep} : Unnamed dk.code := by
  unfold DropKeep.code
  split
  · exact .of_all rfl
  · split
    · exact (replicate rfl).append (.of_all rfl)
    · refine append ?_ (.of_all rfl)
      intro op mem
      obtain ⟨i, -, mem⟩ := List.mem_flatMap.mp mem
      rcases List.mem_cons.mp mem with rfl | mem
      · rfl
      · rw [List.mem_singleton.mp mem]
        rfl

/-- The charge names no function. -/
lemma fuelCode {cx : Context} : Unnamed cx.fuelCode := by
  unfold Context.fuelCode
  split <;> exact .of_all rfl

end Unnamed

namespace Skeleton

variable {s s' s'' : Skeleton} {as bs : List Emission} {cx : Context} {ops : List Opcode}

/-- Code is added, and the calls of snippets in it are recorded. -/
structure Emits (es : List Emission) (s s' : Skeleton) : Prop where
  code : s'.code.map Opcode.stencil = (s.code ++ es.map Emission.op).map Opcode.stencil
  snippetCalls : s'.snippetCalls = s.snippetCalls ++ snippetCallsFrom s.code.length es

namespace Emits

/-- A step that leaves the code emits nothing. -/
lemma of_eq (code : s'.code = s.code) (calls : s'.snippetCalls = s.snippetCalls) :
    s.Emits [] s' where
  code := by rw [code, List.map_nil, List.append_nil]
  snippetCalls := by
    rw [calls]
    exact (List.append_nil _).symm

/-- The code grows by what is emitted. -/
lemma length (h : s.Emits as s') : s'.code.length = s.code.length + as.length := by
  have lengths := congrArg List.length h.code
  simpa using lengths

/-- What two steps emit. -/
lemma trans (h : s.Emits as s') (h' : s'.Emits bs s'') : s.Emits (as ++ bs) s'' where
  code := by
    rw [h'.code, List.map_append, h.code, ← List.map_append, List.append_assoc, ← List.map_append]
  snippetCalls := by
    rw [h'.snippetCalls, h.snippetCalls, h.length, snippetCallsFrom_append, List.append_assoc]

/-- Only what does not concern the code changes afterwards. -/
lemma congr (h : s.Emits as s') (code : s''.code = s'.code)
    (calls : s''.snippetCalls = s'.snippetCalls) : s.Emits as s'' where
  code := by rw [code, h.code]
  snippetCalls := by rw [calls, h.snippetCalls]

/-- Raising a charge emits nothing. -/
lemma charge {delta : Nat} : s.Emits [] (s.charge cx delta) where
  code := by
    rw [List.map_nil, List.append_nil]
    unfold Skeleton.charge
    split
    · split
      next found => exact map_set_same found rfl
      · rfl
    · rfl
  snippetCalls := by
    rw [charge_snippetCalls]
    exact (List.append_nil _).symm

/-- What is emitted before a charge is raised. -/
lemma charged {delta : Nat} (h : s.Emits as s') : s.Emits as (s'.charge cx delta) := by
  have both := h.trans (@charge s' cx delta)
  rwa [List.append_nil] at both

/-- Emitting instructions. -/
lemma emit : s.Emits (ops.map Opcode.emission) (s.emit ops) where
  code := by
    rw [op_emission]
    rfl
  snippetCalls := by
    rw [snippetCallsFrom_emission]
    exact (List.append_nil _).symm

/-- The call of a snippet is recorded where it stands. -/
lemma record {snippet : Snippet} :
    s.Emits [snippet.emission]
      ((s.record (some snippet)).emit [callInternal (2 ^ 32 - 1)]) :=
  ⟨rfl, rfl⟩

end Emits

/-- Code is added that names no function. -/
def Silent (s s' : Skeleton) : Prop :=
  ∃ ops, Unnamed ops ∧ s.Emits (ops.map Opcode.emission) s'

namespace Silent

/-- A step that leaves the code is silent. -/
lemma of_eq (code : s'.code = s.code) (calls : s'.snippetCalls = s.snippetCalls) : s.Silent s' :=
  ⟨[], List.forall_mem_nil _, .of_eq code calls⟩

/-- Silent steps one after the other. -/
lemma trans (h : s.Silent s') (h' : s'.Silent s'') : s.Silent s'' := by
  obtain ⟨ops, unnamed, h⟩ := h
  obtain ⟨ops', unnamed', h'⟩ := h'
  have both := h.trans h'
  rw [← List.map_append] at both
  exact ⟨ops ++ ops', unnamed.append unnamed', both⟩

/-- Raising a charge is silent. -/
lemma charge {delta : Nat} : s.Silent (s.charge cx delta) :=
  ⟨[], List.forall_mem_nil _, .charge⟩

/-- Emitting code that names no function is silent. -/
lemma emit (h : Unnamed ops) : s.Silent (s.emit ops) :=
  ⟨ops, h, .emit⟩

end Silent

end Skeleton

section Emitted

variable {cx : Context} {ops : List Opcode}

/-- The instructions an operator is translated to stand for what it refers to. -/
def Operator.Explains (cx : Context) (op : Operator) (es : List Emission) : Prop :=
  ∀ e ∈ es, ∀ r, e.target = some r → op.Refers cx e.op r

/-- What an operator emits in two pieces. -/
lemma Operator.Explains.append {op : Operator} {es es' : List Emission} (h : op.Explains cx es)
    (h' : op.Explains cx es') : op.Explains cx (es ++ es') := by
  intro e mem
  rcases List.mem_append.mp mem with mem | mem
  · exact h e mem
  · exact h' e mem

/-- An emission of code that names no function has no target. -/
lemma Unnamed.target {e : Emission} (h : Unnamed ops) (mem : e ∈ ops.map Opcode.emission) :
    e.target = none := by
  obtain ⟨o, within_, rfl⟩ := List.mem_map.mp mem
  rw [Opcode.target_emission, h o within_]
  rfl

/-- Code that names no function needs no explanation. -/
lemma Unnamed.refers {op : Operator} (h : Unnamed ops) : op.Explains cx (ops.map Opcode.emission) := by
  intro e mem r target
  rw [h.target mem] at target
  cases target

/-- A call is emitted for its function, or comes from an intrinsic. -/
lemma emitFunctionCall_refers {func : Nat} {isReturnCall : Bool} {op : Operator}
    (call : op = if isReturnCall then .leave (.returnCall func) else .plain (.call func))
    (h : cx.emitFunctionCall func isReturnCall = .ok ops) :
    op.Explains cx (ops.map Opcode.emission) := by
  simp only [Context.emitFunctionCall, Compile.bind_ok] at h
  obtain ⟨type, _, funcType, _, h⟩ := h
  split at h
  next opcodes replaced =>
    cases h
    intro e mem r target
    obtain ⟨o, within_, rfl⟩ := List.mem_map.mp mem
    obtain ⟨n, number, rfl⟩ := Option.map_eq_some_iff.mp target
    refine @Operator.Refers.intrinsic _ _ func _ _ _ ?_ replaced within_ number
    rw [call]
    cases isReturnCall with
    | true => exact .inr rfl
    | false => exact .inl rfl
  next removed =>
    split at h
    · cases h
      exact Unnamed.refers (.replicate rfl)
    · cases h
  next plain =>
    cases h
    rw [call]
    intro e mem r target
    cases isReturnCall with
    | true =>
      cases List.mem_singleton.mp mem
      cases target
      exact .returnCall plain
    | false =>
      cases List.mem_singleton.mp mem
      cases target
      exact .call plain

/-- The code of a snippet names no function. -/
lemma Snippet.unnamed (s : Snippet) : Unnamed s.definition.emitter := by
  cases s <;> exact .of_all (by decide +kernel)

/-- What the routines emit inline. -/
lemma NumericOperator.unnamed {op : NumericOperator} (inlined : op.snippet? cx = none) :
    Unnamed (op.emitted cx) := by
  unfold NumericOperator.emitted
  unfold NumericOperator.snippet? at inlined
  cases op
  all_goals
    dsimp only [NumericOperator.translation] at inlined ⊢
    first
      | exact .of_all rfl
      | split at inlined
        · cases inlined
        next off =>
          rw [if_neg off]
          exact Snippet.unnamed _

/-- The code of a load names no function. -/
lemma LoadOperator.unnamed (op : LoadOperator) (offset : Nat) : Unnamed (op.emitted offset) := by
  cases op <;> exact .of_all rfl

/-- The code of a store names no function. -/
lemma StoreOperator.unnamed (op : StoreOperator) (offset : Nat) : Unnamed (op.emitted offset) := by
  cases op <;> exact .of_all rfl

/-- The charge of a bulk instruction. -/
lemma Unnamed.bulk {perFuel : Nat} {log2 : UntypedValue} {inject : Bool} :
    Unnamed (if inject then InstructionSet.opConsumeFuelBulk perFuel log2 else []) := by
  cases inject <;> exact .of_all rfl

/-- Nor does the code that rewrites an offset. -/
lemma Unnamed.rewriteOffset {offset : UntypedValue} : Unnamed (InstructionSet.opRewriteOffset offset) := by
  unfold InstructionSet.opRewriteOffset
  split <;> exact .of_all rfl

/-- Nor does the code of `memory.init`. -/
lemma Unnamed.memoryInit {offset length : UntypedValue} {segment : Nat} {inject : Bool} :
    Unnamed (InstructionSet.opMemoryInitChecked (some offset) (some length) segment inject) := by
  refine .append (.append (.append ?_ .rewriteOffset) .bulk) (.of_all rfl)
  split <;> exact .of_all rfl

/-- Nor does the code of `table.init`. -/
lemma Unnamed.tableInit {segment table : Nat} {length offset : UntypedValue} {inject : Bool} :
    Unnamed (InstructionSet.opTableInitChecked segment table length offset inject) :=
  .append (.append (.append (.of_all rfl) .rewriteOffset) .bulk) (.of_all rfl)

/-- What an operator that falls through is translated to, unless it calls a snippet. -/
lemma emitted_refers {op : PlainOperator} {types : List ValType}
    (inlined : op.snippet? cx = none) (h : op.emitted cx types = .ok ops) :
    Operator.Explains cx (.plain op) (ops.map Opcode.emission) := by
  cases op with
  | call func => exact @emitFunctionCall_refers _ _ func false _ rfl h
  | refFunc func =>
    cases h
    intro e mem r target
    cases List.mem_singleton.mp mem
    cases target
    exact .refFunc
  | numeric op =>
    cases h
    exact Unnamed.refers (NumericOperator.unnamed inlined)
  | refIsNull =>
    cases h
    exact Unnamed.refers (@NumericOperator.unnamed _ .i32Eqz inlined)
  | load op offset =>
    cases h
    exact Unnamed.refers (LoadOperator.unnamed op offset)
  | store op offset =>
    cases h
    exact Unnamed.refers (StoreOperator.unnamed op offset)
  | callIndirect =>
    obtain ⟨signature, -, h⟩ := Compile.bind_ok.mp h
    cases h
    exact Unnamed.refers (.of_all rfl)
  | globalGet | globalSet =>
    obtain ⟨globalType, -, h⟩ := Compile.bind_ok.mp h
    cases h
    refine Unnamed.refers ?_
    split <;> exact .of_all rfl
  | memoryGrow =>
    obtain ⟨memoryType, -, h⟩ := Compile.bind_ok.mp h
    cases h
    refine Unnamed.refers (.append (.append (.of_all rfl) ?_) (.of_all rfl))
    split <;> exact .of_all rfl
  | tableGrow =>
    obtain ⟨tableType, -, h⟩ := Compile.bind_ok.mp h
    cases h
    exact Unnamed.refers (.append (.append (.of_all rfl) .bulk) (.of_all rfl))
  | memoryInit =>
    simp only [PlainOperator.emitted] at h
    split at h
    · cases h
      exact Unnamed.refers .memoryInit
    · cases h
  | tableInit =>
    simp only [PlainOperator.emitted] at h
    split at h
    · cases h
      exact Unnamed.refers .tableInit
    · cases h
  | memoryCopy | memoryFill | tableCopy | tableFill =>
    cases h
    exact Unnamed.refers (.append .bulk (.of_all rfl))
  | drop | select | typedSelect | localGet | localSet | localTee =>
    simp only [PlainOperator.emitted] at h
    refine Unnamed.refers ?_
    split at h
    · cases h
      split <;> exact .of_all rfl
    · cases h
  | _ =>
    cases h
    exact Unnamed.refers (.of_all rfl)

/-- An operator that goes through a snippet emits a call to be linked. -/
lemma NumericOperator.emitted_snippet {op : NumericOperator} {s : Snippet}
    (called : op.snippet? cx = some s) : op.emitted cx = [callInternal (2 ^ 32 - 1)] := by
  unfold NumericOperator.snippet? at called
  unfold NumericOperator.emitted
  split at called
  next translated =>
    rw [translated]
    split at called
    next on => exact if_pos on
    · cases called
  · cases called

/-- An operator that calls a snippet is translated to that call. -/
lemma emitted_snippet {op : PlainOperator} {types : List ValType} {s : Snippet}
    (called : op.snippet? cx = some s) (h : op.emitted cx types = .ok ops) :
    ops = [callInternal (2 ^ 32 - 1)] := by
  cases op with
  | numeric op =>
    cases h
    exact NumericOperator.emitted_snippet called
  | refIsNull =>
    cases h
    exact @NumericOperator.emitted_snippet _ .i32Eqz s called
  | _ => cases called

end Emitted

end Rwasm
