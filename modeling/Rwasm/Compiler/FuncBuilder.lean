import Rwasm.Compiler.Visit

/-!
# Function bodies

The translation of one function (`compiler/func_builder.rs`, with `prepare` and `finish` of the
translator): the prologue, the locals, the operators, and the offsets and the stack check that are
only known at the end. The code of a function is appended to that of the functions before it.
-/

namespace Rwasm

open Opcode

namespace InstructionTranslator

/-- `prepare`: the frame around the body, with the signature check and the first charge. -/
def prepare (cx : Context) (func : Nat) (t : InstructionTranslator) :
    Compile InstructionTranslator := do
  let type ← cx.resolveFuncTypeIndex func
  let (endLabel, t) := t.newLabel
  let signature ← cx.funcTypeRegistry.resolveFuncTypeSignature type
  let t := t.emit [signatureCheck signature]
  let (fuel, t) := t.pushConsumeFuel cx
  let t := t.pushFrame (.block endLabel ⟨.funcType type, 0, fuel, 0⟩)
  let original ← cx.funcTypeRegistry.resolveOriginalFuncType type
  let funcType ← cx.funcTypeRegistry.resolveFuncType type
  let t := { t with
    stackTypes := original.params.reverse
    lenRegistered := funcType.params.length }
  if cx.consumeFuelForParamsAndLocals then
    t.bumpFuelConsumption cx (cx.costs.fuelForLocals funcType.params.length)
  else return t

/-- The locals of a group: their types, and their zeroes. -/
def translateLocalGroup (t : InstructionTranslator) (group : Nat × ValType) :
    Compile InstructionTranslator :=
  if group.2 = .v128 then
    .fail .notSupportedLocalType
  else
    return ({ t.emit [bulkConst (group.1 * group.2.slots)] with
      stackTypes := List.replicate group.1 group.2 ++ t.stackTypes } : InstructionTranslator).pushN
        (group.1 * group.2.slots)

/-- The number of the locals; the counter saturates. -/
def totalLocals (locals : List (Nat × ValType)) : Nat :=
  locals.foldl (fun n group => min (n + group.1) (2 ^ 32 - 1)) 0

/-- `translate_locals`. -/
def translateLocals (cx : Context) (locals : List (Nat × ValType)) (t : InstructionTranslator) :
    Compile InstructionTranslator := do
  let cost := cx.costs.fuelForLocals (totalLocals locals)
  let t ← if cx.consumeFuelForParamsAndLocals ∧ 0 < cost then t.bumpFuelConsumption cx cost
    else pure t
  locals.foldlM translateLocalGroup t

/-- Writes the offset of a use of a label into its branch. -/
def resolveUser (labels : LabelRegistry) (code : List Opcode) (u : LabelUser) :
    Compile (List Opcode) := do
  let offset ← labels.resolveUser u
  let op ← Compile.unwrap code[u.user]?
  let op ← Compile.unwrap (op.updateBranchOffset offset)
  return code.set u.user op

/-- Writes the height into the stack check, which is among the first `n` instructions. -/
def patchStackCheck (maxHeight : Nat) : Nat → List Opcode → Compile (List Opcode)
  | n + 1, op :: code =>
    match op with
    | .consumeFuel _ | .signatureCheck _ => do
      let code ← patchStackCheck maxHeight n code
      return op :: code
    | .stackCheck _ => return stackCheck maxHeight :: code
    | _ => .panic
  | _, code => return code

/-- `finish`: the code of all functions so far, the last of which begins at `offset`. -/
def finish (cx : Context) (offset : Nat) (t : InstructionTranslator) : Compile (List Opcode) := do
  let code ← t.labels.users.foldlM (resolveUser t.labels) t.instructionSet
  let body ← patchStackCheck t.stackHeight.maxHeight (if cx.withConsumeFuel then 3 else 2)
    (code.drop offset)
  return code.take offset ++ body

end InstructionTranslator

open InstructionTranslator

/-- `FuncBuilder::translate`: appends the code of a function, and its calls of snippets. -/
def FuncBuilder.translate (cx : Context) (func : Nat) (locals : List (Nat × ValType))
    (operators : List Operator) (code : List Opcode) (snippetCalls : List SnippetCall) :
    Compile (List Opcode × List SnippetCall) := do
  let t : InstructionTranslator := { instructionSet := code, snippetCalls := snippetCalls }
  let t ← t.prepare cx func
  let t ← t.bumpFuelConsumption cx cx.costs.base
  let t := t.emit [stackCheck (2 ^ 32 - 1)]
  let t ← t.translateLocals cx locals
  let t ← visitAll cx operators t
  let final ← t.finish cx code.length
  return (final, t.snippetCalls)

end Rwasm
