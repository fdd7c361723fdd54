import Rwasm.Compiler.FuncTypeRegistry

/-!
# Control flow bookkeeping

What the translator keeps track of while it translates a function: the height of the value stack
(`compiler/value_stack.rs`), the values to drop and to keep at a branch (`compiler/drop_keep.rs`), the
labels with their uses (`compiler/labels.rs`), and the stack of control frames
(`compiler/control_flow.rs`).

Counters that would leave the range of their type, and the assertions of the source, are panics.
-/

namespace Rwasm

open Opcode

/-- The emulated height of the value stack (`ValueStackHeight`). -/
structure ValueStackHeight where
  height : Nat := 0
  maxHeight : Nat := 0
  deriving DecidableEq, Repr

namespace ValueStackHeight

/-- `push_n`. -/
def pushN (h : ValueStackHeight) (amount : Nat) : ValueStackHeight where
  height := h.height + amount
  maxHeight := max (h.height + amount) h.maxHeight

/-- `pop_n`. -/
def popN (h : ValueStackHeight) (amount : Nat) : Compile ValueStackHeight :=
  if amount ≤ h.height then .ok { h with height := h.height - amount } else .panic

/-- The slots the counter moves by for a type. -/
def slots : ValType → Nat
  | .i64 | .f64 => 2
  | .v128 => 4
  | _ => 1

/-- `push_type`. -/
def pushType (h : ValueStackHeight) (t : ValType) : ValueStackHeight :=
  h.pushN (slots t)

/-- `pop_type`. -/
def popType (h : ValueStackHeight) (t : ValType) : Compile ValueStackHeight :=
  h.popN (slots t)

/-- `shrink_to`. -/
def shrinkTo (h : ValueStackHeight) (height : Nat) : Compile ValueStackHeight :=
  if height ≤ h.height then .ok { h with height := height } else .panic

/-- Raises the recorded maximum as a push followed by a pop of as much does. -/
def touch (h : ValueStackHeight) (amount : Nat) : ValueStackHeight :=
  { h with maxHeight := max (h.height + amount) h.maxHeight }

end ValueStackHeight

/-- How many slots a branch drops beneath how many it keeps (`DropKeep`). -/
structure DropKeep where
  drop : Nat
  keep : Nat
  deriving DecidableEq, Repr

namespace DropKeep

/-- `new`: both counts must fit 16 bits. -/
def new (drop keep : Nat) : Compile DropKeep :=
  if keep < 2 ^ 16 ∧ drop < 2 ^ 16 then .ok ⟨drop, keep⟩ else .fail .dropKeepOutOfBounds

/-- `is_noop`. -/
def isNoop (dk : DropKeep) : Bool :=
  dk.drop == 0

/-- Keeps one more slot. -/
def addKeep (dk : DropKeep) : Compile DropKeep :=
  if dk.keep + 1 < 2 ^ 16 then .ok { dk with keep := dk.keep + 1 } else .panic

/-- The instructions `translate_drop_keep` emits. -/
def code (dk : DropKeep) : List Opcode :=
  if dk.drop = 0 then
    []
  else if dk.keep ≤ dk.drop then
    List.replicate dk.keep (localSet dk.drop) ++ [bulkDrop (dk.drop - dk.keep)]
  else
    (List.range dk.keep).flatMap
        (fun i => [localGet (dk.keep - i), localSet (dk.keep + dk.drop - i)]) ++
      [bulkDrop dk.drop]

/-- The height `translate_drop_keep` records: a shuffle needs one more slot. -/
def touch (dk : DropKeep) (h : ValueStackHeight) : ValueStackHeight :=
  if dk.drop = 0 ∨ dk.keep ≤ dk.drop then h else h.touch 1

end DropKeep

/-- The use of a label by a branch (`LabelUser`). -/
structure LabelUser where
  label : Nat
  user : Nat
  deriving DecidableEq, Repr

/-- The labels, each with the location it is pinned to, and their uses (`LabelRegistry`). -/
structure LabelRegistry where
  labels : List (Option Nat) := []
  users : List LabelUser := []

namespace LabelRegistry

/-- `new_label`. -/
def newLabel (registry : LabelRegistry) : Nat × LabelRegistry :=
  (registry.labels.length, { registry with labels := registry.labels ++ [none] })

/-- `pin_label`. -/
def pinLabel (registry : LabelRegistry) (label instr : Nat) : Compile LabelRegistry :=
  match registry.labels[label]? with
  | some none => .ok { registry with labels := registry.labels.set label (some instr) }
  | _ => .panic

/-- `try_pin_label`. -/
def tryPinLabel (registry : LabelRegistry) (label instr : Nat) : Compile LabelRegistry :=
  match registry.labels[label]? with
  | some none => .ok { registry with labels := registry.labels.set label (some instr) }
  | some (some _) => .ok registry
  | none => .panic

/-- `try_resolve_label`: the offset to a pinned label; the use of an unpinned one is remembered. -/
def tryResolveLabel (registry : LabelRegistry) (label user : Nat) :
    Compile (Int × LabelRegistry) :=
  match registry.labels[label]? with
  | some (some target) =>
    match branchOffset user target with
    | some offset => .ok (offset, registry)
    | none => .fail .branchOffsetOutOfBounds
  | some none => .ok (0, { registry with users := registry.users ++ [⟨label, user⟩] })
  | none => .panic

/-- The offset `resolved_users` gives for a use. -/
def resolveUser (registry : LabelRegistry) (u : LabelUser) : Compile Int :=
  match registry.labels[u.label]? with
  | some (some target) =>
    match branchOffset u.user target with
    | some offset => .ok offset
    | none => .fail .branchOffsetOutOfBounds
  | _ => .panic

end LabelRegistry

/-- The kinds of control frames (`ControlFrameKind`). -/
inductive ControlFrameKind where
  | block
  | loop
  | if
  deriving DecidableEq, Repr

/-- What the control frames of reachable code share. A frame remembers the height beneath its
parameters, and the `ConsumeFuel` instruction that its code is charged to. -/
structure ReachableFrame where
  blockType : BlockType
  stackHeight : Nat
  consumeFuel : Option Nat
  lenBranches : Nat := 0
  deriving DecidableEq, Repr

/-- A control frame (`ControlFrame`). -/
inductive ControlFrame where
  | block (endLabel : Nat) (frame : ReachableFrame)
  | loop (headLabel : Nat) (frame : ReachableFrame)
  | if (endLabel elseLabel : Nat) (endOfThenIsReachable : Option Bool) (frame : ReachableFrame)
  | unreachable (kind : ControlFrameKind) (blockType : BlockType)
  deriving DecidableEq, Repr

namespace ControlFrame

/-- The common part of a frame of reachable code. -/
def reachable? : ControlFrame → Option ReachableFrame
  | block _ frame | loop _ frame | .if _ _ _ frame => some frame
  | unreachable _ _ => none

/-- A frame with its common part changed; the frames of unreachable code are left alone. -/
def update (f : ReachableFrame → ReachableFrame) : ControlFrame → ControlFrame
  | block label frame => block label (f frame)
  | loop label frame => loop label (f frame)
  | .if endLabel elseLabel reach frame => .if endLabel elseLabel reach (f frame)
  | unreachable kind blockType => unreachable kind blockType

/-- `kind`. -/
def kind : ControlFrame → ControlFrameKind
  | block _ _ => .block
  | loop _ _ => .loop
  | .if _ _ _ _ => .if
  | unreachable kind _ => kind

/-- `is_reachable`. -/
def isReachable (frame : ControlFrame) : Bool :=
  frame.reachable?.isSome

/-- `block_type`. -/
def blockType : ControlFrame → BlockType
  | block _ frame | loop _ frame | .if _ _ _ frame => frame.blockType
  | unreachable _ blockType => blockType

/-- `stack_height`. -/
def stackHeight (frame : ControlFrame) : Option Nat :=
  frame.reachable?.map ReachableFrame.stackHeight

/-- `consume_fuel_instr`. -/
def consumeFuelInstr (frame : ControlFrame) : Option Nat :=
  frame.reachable?.bind ReachableFrame.consumeFuel

/-- `branch_destination`. -/
def branchDestination : ControlFrame → Compile Nat
  | block endLabel _ => .ok endLabel
  | loop headLabel _ => .ok headLabel
  | .if endLabel _ _ _ => .ok endLabel
  | unreachable _ _ => .panic

/-- `end_label`. -/
def endLabel : ControlFrame → Compile Nat
  | block endLabel _ => .ok endLabel
  | .if endLabel _ _ _ => .ok endLabel
  | loop _ _ | unreachable _ _ => .panic

/-- `bump_branches`, as the translator calls it. -/
def bumpBranches (frame : ControlFrame) : Compile ControlFrame :=
  if frame.isReachable then
    .ok (frame.update fun f => { f with lenBranches := f.lenBranches + 1 })
  else
    .panic

/-- `update_consume_fuel_instr`. -/
def updateConsumeFuelInstr (frame : ControlFrame) (instr : Nat) : Compile ControlFrame :=
  match frame.reachable? with
  | some f =>
    if f.consumeFuel.isSome then
      .ok (frame.update fun f => { f with consumeFuel := some instr })
    else
      .panic
  | none => .ok frame

end ControlFrame

end Rwasm
