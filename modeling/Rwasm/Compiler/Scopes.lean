import Rwasm.Compiler.BranchTable
import Rwasm.Compiler.TailCall
import Rwasm.Compiler.Tracking

/-!
# The blocks around an operator

On typed code the translator has, at every operator, the frames of the blocks that are open, and on the
emulated stack the types of the validation: those the operator sees on top of those beneath each block. Code
that is not reachable is skipped; what it leaves on the emulated stack is on top of what was there.
-/

namespace Rwasm

open Opcode

/-- A block that is open: its label, the types that a branch to it carries, and those beneath its
parameters. -/
structure Scope where
  target : Nat
  label : List ValType
  beneath : List ValType

/-- The frames of the blocks around an operator, innermost first. -/
inductive Encloses (cx : Context) (Γ : Typing) (n : Nat) : List ControlFrame → List Scope → Prop
  | func {frame idx ps target} :
    frame.kind = .block →
    frame.isReachable = true →
    frame.branchDestination = .ok target →
    frame.blockType = .funcType idx →
    Γ.types[idx]? = some ⟨ps, Γ.results⟩ →
    frame.stackHeight = some 0 →
    (cx.withConsumeFuel = true → frame.consumeFuelInstr.isSome = true) →
    Encloses cx Γ n [frame] [⟨target, Γ.results, Γ.locals.reverse⟩]
  | block {frame frames ps rs ts outer scopes height target} :
    frame.isReachable = true →
    frame.branchDestination = .ok target →
    Γ.blockType frame.blockType = some ⟨ps, rs⟩ →
    frame.stackHeight = some height →
    height + n = slotCount (ts ++ outer.beneath) →
    (cx.withConsumeFuel = true → frame.consumeFuelInstr.isSome = true) →
    Encloses cx Γ n frames (outer :: scopes) →
    Encloses cx Γ n (frame :: frames)
      (⟨target, if frame.kind = .loop then ps else rs, ts ++ outer.beneath⟩ :: outer :: scopes)

namespace ControlFrame

variable {frame frame' : ControlFrame}

/-- What a frame has in common with one that differs in its charge and its branches. -/
lemma of_bare (same : frame'.bare = frame.bare) :
    frame'.kind = frame.kind ∧ frame'.isReachable = frame.isReachable ∧ frame'.blockType = frame.blockType ∧
      frame'.stackHeight = frame.stackHeight ∧
      frame'.consumeFuelInstr.isSome = frame.consumeFuelInstr.isSome ∧
      frame'.branchDestination = frame.branchDestination := by
  refine ⟨?_, ?_, ?_, ?_, ?_, ?_⟩
  · rw [← kind_bare, same, kind_bare]
  · rw [← isReachable_bare, same, isReachable_bare]
  · rw [← blockType_bare, same, blockType_bare]
  · rw [← stackHeight_bare, same, stackHeight_bare]
  · rw [← isSome_consumeFuelInstr_bare, same, isSome_consumeFuelInstr_bare]
  · rw [← branchDestination_bare, same, branchDestination_bare]

/-- The frame of an `if`, but for its charge and its branches. -/
lemma if_of_bare {endLabel elseLabel : Nat} {reach : Option Bool} {r : ReachableFrame}
    (same : frame.bare = bare (.if endLabel elseLabel reach r)) :
    ∃ r', frame = .if endLabel elseLabel reach r' ∧ r'.blockType = r.blockType ∧
      r'.stackHeight = r.stackHeight ∧ r'.consumeFuel.isSome = r.consumeFuel.isSome := by
  have fuel := (of_bare same).2.2.2.2.1
  cases frame with
  | «if» e l reach' r' =>
    simp only [bare, update, ControlFrame.if.injEq, ReachableFrame.mk.injEq] at same
    obtain ⟨rfl, rfl, rfl, type, height, -, -⟩ := same
    exact ⟨r', rfl, type, height, fuel⟩
  | _ => cases same

/-- An unreachable frame has no numbers to leave out. -/
lemma unreachable_of_bare {kind : ControlFrameKind} {type : BlockType}
    (same : frame.bare = .unreachable kind type) : frame = .unreachable kind type := by
  cases frame <;> cases same
  rfl

end ControlFrame

namespace Encloses

variable {cx : Context} {Γ : Typing} {n d : Nat} {frames frames' : List ControlFrame} {scopes : List Scope}
  {scope : Scope}

/-- Which scopes frames enclose does not depend on their charges and branches. -/
lemma of_bare (h : Encloses cx Γ n frames scopes)
    (same : frames'.map ControlFrame.bare = frames.map ControlFrame.bare) :
    Encloses cx Γ n frames' scopes := by
  induction h generalizing frames' with
  | func kind live dest type typed height fuel =>
    obtain ⟨frame', rest, rfl, eq, nil⟩ := List.map_eq_cons_iff.mp same
    cases List.map_eq_nil_iff.mp nil
    obtain ⟨kind', live', type', height', fuel', dest'⟩ := ControlFrame.of_bare eq
    exact .func (kind'.trans kind) (live'.trans live) (dest'.trans dest) (type'.trans type) typed
      (height'.trans height) fun on => fuel'.trans (fuel on)
  | block live dest typed height slots fuel _ ih =>
    obtain ⟨frame', rest, rfl, eq, others⟩ := List.map_eq_cons_iff.mp same
    obtain ⟨kind', live', type', height', fuel', dest'⟩ := ControlFrame.of_bare eq
    rw [← kind']
    exact .block (live'.trans live) (dest'.trans dest) (type' ▸ typed) (height'.trans height) slots
      (fun on => fuel'.trans (fuel on)) (ih others)

/-- There is a scope for each frame. -/
lemma length_eq (h : Encloses cx Γ n frames scopes) : frames.length = scopes.length := by
  induction h with
  | func => rfl
  | block _ _ _ _ _ _ _ ih => rw [List.length_cons, List.length_cons, ih]

/-- The locals are at the bottom. -/
lemma locals (h : Encloses cx Γ n frames (scope :: scopes)) :
    ∃ mid, scope.beneath = mid ++ Γ.locals.reverse := by
  generalize eq : scope :: scopes = all at h
  induction h generalizing scope scopes with
  | func =>
    cases eq
    exact ⟨[], rfl⟩
  | @block frame frames ps rs ts outer scopes height target _ _ _ _ _ _ _ ih =>
    cases eq
    obtain ⟨mid, bottom⟩ := ih rfl
    exact ⟨ts ++ mid, by rw [bottom, List.append_assoc]⟩

/-- The outermost block is that of the function. -/
lemma last (h : Encloses cx Γ n frames scopes) :
    ∃ target, scopes.getLast? = some ⟨target, Γ.results, Γ.locals.reverse⟩ := by
  induction h with
  | func => exact ⟨_, rfl⟩
  | block _ _ _ _ _ _ _ ih =>
    obtain ⟨target, last⟩ := ih
    exact ⟨target, by rw [List.getLast?_cons_cons, last]⟩

/-- The innermost frame is charged, where fuel is metered. -/
lemma fueled (h : Encloses cx Γ n frames scopes) (on : cx.withConsumeFuel = true) :
    (frames.head?.bind ControlFrame.consumeFuelInstr).isSome = true := by
  cases h with
  | func _ _ _ _ _ _ fuel => exact fuel on
  | block _ _ _ _ _ fuel _ => exact fuel on

/-- The frame of the block a branch goes to. -/
lemma frame (h : Encloses cx Γ n frames scopes) (found : scopes[d]? = some scope) :
    ∃ frame ps rs, frames[d]? = some frame ∧ frame.branchDestination = .ok scope.target ∧
      Γ.blockType frame.blockType = some ⟨ps, rs⟩ ∧
      scope.label = (if frame.kind = .loop then ps else rs) ∧
      ∃ height, frame.stackHeight = some height ∧
        (d + 1 = scopes.length ∧ height = 0 ∧ scope.label = Γ.results ∨
          d + 1 < scopes.length ∧ height + n = slotCount scope.beneath) := by
  induction h generalizing d with
  | @func frame idx ps target kind live dest type typed height fuel =>
    -- the height of the function is 0, above its parameters
    cases d with
    | zero =>
      cases found
      refine ⟨frame, ps, Γ.results, rfl, dest, ?_, ?_, 0, height, .inl ⟨rfl, rfl, rfl⟩⟩
      · rw [type]
        exact typed
      · rw [kind, if_neg (by rintro ⟨⟩)]
    | succ d => cases found
  | @block frame frames ps rs ts outer scopes height target live dest typed hh slots fuel _ ih =>
    cases d with
    | zero =>
      cases found
      refine ⟨frame, ps, rs, rfl, dest, typed, rfl, height, hh, .inr ⟨?_, slots⟩⟩
      rw [List.length_cons, List.length_cons]
      omega
    | succ d =>
      obtain ⟨frame', ps', rs', there, live', typed', label, height', hh', cases'⟩ := ih found
      refine ⟨frame', ps', rs', there, live', typed', label, height', hh', ?_⟩
      rcases cases' with ⟨eq, rest⟩ | ⟨lt, slots'⟩
      · exact .inl ⟨congrArg Nat.succ eq, rest⟩
      · exact .inr ⟨Nat.succ_lt_succ lt, slots'⟩

end Encloses

/-- Types that slots are dropped above of. -/
lemma shrinkTypes_append {tops beneath : List ValType} {h height : Nat}
    (above : height = h + slotCount tops) :
    shrinkTypes h height (tops ++ beneath) = .ok beneath := by
  induction tops generalizing height with
  | nil =>
    unfold shrinkTypes
    rw [if_pos (show height ≤ h from Nat.le_of_eq above), List.nil_append]
  | cons type tops ih =>
    have some : 0 < type.slots := by
      cases type <;> exact Nat.zero_lt_succ _
    rw [slotCount_cons] at above
    unfold shrinkTypes
    rw [if_neg (by omega), List.cons_append]
    dsimp only
    rw [if_pos (by omega)]
    exact ih (by omega)

/-- Pushing values raises the height by their slots. -/
lemma ValueStackHeight.height_pushed {h : ValueStackHeight} {types : List ValType} :
    (h.pushed types).height = h.height + slotCount types := by
  unfold ValueStackHeight.pushed
  induction types generalizing h with
  | nil => rfl
  | cons type types ih =>
    rw [List.foldl_cons, ih, slotCount_cons]
    show h.height + type.slots + _ = _
    exact Nat.add_assoc _ _ _

namespace InstructionTranslator

variable {cx : Context} {Γ : Typing} {t t' t'' : InstructionTranslator} {scopes : List Scope} {scope : Scope}
  {ts us ws ps rs : List ValType} {type : BlockType} {depth : Nat}

/-! ## Where the translation is -/

/-- At an operator, the blocks are open, and the emulated stack has types `ts` above those beneath the
innermost block. -/
structure Tracks (cx : Context) (Γ : Typing) (t : InstructionTranslator) (scopes : List Scope)
    (ts : List ValType) : Prop where
  enclosed : Encloses cx Γ t.lenRegistered t.controlFrames scopes
  types : ∃ scope, scopes.head? = some scope ∧ t.stackTypes = ts ++ scope.beneath
  height : t.height + t.lenRegistered = slotCount t.stackTypes

/-- The frames of two states agree, but for charges and branches. -/
structure SameFrames (t t' : InstructionTranslator) : Prop where
  frames : t'.controlFrames.map ControlFrame.bare = t.controlFrames.map ControlFrame.bare
  locals : t'.lenRegistered = t.lenRegistered

/-- A state has the frames it has. -/
lemma SameFrames.refl : t.SameFrames t :=
  ⟨rfl, rfl⟩

/-- Three states with the same frames. -/
lemma SameFrames.trans (h : t.SameFrames t') (h' : t'.SameFrames t'') : t.SameFrames t'' :=
  ⟨h'.frames.trans h.frames, h'.locals.trans h.locals⟩

/-- The types on top of the emulated stack change. -/
lemma Tracks.retype (h : Tracks cx Γ t (scope :: scopes) ts) (same : t.SameFrames t')
    (types : t'.stackTypes = us ++ scope.beneath)
    (height : t'.height + slotCount ts = t.height + slotCount us) : Tracks cx Γ t' (scope :: scopes) us where
  enclosed := by
    rw [same.locals]
    exact h.enclosed.of_bare same.frames
  types := ⟨scope, rfl, types⟩
  height := by
    have before := h.height
    obtain ⟨_, eq, top⟩ := h.types
    cases eq
    rw [top, slotCount_append] at before
    rw [same.locals, types, slotCount_append]
    omega

/-- There is always a scope, that of the function. -/
lemma Tracks.cons (h : Tracks cx Γ t scopes ts) : ∃ scope rest, scopes = scope :: rest := by
  obtain ⟨scope, head, -⟩ := h.types
  obtain ⟨rest, eq⟩ := List.head?_eq_some_iff.mp head
  exact ⟨scope, rest, eq⟩

/-- The types beneath the innermost scope stay below the operands. -/
lemma Tracks.stackTypes (h : Tracks cx Γ t (scope :: scopes) ts) : t.stackTypes = ts ++ scope.beneath := by
  obtain ⟨_, eq, types⟩ := h.types
  cases eq
  exact types

/-! ## Operators in the innermost block -/

/-- What a visit that falls through leaves of the frames. -/
lemma visitPlain_frames {op : PlainOperator} (live : t.reachable = true) (h : t.visitPlain cx op = .ok t') :
    t.SameFrames t' ∧ t'.reachable = true := by
  obtain ⟨ops, -, eq⟩ := visitPlain_visited live h
  have record : ∀ (s : Skeleton) (snippet : Option Snippet),
      (s.record snippet).controlFrames = s.controlFrames ∧
      (s.record snippet).lenRegistered = s.lenRegistered ∧ (s.record snippet).reachable = s.reachable := by
    intro s snippet
    cases snippet <;> exact ⟨rfl, rfl, rfl⟩
  obtain ⟨frames, locals, reachable⟩ :=
    record (t.skeleton.charge cx (op.cost cx.costs)) (op.snippet? cx)
  refine ⟨⟨?_, ?_⟩, ?_⟩
  · show t'.skeleton.controlFrames.map _ = _
    rw [eq]
    show (Skeleton.record _ _).controlFrames.map _ = _
    rw [frames, Skeleton.charge_controlFrames]
    rfl
  · show t'.skeleton.lenRegistered = _
    rw [eq]
    show (Skeleton.record _ _).lenRegistered = _
    rw [locals, Skeleton.charge_lenRegistered]
    rfl
  · show t'.skeleton.reachable = _
    rw [eq]
    show (Skeleton.record _ _).reachable = _
    rw [reachable, Skeleton.charge_reachable]
    exact live

/-- An operator that falls through replaces its operands by its results. -/
lemma visitPlain_tracks {op : PlainOperator} (agrees : cx.Agrees Γ) (typed : op.HasType Γ ts us)
    (live : t.reachable = true) (tracks : Tracks cx Γ t scopes ts) (h : t.visitPlain cx op = .ok t') :
    Tracks cx Γ t' scopes us ∧ t.SameFrames t' := by
  obtain ⟨scope, rest, rfl⟩ := tracks.cons
  obtain ⟨mid, bottom⟩ := tracks.enclosed.locals
  obtain ⟨same, -⟩ := visitPlain_frames live h
  have types := tracks.stackTypes
  rw [bottom] at types
  have retyped := visitPlain_retypes agrees typed live types h
  refine ⟨tracks.retype same ?_ retyped.height, same⟩
  rw [bottom]
  exact retyped.types

/-- A visit that leaves the emulated stack, but for the recorded maximum. -/
lemma Tracks.same (tracks : Tracks cx Γ t scopes ts) (same : t.SameFrames t')
    (types : t'.stackTypes = t.stackTypes) (height : t'.height = t.height) : Tracks cx Γ t' scopes ts := by
  obtain ⟨scope, rest, rfl⟩ := tracks.cons
  exact tracks.retype same (types.trans tracks.stackTypes) (by rw [height])

/-- The condition or the index is popped. -/
lemma Tracks.conditioned (tracks : Tracks cx Γ t scopes (.i32 :: ts)) (some : 1 ≤ t.height) :
    Tracks cx Γ t.conditioned scopes ts := by
  obtain ⟨scope, rest, rfl⟩ := tracks.cons
  refine tracks.retype ⟨rfl, rfl⟩ ?_ ?_
  · show t.stackTypes.tail = _
    rw [tracks.stackTypes]
    rfl
  · show t.height - 1 + _ = _
    rw [slotCount_cons, slots_i32]
    omega

/-- `br_if` takes its condition and falls through. -/
lemma visitBrIf_tracks (live : t.reachable = true) (tracks : Tracks cx Γ t scopes (.i32 :: ts))
    (h : t.visitBrIf cx depth = .ok t') :
    Tracks cx Γ t' scopes ts ∧ t.SameFrames t' ∧ t'.reachable = true := by
  obtain ⟨some, -, -, ops, labels, stackHeight, branches, rfl, frames⟩ := visitBrIf_ok live h
  have same : t.SameFrames _ := ⟨frames, rfl⟩
  refine ⟨(tracks.conditioned some).same ⟨frames, rfl⟩ rfl ?_, same, live⟩
  show stackHeight.height = t.conditioned.stackHeight.height
  cases branches with
  | direct => rfl
  | branch | ret => exact height_touch

/-- What is left, and what else is not gone on with, has the types it is left with. -/
lemma visitLeave_tracks {op : LeavingOperator} (live : t.reachable = true) (tracks : Tracks cx Γ t scopes ts)
    (simple : op = .unreachable ∨ (∃ depth, op = .br depth) ∨ op = .ret) (h : t.visitLeave cx op = .ok t') :
    Tracks cx Γ t' scopes ts ∧ t.SameFrames t' ∧ t'.reachable = false := by
  rcases simple with rfl | ⟨depth, rfl⟩ | rfl
  · obtain rfl := visitUnreachable_ok live h
    exact ⟨tracks.same ⟨rfl, rfl⟩ rfl rfl, ⟨rfl, rfl⟩, rfl⟩
  · obtain ⟨-, ⟨label, dk, offset, labels, -, -, rfl⟩ | ⟨dk, dk', -, -, rfl⟩⟩ := visitBr_ok live h
    all_goals
      have same := @alike_counted t depth
      exact ⟨tracks.same ⟨same.frames, rfl⟩ rfl height_touch, ⟨same.frames, rfl⟩, rfl⟩
  · obtain ⟨dk, -, rfl⟩ := visitReturn_ok live h
    exact ⟨tracks.same ⟨rfl, rfl⟩ rfl height_touch, ⟨rfl, rfl⟩, rfl⟩

/-- `br_table` takes its index, and nothing after it is reachable. -/
lemma visitBrTable_tracks {targets : List Nat} {default : Nat} (live : t.reachable = true)
    (tracks : Tracks cx Γ t scopes (.i32 :: ts)) (h : t.visitBrTable cx targets default = .ok t') :
    Tracks cx Γ t' scopes ts ∧ t.SameFrames t' ∧ t'.reachable = false := by
  obtain ⟨some, -, -, code, t₁, tabled, -, -, rfl⟩ := visitBrTable_ok live h
  have same : t.SameFrames t₁ := ⟨tabled.alike.frames, tabled.alike.locals⟩
  exact ⟨(tracks.conditioned some).same ⟨same.frames, same.locals⟩ tabled.stackTypes tabled.alike.height,
    ⟨same.frames, same.locals⟩, rfl⟩

/-- A tail call leaves its arguments on the emulated stack. -/
lemma visitReturnCall_tracks {func : Nat} (live : t.reachable = true) (tracks : Tracks cx Γ t scopes ts)
    (h : t.visitReturnCall cx func = .ok t') :
    Tracks cx Γ t' scopes ts ∧ t.SameFrames t' ∧ t'.reachable = false := by
  simp only [visitReturnCall, translateIfReachable, live, if_true, Compile.bind_ok] at h
  obtain ⟨idx, -, funcType, -, dk, -, t₁, h₁, ops, -, h⟩ := h
  cases h
  obtain rfl := bumpFuelConsumption_ok h₁
  exact ⟨tracks.same ⟨rfl, rfl⟩ rfl height_touch, ⟨rfl, rfl⟩, rfl⟩

/-- So does an indirect one, whose index is popped. -/
lemma visitReturnCallIndirect_tracks {idx table : Nat} (live : t.reachable = true)
    (tracks : Tracks cx Γ t scopes (.i32 :: ts)) (h : t.visitReturnCallIndirect cx idx table = .ok t') :
    Tracks cx Γ t' scopes ts ∧ t.SameFrames t' ∧ t'.reachable = false := by
  simp only [visitReturnCallIndirect, translateIfReachable, live, if_true, Compile.bind_ok, Prod.exists] at h
  obtain ⟨funcType, -, t₁, h₁, popped, t₂, h₂, dk₁, -, dk, -, t₃, h₃, signature, -, h⟩ := h
  cases h
  obtain ⟨some, rfl⟩ := popN_ok h₁
  obtain ⟨types, there, rfl⟩ := popType_ok h₂
  obtain rfl := bumpFuelConsumption_ok h₃
  have tail : types = t.stackTypes.tail := by
    rw [show t.stackTypes = popped :: types from there]
    rfl
  exact ⟨(tracks.conditioned some).same ⟨rfl, rfl⟩ tail height_touch, ⟨rfl, rfl⟩, rfl⟩

/-! ## Opening and closing blocks -/

/-- A block has been opened, from a state on. -/
structure Opened (frame : ControlFrame) (t t₁ : InstructionTranslator) : Prop where
  frames : ∃ frames, t₁.controlFrames = frame :: frames ∧
    frames.map ControlFrame.bare = t.controlFrames.map ControlFrame.bare
  locals : t₁.lenRegistered = t.lenRegistered

/-- A frame is entered at the height below the parameters of its block. -/
lemma frameStackHeight_ok {height : Nat} (agrees : cx.Agrees Γ) (typed : Γ.blockType type = some ⟨ps, rs⟩)
    (h : t.frameStackHeight cx type = .ok height) : t.height = height + slotCount ps := by
  obtain ⟨len, hl, h⟩ := Compile.bind_ok.mp h
  cases (agrees.blockLens typed).1.symm.trans hl
  split at h
  next le =>
    cases h
    exact (Nat.sub_add_cancel le).symm
  · cases h

/-- A block is opened around its parameters. -/
lemma Tracks.open {frame : ControlFrame} {target height : Nat} {labels : LabelRegistry} {code : List Opcode}
    (tracks : Tracks cx Γ t (scope :: scopes) (ps.reverse ++ ts)) (reachable : frame.isReachable = true)
    (dest : frame.branchDestination = .ok target) (typed : Γ.blockType frame.blockType = some ⟨ps, rs⟩)
    (at' : frame.stackHeight = some height) (above : t.height = height + slotCount ps)
    (fuel : cx.withConsumeFuel = true → frame.consumeFuelInstr.isSome = true) :
    Tracks cx Γ { t with labels := labels, controlFrames := frame :: t.controlFrames, instructionSet := code }
      (⟨target, if frame.kind = .loop then ps else rs, ts ++ scope.beneath⟩ :: scope :: scopes)
      ps.reverse where
  enclosed := by
    refine .block reachable dest typed at' ?_ fuel tracks.enclosed
    have slots := tracks.height
    rw [tracks.stackTypes] at slots
    simp only [slotCount_append, slotCount_reverse] at slots ⊢
    omega
  types := ⟨_, rfl, by rw [← List.append_assoc]; exact tracks.stackTypes⟩
  height := tracks.height

/-- `block` opens a scope that exits with its results. -/
lemma visitBlock_tracks (agrees : cx.Agrees Γ) (live : t.reachable = true)
    (typed : Γ.blockType type = some ⟨ps, rs⟩) (tracks : Tracks cx Γ t (scope :: scopes) (ps.reverse ++ ts))
    (h : t.visitBlock cx type = .ok t') :
    Tracks cx Γ t' (⟨t.labels.labels.length, rs, ts ++ scope.beneath⟩ :: scope :: scopes) ps.reverse ∧
      t'.reachable = true ∧
      ∃ r, r.blockType = type ∧ t.Opened (.block t.labels.labels.length r) t' := by
  obtain ⟨height, hh, rfl⟩ := visitBlock_ok live h
  have above := frameStackHeight_ok agrees typed hh
  exact ⟨tracks.open rfl rfl typed rfl above tracks.enclosed.fueled, live, _, rfl, ⟨_, rfl, rfl⟩, rfl⟩

/-- With charges on there is one for each block. -/
lemma fuelAt_isSome {pc : Nat} (on : cx.withConsumeFuel = true) : (cx.fuelAt pc).isSome = true := by
  rw [Context.fuelAt, on, if_pos rfl]
  rfl

/-- `loop` opens a scope that exits to its start, with its parameters. -/
lemma visitLoop_tracks (agrees : cx.Agrees Γ) (live : t.reachable = true)
    (typed : Γ.blockType type = some ⟨ps, rs⟩) (tracks : Tracks cx Γ t (scope :: scopes) (ps.reverse ++ ts))
    (h : t.visitLoop cx type = .ok t') :
    Tracks cx Γ t' (⟨t.labels.labels.length, ps, ts ++ scope.beneath⟩ :: scope :: scopes) ps.reverse ∧
      t'.reachable = true ∧
      ∃ r, r.blockType = type ∧ t.Opened (.loop t.labels.labels.length r) t' := by
  obtain ⟨height, labels, hh, -, rfl⟩ := visitLoop_ok live h
  have above := frameStackHeight_ok agrees typed hh
  exact ⟨tracks.open rfl rfl typed rfl above fuelAt_isSome, live, _, rfl, ⟨_, rfl, rfl⟩, rfl⟩

/-- `if` takes its condition and opens a scope for both arms. -/
lemma visitIf_tracks (agrees : cx.Agrees Γ) (live : t.reachable = true)
    (typed : Γ.blockType type = some ⟨ps, rs⟩)
    (tracks : Tracks cx Γ t (scope :: scopes) (.i32 :: (ps.reverse ++ ts))) (h : t.visitIf cx type = .ok t') :
    Tracks cx Γ t' (⟨t.labels.labels.length + 1, rs, ts ++ scope.beneath⟩ :: scope :: scopes) ps.reverse ∧
      t'.reachable = true ∧
      ∃ r, r.blockType = type ∧
        t.Opened (.if (t.labels.labels.length + 1) t.labels.labels.length none r) t' := by
  obtain ⟨height, offset, labels, some, hh, -, rfl⟩ := visitIf_ok live h
  have above := frameStackHeight_ok agrees typed hh
  exact ⟨Tracks.open (t := t.conditioned) (tracks.conditioned some) rfl rfl typed rfl above
    fuelAt_isSome, live, _, rfl, ⟨_, rfl, rfl⟩, rfl⟩

/-- The slots above a block. -/
lemma Tracks.above {frame : ControlFrame} {frames : List ControlFrame} {height : Nat}
    (tracks : Tracks cx Γ t (scope :: scopes) us) (found : t.controlFrames = frame :: frames)
    (inner : scopes ≠ []) (at' : frame.stackHeight = some height) :
    t.stackHeight.height = height + slotCount us := by
  obtain ⟨frame', _, _, there, _, _, _, height', hh, outer | ⟨-, slots⟩⟩ :=
    tracks.enclosed.frame (d := 0) rfl
  · have none : scopes = [] := List.length_eq_zero_iff.mp (Nat.succ.inj outer.1.symm)
    exact absurd none inner
  · rw [found] at there
    cases there
    cases hh.symm.trans at'
    have all := tracks.height
    rw [tracks.stackTypes, slotCount_append] at all
    have eq : t.height = t.stackHeight.height := rfl
    omega

/-- The second arm is entered with the parameters of its `if`. -/
lemma visitElse_tracks {endLabel elseLabel : Nat} {r : ReachableFrame} {frames : List ControlFrame}
    (agrees : cx.Agrees Γ) (found : t.controlFrames = .if endLabel elseLabel none r :: frames)
    (typed : Γ.blockType r.blockType = some ⟨ps, rs⟩) (inner : scopes ≠ [])
    (tracks : Tracks cx Γ t (scope :: scopes) us) (h : t.visitElse cx = .ok t') :
    Tracks cx Γ t' (scope :: scopes) ps.reverse ∧ t'.reachable = true ∧ t'.lenRegistered = t.lenRegistered ∧
      ∃ r', t'.controlFrames = .if endLabel elseLabel (some t.reachable) r' :: frames ∧
        r'.blockType = r.blockType := by
  obtain ⟨jump, labels, labels', fuel, types, params, -, -, hf, le, shrunk, hp, rfl⟩ := visitElse_ok found h
  cases (agrees.blockTypes typed).1.symm.trans hp
  have above := tracks.above found inner rfl
  rw [tracks.stackTypes, shrinkTypes_append above] at shrunk
  cases shrunk
  refine ⟨⟨?_, ⟨scope, rfl, rfl⟩, ?_⟩, rfl, rfl, _, rfl, rfl⟩
  · have enclosed := tracks.enclosed
    rw [found] at enclosed
    cases enclosed with
    | func kind => cases kind
    | block _ dest typed' at' slots _ outer =>
      -- the second arm has a charge of its own where the first one has
      refine .block rfl dest typed' at' slots (fun on => ?_) outer
      unfold elseFuel Context.fuelAt at hf
      rw [on, if_pos rfl] at hf
      dsimp only at hf
      split at hf
      · cases hf
        rfl
      · cases hf
  · show (ValueStackHeight.pushed _ _).height + _ = _
    have all := tracks.height
    have eq : t.height = t.stackHeight.height := rfl
    rw [tracks.stackTypes, slotCount_append] at all
    rw [ValueStackHeight.height_pushed, slotCount_append, slotCount_reverse]
    dsimp only
    omega

/-- Behind a block are its results. -/
lemma visitEnd_tracks {target : Nat} {frame : ControlFrame} {frames : List ControlFrame}
    (agrees : cx.Agrees Γ)
    (found : t.controlFrames = frame :: frames) (typed : Γ.blockType frame.blockType = some ⟨ps, rs⟩)
    (tracks : Tracks cx Γ t (⟨target, us, ts ++ scope.beneath⟩ :: scope :: scopes) ws)
    (h : t.visitEnd cx = .ok t') :
    Tracks cx Γ t' (scope :: scopes) (rs.reverse ++ ts) ∧ t'.reachable = true ∧
      t'.controlFrames.map ControlFrame.bare = frames.map ControlFrame.bare ∧
      t'.lenRegistered = t.lenRegistered := by
  have enclosed := tracks.enclosed
  rw [found] at enclosed
  generalize eq : (⟨target, us, ts ++ scope.beneath⟩ : Scope) = inner at enclosed
  cases enclosed with
  | block live _ _ at' slots _ outer =>
    have some : frames ≠ [] := by
      rintro rfl
      cases outer
    obtain ⟨labels, height, types, results, -, hh, le, shrunk, hr, rfl, same⟩ := visitEnd_ok found some live h
    cases (agrees.blockTypes typed).2.symm.trans hr
    have above := tracks.above found (List.cons_ne_nil _ _) hh
    rw [tracks.stackTypes, shrinkTypes_append above] at shrunk
    cases shrunk
    refine ⟨⟨outer.of_bare same, ⟨scope, rfl, ?_⟩, ?_⟩, rfl, same, rfl⟩
    · show rs.reverse ++ (ts ++ scope.beneath) = _
      rw [List.append_assoc]
    · show (ValueStackHeight.pushed _ _).height + _ = _
      have all := tracks.height
      have eq : t.height = t.stackHeight.height := rfl
      rw [tracks.stackTypes, slotCount_append] at all
      rw [ValueStackHeight.height_pushed, slotCount_append, slotCount_reverse]
      dsimp only at all ⊢
      omega

/-! ## Unreachable code -/

/-- Operators visited in two parts. -/
lemma visitAll_append {ops ops' : List Operator} (h : visitAll cx (ops ++ ops') t = .ok t') :
    ∃ t₁, visitAll cx ops t = .ok t₁ ∧ visitAll cx ops' t₁ = .ok t' := by
  induction ops generalizing t with
  | nil => exact ⟨t, rfl, h⟩
  | cons op ops ih =>
    obtain ⟨t₁, visited, h⟩ := Compile.bind_ok.mp h
    obtain ⟨t₂, before, after⟩ := ih h
    exact ⟨t₂, Compile.bind_ok.mpr ⟨t₁, visited, before⟩, after⟩

/-- What is left of unreachable code: nothing but types on the emulated stack. -/
structure Skips (t t' : InstructionTranslator) : Prop where
  reachable : t'.reachable = false
  same : t.SameFrames t'
  types : ∃ junk, t'.stackTypes = junk ++ t.stackTypes ∧ t'.height = t.height + slotCount junk

/-- Nothing was visited. -/
lemma Skips.refl (dead : t.reachable = false) : t.Skips t :=
  ⟨dead, .refl, [], rfl, rfl⟩

/-- Unreachable code in two parts. -/
lemma Skips.trans (h : t.Skips t') (h' : t'.Skips t'') : t.Skips t'' where
  reachable := h'.reachable
  same := h.same.trans h'.same
  types := by
    obtain ⟨junk, types, height⟩ := h.types
    obtain ⟨junk', types', height'⟩ := h'.types
    refine ⟨junk' ++ junk, by rw [types', types, List.append_assoc], ?_⟩
    rw [slotCount_append]
    omega

/-- The state has frames. -/
lemma SameFrames.ne_nil (h : t.SameFrames t') (some : t.controlFrames ≠ []) : t'.controlFrames ≠ [] := by
  intro nil
  have frames := h.frames
  rw [nil, List.map_nil] at frames
  exact some (List.map_eq_nil_iff.mp frames.symm)

/-- A block that is opened in unreachable code is unreachable. -/
lemma Skips.frame {kind : ControlFrameKind} (h : (t.pushFrame (.unreachable kind type)).Skips t') :
    ∃ frames, t'.controlFrames = .unreachable kind type :: frames ∧
      frames.map ControlFrame.bare = t.controlFrames.map ControlFrame.bare := by
  obtain ⟨frame, frames, eq, bare, rest⟩ := List.map_eq_cons_iff.mp h.same.frames
  refine ⟨frames, ?_, rest⟩
  rw [eq, ControlFrame.unreachable_of_bare bare]

/-- A block in unreachable code. -/
lemma Skips.block {kind : ControlFrameKind} (some : t.controlFrames ≠ [])
    (body : (t.pushFrame (.unreachable kind type)).Skips t') (h : t'.visitEnd cx = .ok t'') :
    t.Skips t'' := by
  obtain ⟨frames, eq, rest⟩ := body.frame
  have inner : frames ≠ [] := by
    rintro rfl
    exact some (List.map_eq_nil_iff.mp rest.symm)
  obtain ⟨results, rfl, same⟩ := visitEnd_unreachable eq inner h
  obtain ⟨junk, types, height⟩ := body.types
  refine ⟨rfl, ⟨same.trans rest, body.same.locals⟩, results.reverse ++ junk, ?_, ?_⟩
  · rw [List.append_assoc]
    exact congrArg _ types
  · show (ValueStackHeight.pushed _ _).height = _
    rw [ValueStackHeight.height_pushed, slotCount_append, slotCount_reverse]
    have before : t'.stackHeight.height = t.height + slotCount junk := height
    omega

/-- Unreachable code is skipped. -/
theorem visitAll_skips {e : Expr} (dead : t.reachable = false) (some : t.controlFrames ≠ [])
    (h : visitAll cx e.flatten t = .ok t') : t.Skips t' := by
  induction e generalizing t t' with
  | nil =>
    cases h
    exact .refl dead
  | plain op rest ih =>
    obtain ⟨t₁, visited, after⟩ := Compile.bind_ok.mp h
    obtain rfl := visitPlain_unreachable dead visited
    exact ih dead some after
  | leave op rest ih =>
    obtain ⟨t₁, visited, after⟩ := Compile.bind_ok.mp h
    obtain rfl := visitLeave_dead op dead visited
    exact ih dead some after
  | brIf depth rest ih =>
    obtain ⟨t₁, visited, after⟩ := Compile.bind_ok.mp h
    obtain rfl := visitBrIf_dead dead visited
    exact ih dead some after
  | block type body rest ihb ihr =>
    obtain ⟨t₁, visited, h⟩ := Compile.bind_ok.mp h
    obtain ⟨t₂, inside, h⟩ := visitAll_append h
    obtain ⟨t₃, closed, h⟩ := Compile.bind_ok.mp h
    rw [visitBlock_dead dead visited] at inside
    have inner := ihb (t := t.pushFrame (.unreachable .block type)) dead (List.cons_ne_nil _ _) inside
    have skipped := inner.block some closed
    exact skipped.trans (ihr skipped.reachable (skipped.same.ne_nil some) h)
  | loop type body rest ihb ihr =>
    obtain ⟨t₁, visited, h⟩ := Compile.bind_ok.mp h
    obtain ⟨t₂, inside, h⟩ := visitAll_append h
    obtain ⟨t₃, closed, h⟩ := Compile.bind_ok.mp h
    rw [visitLoop_dead dead visited] at inside
    have inner := ihb (t := t.pushFrame (.unreachable .loop type)) dead (List.cons_ne_nil _ _) inside
    have skipped := inner.block some closed
    exact skipped.trans (ihr skipped.reachable (skipped.same.ne_nil some) h)
  | «if» type body rest ihb ihr =>
    obtain ⟨t₁, visited, h⟩ := Compile.bind_ok.mp h
    obtain ⟨t₂, inside, h⟩ := visitAll_append h
    obtain ⟨t₃, closed, h⟩ := Compile.bind_ok.mp h
    rw [visitIf_dead dead visited] at inside
    have inner := ihb (t := t.pushFrame (.unreachable .if type)) dead (List.cons_ne_nil _ _) inside
    have skipped := inner.block some closed
    exact skipped.trans (ihr skipped.reachable (skipped.same.ne_nil some) h)
  | ifElse type body orelse rest ihb iho ihr =>
    obtain ⟨t₁, visited, h⟩ := Compile.bind_ok.mp h
    obtain ⟨t₂, inside, h⟩ := visitAll_append h
    obtain ⟨t₃, between, h⟩ := Compile.bind_ok.mp h
    obtain ⟨t₄, inside', h⟩ := visitAll_append h
    obtain ⟨t₅, closed, h⟩ := Compile.bind_ok.mp h
    rw [visitIf_dead dead visited] at inside
    have first := ihb (t := t.pushFrame (.unreachable .if type)) dead (List.cons_ne_nil _ _) inside
    obtain ⟨frames, eq, -⟩ := first.frame
    -- between the arms of a frame that is unreachable nothing happens
    have same : t₃ = t₂ := by
      rcases visitElse_inv between with ⟨_, _, _, _, found⟩ | same
      · rw [eq] at found
        cases found
      · exact same
    rw [same] at inside'
    have second := iho first.reachable (by rw [eq]; exact List.cons_ne_nil _ _) inside'
    have skipped := (first.trans second).block some closed
    exact skipped.trans (ihr skipped.reachable (skipped.same.ne_nil some) h)

/-- Behind unreachable code the scopes are those before it. -/
lemma Skips.tracks (h : t.Skips t') (tracks : Tracks cx Γ t scopes ts) :
    ∃ us, Tracks cx Γ t' scopes us := by
  obtain ⟨scope, rest, rfl⟩ := tracks.cons
  obtain ⟨junk, types, height⟩ := h.types
  refine ⟨junk ++ ts, tracks.retype h.same ?_ ?_⟩
  · rw [types, tracks.stackTypes, List.append_assoc]
  · rw [height, slotCount_append]
    omega

/-! ## Reachable code -/

/-- Where the translation is behind typed code that was reachable. -/
structure Ends (cx : Context) (Γ : Typing) (t : InstructionTranslator) (scopes : List Scope)
    (us : List ValType) (t' : InstructionTranslator) : Prop where
  same : t.SameFrames t'
  tracks : ∃ ts, Tracks cx Γ t' scopes ts ∧ (t'.reachable = true → ts = us)

/-- The frame of the function is always there. -/
lemma Tracks.ne_nil (tracks : Tracks cx Γ t scopes ts) : t.controlFrames ≠ [] := by
  intro nil
  have enclosed := tracks.enclosed
  rw [nil] at enclosed
  cases enclosed

/-- What follows an operator that is not gone on with is skipped. -/
lemma Ends.of_left {e : Expr} (tracks : Tracks cx Γ t' scopes ts) (same : t.SameFrames t')
    (left : t'.reachable = false) (h : visitAll cx e.flatten t' = .ok t'') : Ends cx Γ t scopes us t'' := by
  have skipped := visitAll_skips left tracks.ne_nil h
  obtain ⟨ws, tracks'⟩ := skipped.tracks tracks
  refine ⟨same.trans skipped.same, ws, tracks', fun live => ?_⟩
  rw [skipped.reachable] at live
  cases live

/-- The body of a block leaves it open. -/
lemma Opened.body {frame : ControlFrame} {t₁ t₂ : InstructionTranslator} (opened : t.Opened frame t₁)
    (same : t₁.SameFrames t₂) : ∃ frame', t.Opened frame' t₂ ∧ frame'.bare = frame.bare := by
  obtain ⟨frames, eq, outside⟩ := opened.frames
  have bare := same.frames
  rw [eq] at bare
  obtain ⟨frame', rest, found, bare', others⟩ := List.map_eq_cons_iff.mp bare
  exact ⟨frame', ⟨⟨rest, found, others.trans outside⟩, same.locals.trans opened.locals⟩, bare'⟩

/-- A block whose body has been visited is closed. -/
lemma Opened.close {target : Nat} {label : List ValType} {frame : ControlFrame}
    {t₂ t₃ : InstructionTranslator}
    (agrees : cx.Agrees Γ) (opened : t.Opened frame t₂)
    (typed : Γ.blockType frame.blockType = some ⟨ps, rs⟩)
    (tracks : Tracks cx Γ t₂ (⟨target, label, ts ++ scope.beneath⟩ :: scope :: scopes) ws)
    (h : t₂.visitEnd cx = .ok t₃) :
    Tracks cx Γ t₃ (scope :: scopes) (rs.reverse ++ ts) ∧ t₃.reachable = true ∧ t.SameFrames t₃ := by
  obtain ⟨frames, found, outside⟩ := opened.frames
  obtain ⟨tracks', live, frames', locals'⟩ := visitEnd_tracks agrees found typed tracks h
  exact ⟨tracks', live, frames'.trans outside, locals'.trans opened.locals⟩

/-- The second arm of an `if` leaves it open. -/
lemma Opened.between {endLabel elseLabel : Nat} {r : ReachableFrame} {t₂ t₃ : InstructionTranslator}
    (agrees : cx.Agrees Γ) (opened : t.Opened (.if endLabel elseLabel none r) t₂)
    (typed : Γ.blockType r.blockType = some ⟨ps, rs⟩) (inner : scopes ≠ [])
    (tracks : Tracks cx Γ t₂ (scope :: scopes) ws) (h : t₂.visitElse cx = .ok t₃) :
    Tracks cx Γ t₃ (scope :: scopes) ps.reverse ∧ t₃.reachable = true ∧
      ∃ r', r'.blockType = r.blockType ∧
        t.Opened (.if endLabel elseLabel (some t₂.reachable) r') t₃ := by
  obtain ⟨frames, found, outside⟩ := opened.frames
  obtain ⟨tracks', live, locals, r', eq, type⟩ := visitElse_tracks agrees found typed inner tracks h
  exact ⟨tracks', live, r', type, ⟨frames, eq, outside⟩, locals.trans opened.locals⟩

/-- Behind a block are its results. -/
lemma Opened.around {target : Nat} {label : List ValType} {frame : ControlFrame}
    {t₁ t₂ t₃ : InstructionTranslator} (agrees : cx.Agrees Γ) (opened : t.Opened frame t₁)
    (typed : Γ.blockType frame.blockType = some ⟨ps, rs⟩)
    (body : Ends cx Γ t₁ (⟨target, label, ts ++ scope.beneath⟩ :: scope :: scopes) us t₂)
    (h : t₂.visitEnd cx = .ok t₃) :
    Tracks cx Γ t₃ (scope :: scopes) (rs.reverse ++ ts) ∧ t₃.reachable = true ∧ t.SameFrames t₃ := by
  obtain ⟨ws, tracks, -⟩ := body.tracks
  obtain ⟨frame', opened', bare⟩ := opened.body body.same
  have same : frame'.blockType = frame.blockType := (ControlFrame.of_bare bare).2.2.1
  rw [← same] at typed
  exact opened'.close agrees typed tracks h

/-- In front of the second arm of an `if` are its parameters. -/
lemma Opened.arms {endLabel elseLabel : Nat} {r : ReachableFrame} {t₁ t₂ t₃ : InstructionTranslator}
    (agrees : cx.Agrees Γ) (opened : t.Opened (.if endLabel elseLabel none r) t₁)
    (typed : Γ.blockType r.blockType = some ⟨ps, rs⟩) (inner : scopes ≠ [])
    (body : Ends cx Γ t₁ (scope :: scopes) us t₂) (h : t₂.visitElse cx = .ok t₃) :
    Tracks cx Γ t₃ (scope :: scopes) ps.reverse ∧ t₃.reachable = true ∧
      ∃ frame, frame.blockType = r.blockType ∧ t.Opened frame t₃ := by
  obtain ⟨ws, tracks, -⟩ := body.tracks
  obtain ⟨frame, opened', bare⟩ := opened.body body.same
  obtain ⟨r', rfl, same, -, -⟩ := ControlFrame.if_of_bare bare
  rw [← same] at typed
  obtain ⟨tracks', live, r₃, same', opened₃⟩ := opened'.between agrees typed inner tracks h
  exact ⟨tracks', live, .if endLabel elseLabel (some t₂.reachable) r₃, same'.trans same, opened₃⟩

/-- On typed code the emulated stack has the types of the validation, wherever it is reachable. -/
theorem visitAll_ends {e : Expr} {labels : List (List ValType)} (agrees : cx.Agrees Γ)
    (typed : e.HasType Γ labels ts us) (labelled : scopes.map Scope.label = labels)
    (live : t.reachable = true) (tracks : Tracks cx Γ t scopes ts) (h : visitAll cx e.flatten t = .ok t') :
    Ends cx Γ t scopes us t' := by
  -- on the typing: every frame is reachable again behind its end, whatever its body ends with
  induction typed generalizing t t' scopes with
  | nil =>
    cases h
    exact ⟨.refl, _, tracks, fun _ => rfl⟩
  | plain op _ ih =>
    obtain ⟨t₁, visited, h⟩ := Compile.bind_ok.mp h
    obtain ⟨tracks₁, same⟩ := visitPlain_tracks agrees op live tracks visited
    have rest := ih labelled (visitPlain_frames live visited).2 tracks₁ h
    exact ⟨same.trans rest.same, rest.tracks⟩
  | unreachable =>
    obtain ⟨t₁, visited, h⟩ := Compile.bind_ok.mp h
    obtain ⟨tracks₁, same, left⟩ := visitLeave_tracks live tracks (.inl rfl) visited
    exact .of_left tracks₁ same left h
  | br =>
    obtain ⟨t₁, visited, h⟩ := Compile.bind_ok.mp h
    obtain ⟨tracks₁, same, left⟩ := visitLeave_tracks live tracks (.inr (.inl ⟨_, rfl⟩)) visited
    exact .of_left tracks₁ same left h
  | brTable =>
    obtain ⟨t₁, visited, h⟩ := Compile.bind_ok.mp h
    obtain ⟨tracks₁, same, left⟩ := visitBrTable_tracks live tracks visited
    exact .of_left tracks₁ same left h
  | ret =>
    obtain ⟨t₁, visited, h⟩ := Compile.bind_ok.mp h
    obtain ⟨tracks₁, same, left⟩ := visitLeave_tracks live tracks (.inr (.inr rfl)) visited
    exact .of_left tracks₁ same left h
  | returnCall =>
    obtain ⟨t₁, visited, h⟩ := Compile.bind_ok.mp h
    obtain ⟨tracks₁, same, left⟩ := visitReturnCall_tracks live tracks visited
    exact .of_left tracks₁ same left h
  | returnCallIndirect =>
    obtain ⟨t₁, visited, h⟩ := Compile.bind_ok.mp h
    obtain ⟨tracks₁, same, left⟩ := visitReturnCallIndirect_tracks live tracks visited
    exact .of_left tracks₁ same left h
  | brIf _ _ ih =>
    obtain ⟨t₁, visited, h⟩ := Compile.bind_ok.mp h
    obtain ⟨tracks₁, same, live₁⟩ := visitBrIf_tracks live tracks visited
    have rest := ih labelled live₁ tracks₁ h
    exact ⟨same.trans rest.same, rest.tracks⟩
  | block type _ _ ihb ihr =>
    obtain ⟨t₁, visited, h⟩ := Compile.bind_ok.mp h
    obtain ⟨t₂, inside, h⟩ := visitAll_append h
    obtain ⟨t₃, closed, after⟩ := Compile.bind_ok.mp h
    obtain ⟨scope, outer, rfl⟩ := tracks.cons
    obtain ⟨tracks₁, live₁, r, rfl, opened⟩ := visitBlock_tracks agrees live type tracks visited
    have body := ihb (congrArg _ labelled) live₁ tracks₁ inside
    obtain ⟨tracks₃, live₃, same⟩ := opened.around agrees type body closed
    have rest := ihr labelled live₃ tracks₃ after
    exact ⟨same.trans rest.same, rest.tracks⟩
  | loop type _ _ ihb ihr =>
    obtain ⟨t₁, visited, h⟩ := Compile.bind_ok.mp h
    obtain ⟨t₂, inside, h⟩ := visitAll_append h
    obtain ⟨t₃, closed, after⟩ := Compile.bind_ok.mp h
    obtain ⟨scope, outer, rfl⟩ := tracks.cons
    obtain ⟨tracks₁, live₁, r, rfl, opened⟩ := visitLoop_tracks agrees live type tracks visited
    have body := ihb (congrArg _ labelled) live₁ tracks₁ inside
    obtain ⟨tracks₃, live₃, same⟩ := opened.around agrees type body closed
    have rest := ihr labelled live₃ tracks₃ after
    exact ⟨same.trans rest.same, rest.tracks⟩
  | «if» type _ _ ihb ihr =>
    obtain ⟨t₁, visited, h⟩ := Compile.bind_ok.mp h
    obtain ⟨t₂, inside, h⟩ := visitAll_append h
    obtain ⟨t₃, closed, after⟩ := Compile.bind_ok.mp h
    obtain ⟨scope, outer, rfl⟩ := tracks.cons
    obtain ⟨tracks₁, live₁, r, rfl, opened⟩ := visitIf_tracks agrees live type tracks visited
    have body := ihb (congrArg _ labelled) live₁ tracks₁ inside
    obtain ⟨tracks₃, live₃, same⟩ := opened.around agrees type body closed
    have rest := ihr labelled live₃ tracks₃ after
    exact ⟨same.trans rest.same, rest.tracks⟩
  | ifElse type _ _ _ ihb iho ihr =>
    obtain ⟨t₁, visited, h⟩ := Compile.bind_ok.mp h
    obtain ⟨t₂, inside, h⟩ := visitAll_append h
    obtain ⟨t₃, between, h⟩ := Compile.bind_ok.mp h
    obtain ⟨t₄, inside', h⟩ := visitAll_append h
    obtain ⟨t₅, closed, after⟩ := Compile.bind_ok.mp h
    obtain ⟨scope, outer, rfl⟩ := tracks.cons
    obtain ⟨tracks₁, live₁, r, rfl, opened⟩ := visitIf_tracks agrees live type tracks visited
    have body := ihb (congrArg _ labelled) live₁ tracks₁ inside
    obtain ⟨tracks₃, live₃, frame, same₃, opened₃⟩ :=
      opened.arms agrees type (List.cons_ne_nil _ _) body between
    have body' := iho (congrArg _ labelled) live₃ tracks₃ inside'
    rw [← same₃] at type
    obtain ⟨tracks₅, live₅, same⟩ := opened₃.around agrees type body' closed
    have rest := ihr labelled live₅ tracks₅ after
    exact ⟨same.trans rest.same, rest.tracks⟩

/-! ## Branches -/

/-- A pair that is accepted is the pair that was given. -/
lemma dropKeep_new {drop keep : Nat} {dk : DropKeep} (h : DropKeep.new drop keep = .ok dk) :
    dk = ⟨drop, keep⟩ := by
  unfold DropKeep.new at h
  split at h
  · cases h
    rfl
  · cases h

/-- A branch keeps the types of its label, and drops what is between them and the block. -/
lemma computeDropKeep_ok {dk : DropKeep} (agrees : cx.Agrees Γ) (tracks : Tracks cx Γ t scopes ts)
    (found : scopes[depth]? = some scope) (h : t.computeDropKeep cx depth = .ok dk) :
    dk.keep = slotCount scope.label ∧
      (depth + 1 = scopes.length ∧ dk.drop + dk.keep = t.height ∧ scope.label = Γ.results ∨
        depth + 1 < scopes.length ∧
          dk.drop + dk.keep + slotCount scope.beneath = slotCount t.stackTypes) := by
  obtain ⟨frame, ps, rs, there, -, typed, label, height, hh, place⟩ := tracks.enclosed.frame found
  obtain ⟨params, results⟩ := agrees.blockLens typed
  obtain ⟨frame', there', h⟩ := Compile.bind_ok.mp h
  rw [Compile.unwrap_ok] at there'
  cases there.symm.trans there'
  obtain ⟨diff, hd, fits, eq⟩ : ∃ diff, t.heightDiff depth = .ok diff ∧ slotCount scope.label ≤ diff ∧
      dk = ⟨diff - slotCount scope.label, slotCount scope.label⟩ := by
    rw [label]
    -- a branch to a loop carries its parameters, and every other one the results
    cases kind : frame.kind
    all_goals
      rw [kind] at h
      simp only [Compile.bind_ok] at h
      obtain ⟨keep, hk, diff, hd, h⟩ := h
      first | cases results.symm.trans hk | cases params.symm.trans hk
      split at h
      · exact ⟨diff, hd, ‹_›, dropKeep_new h⟩
      · cases h
  subst eq
  simp only [heightDiff, Compile.bind_ok, Compile.unwrap_ok] at hd
  obtain ⟨_, there'', origin, ho, hd⟩ := hd
  cases there.symm.trans there''
  cases hh.symm.trans ho
  refine ⟨rfl, ?_⟩
  split at hd
  next le =>
    cases hd
    have all := tracks.height
    have eq : t.height = t.stackHeight.height := rfl
    rcases place with ⟨last, zero, result⟩ | ⟨inner, slots⟩
    · refine .inl ⟨last, ?_, result⟩
      dsimp only
      omega
    · refine .inr ⟨inner, ?_⟩
      dsimp only
      omega
  · cases hd

/-- The depth of the frames is that of the scopes. -/
lemma Tracks.length_eq (tracks : Tracks cx Γ t scopes ts) : t.maxDepth + 1 = scopes.length := by
  have length := tracks.enclosed.length_eq
  obtain ⟨scope, rest, rfl⟩ := tracks.cons
  rw [List.length_cons] at length ⊢
  unfold maxDepth
  omega

/-- A return keeps the results, and drops everything else. -/
lemma dropKeepReturn_ok {dk : DropKeep} (agrees : cx.Agrees Γ) (tracks : Tracks cx Γ t scopes ts)
    (h : t.dropKeepReturn cx = .ok dk) :
    dk.keep = slotCount Γ.results ∧ dk.drop + dk.keep = slotCount t.stackTypes := by
  obtain ⟨dk', hd, h⟩ := Compile.bind_ok.mp h
  obtain rfl := dropKeep_new h
  have length := tracks.length_eq
  obtain ⟨target, last⟩ := tracks.enclosed.last
  rw [List.getLast?_eq_getElem?, ← length, Nat.add_sub_cancel] at last
  obtain ⟨keep, outer | inner⟩ := computeDropKeep_ok agrees tracks last hd
  · -- the height is without the parameters, which a return drops as well
    obtain ⟨-, drop, -⟩ := outer
    have all := tracks.height
    refine ⟨keep, ?_⟩
    dsimp only
    omega
  · omega

/-- Where a branch goes. -/
lemma acquireTarget_ok {target : AcquiredTarget} (agrees : cx.Agrees Γ) (tracks : Tracks cx Γ t scopes ts)
    (found : scopes[depth]? = some scope) (h : t.acquireTarget cx depth = .ok target) :
    (depth + 1 = scopes.length ∧ scope.label = Γ.results ∧
        ∃ dk, target = .ret dk ∧ t.dropKeepReturn cx = .ok dk) ∨
      depth + 1 < scopes.length ∧ ∃ dk, target = .branch scope.target dk ∧
        dk.keep = slotCount scope.label ∧
        dk.drop + dk.keep + slotCount scope.beneath = slotCount t.stackTypes := by
  have length := tracks.length_eq
  unfold acquireTarget at h
  split at h
  next last =>
    obtain ⟨dk, hd, h⟩ := Compile.bind_ok.mp h
    cases h
    refine .inl ⟨by omega, ?_, dk, rfl, hd⟩
    obtain ⟨target, outermost⟩ := tracks.enclosed.last
    rw [List.getLast?_eq_getElem?, ← length, Nat.add_sub_cancel, ← last, found] at outermost
    cases outermost
    rfl
  next inner =>
    simp only [Compile.bind_ok, Compile.unwrap_ok] at h
    obtain ⟨frame, there, label, hl, dk, hd, h⟩ := h
    cases h
    have lt : depth < scopes.length := (List.getElem?_eq_some_iff.mp found).1
    obtain ⟨keep, ⟨outer, -⟩ | ⟨-, drop⟩⟩ := computeDropKeep_ok agrees tracks found hd
    · omega
    · obtain ⟨_, _, _, there', dest, -⟩ := tracks.enclosed.frame found
      cases there.symm.trans there'
      cases hl.symm.trans dest
      exact .inr ⟨by omega, dk, rfl, keep, drop⟩

end InstructionTranslator

end Rwasm
