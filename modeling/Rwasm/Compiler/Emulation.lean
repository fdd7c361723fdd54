import Rwasm.Compiler.Extension
import Rwasm.Compiler.Scopes

/-!
# The emulated stack of a function

At every position of a typed function body that is not behind an operator which never goes on, in blocks of
any depth, the translator has the labels and the types of the validation. The depth of a local and what a
branch keeps and drops are read off these.
-/

namespace Rwasm

open Opcode

/-- A position in a typed expression: the operators in front of it, the labels around it, and the types on the
stack of the innermost block, topmost first. -/
inductive Expr.At (Γ : Typing) : List (List ValType) → Expr → List ValType → List Operator →
    List (List ValType) → List ValType → Prop
  | here {labels e ts} :
    At Γ labels e ts [] labels ts
  | plain {labels op rest ts us pre inner vs} :
    PlainOperator.HasType Γ op ts us →
    At Γ labels rest us pre inner vs →
    At Γ labels (.plain op rest) ts (.plain op :: pre) inner vs
  | brIf {labels depth label rest ts pre inner vs} :
    labels[depth]? = some label →
    At Γ labels rest (label.reverse ++ ts) pre inner vs →
    At Γ labels (.brIf depth rest) (.i32 :: (label.reverse ++ ts)) (.brIf depth :: pre) inner vs
  | block {labels type ps rs body rest ts pre inner vs} :
    Γ.blockType type = some ⟨ps, rs⟩ →
    At Γ (rs :: labels) body ps.reverse pre inner vs →
    At Γ labels (.block type body rest) (ps.reverse ++ ts) (.block type :: pre) inner vs
  | blockEnd {labels type ps rs body rest ts pre inner vs} :
    Γ.blockType type = some ⟨ps, rs⟩ →
    Expr.HasType Γ (rs :: labels) body ps.reverse rs.reverse →
    At Γ labels rest (rs.reverse ++ ts) pre inner vs →
    At Γ labels (.block type body rest) (ps.reverse ++ ts) (.block type :: (body.flatten ++ .end :: pre))
      inner vs
  | loop {labels type ps rs body rest ts pre inner vs} :
    Γ.blockType type = some ⟨ps, rs⟩ →
    At Γ (ps :: labels) body ps.reverse pre inner vs →
    At Γ labels (.loop type body rest) (ps.reverse ++ ts) (.loop type :: pre) inner vs
  | loopEnd {labels type ps rs body rest ts pre inner vs} :
    Γ.blockType type = some ⟨ps, rs⟩ →
    Expr.HasType Γ (ps :: labels) body ps.reverse rs.reverse →
    At Γ labels rest (rs.reverse ++ ts) pre inner vs →
    At Γ labels (.loop type body rest) (ps.reverse ++ ts) (.loop type :: (body.flatten ++ .end :: pre))
      inner vs
  | if {labels type ps body rest ts pre inner vs} :
    Γ.blockType type = some ⟨ps, ps⟩ →
    At Γ (ps :: labels) body ps.reverse pre inner vs →
    At Γ labels (.if type body rest) (.i32 :: (ps.reverse ++ ts)) (.if type :: pre) inner vs
  | ifEnd {labels type ps body rest ts pre inner vs} :
    Γ.blockType type = some ⟨ps, ps⟩ →
    Expr.HasType Γ (ps :: labels) body ps.reverse ps.reverse →
    At Γ labels rest (ps.reverse ++ ts) pre inner vs →
    At Γ labels (.if type body rest) (.i32 :: (ps.reverse ++ ts)) (.if type :: (body.flatten ++ .end :: pre))
      inner vs
  | then {labels type ps rs body orelse rest ts pre inner vs} :
    Γ.blockType type = some ⟨ps, rs⟩ →
    At Γ (rs :: labels) body ps.reverse pre inner vs →
    At Γ labels (.ifElse type body orelse rest) (.i32 :: (ps.reverse ++ ts)) (.if type :: pre) inner vs
  | else {labels type ps rs body orelse rest ts pre inner vs} :
    Γ.blockType type = some ⟨ps, rs⟩ →
    Expr.HasType Γ (rs :: labels) body ps.reverse rs.reverse →
    At Γ (rs :: labels) orelse ps.reverse pre inner vs →
    At Γ labels (.ifElse type body orelse rest) (.i32 :: (ps.reverse ++ ts))
      (.if type :: (body.flatten ++ .else :: pre)) inner vs
  | elseEnd {labels type ps rs body orelse rest ts pre inner vs} :
    Γ.blockType type = some ⟨ps, rs⟩ →
    Expr.HasType Γ (rs :: labels) body ps.reverse rs.reverse →
    Expr.HasType Γ (rs :: labels) orelse ps.reverse rs.reverse →
    At Γ labels rest (rs.reverse ++ ts) pre inner vs →
    At Γ labels (.ifElse type body orelse rest) (.i32 :: (ps.reverse ++ ts))
      (.if type :: (body.flatten ++ .else :: (orelse.flatten ++ .end :: pre))) inner vs

namespace InstructionTranslator

variable {cx : Context} {Γ : Typing} {t t' : InstructionTranslator} {scopes : List Scope}
  {labels inner : List (List ValType)} {ts us : List ValType} {pre : List Operator}

/-- At every position the translator has the labels and the types of the validation. -/
theorem tracks_of_at {e : Expr} (agrees : cx.Agrees Γ) (position : e.At Γ labels ts pre inner us)
    (labelled : scopes.map Scope.label = labels) (live : t.reachable = true)
    (tracks : Tracks cx Γ t scopes ts) (h : visitAll cx pre t = .ok t') :
    t'.reachable = true ∧ ∃ scopes', scopes'.map Scope.label = inner ∧ Tracks cx Γ t' scopes' us := by
  -- on the position: a block in front of it is closed, and one around it is still open
  induction position generalizing t scopes with
  | here =>
    cases h
    exact ⟨live, scopes, labelled, tracks⟩
  | plain op _ ih =>
    obtain ⟨t₁, visited, h⟩ := Compile.bind_ok.mp h
    obtain ⟨tracks₁, -⟩ := visitPlain_tracks agrees op live tracks visited
    exact ih labelled (visitPlain_frames live visited).2 tracks₁ h
  | brIf _ _ ih =>
    obtain ⟨t₁, visited, h⟩ := Compile.bind_ok.mp h
    obtain ⟨tracks₁, -, live₁⟩ := visitBrIf_tracks live tracks visited
    exact ih labelled live₁ tracks₁ h
  | block type _ ih =>
    obtain ⟨t₁, visited, h⟩ := Compile.bind_ok.mp h
    obtain ⟨scope, outer, rfl⟩ := tracks.cons
    obtain ⟨tracks₁, live₁, -⟩ := visitBlock_tracks agrees live type tracks visited
    exact ih (congrArg _ labelled) live₁ tracks₁ h
  | blockEnd type body _ ih =>
    obtain ⟨t₁, visited, h⟩ := Compile.bind_ok.mp h
    obtain ⟨t₂, inside, h⟩ := visitAll_append h
    obtain ⟨t₃, closed, after⟩ := Compile.bind_ok.mp h
    obtain ⟨scope, outer, rfl⟩ := tracks.cons
    obtain ⟨tracks₁, live₁, r, rfl, opened⟩ := visitBlock_tracks agrees live type tracks visited
    have ends := visitAll_ends agrees body (congrArg _ labelled) live₁ tracks₁ inside
    obtain ⟨tracks₃, live₃, -⟩ := opened.around agrees type ends closed
    exact ih labelled live₃ tracks₃ after
  | loop type _ ih =>
    obtain ⟨t₁, visited, h⟩ := Compile.bind_ok.mp h
    obtain ⟨scope, outer, rfl⟩ := tracks.cons
    obtain ⟨tracks₁, live₁, -⟩ := visitLoop_tracks agrees live type tracks visited
    exact ih (congrArg _ labelled) live₁ tracks₁ h
  | loopEnd type body _ ih =>
    obtain ⟨t₁, visited, h⟩ := Compile.bind_ok.mp h
    obtain ⟨t₂, inside, h⟩ := visitAll_append h
    obtain ⟨t₃, closed, after⟩ := Compile.bind_ok.mp h
    obtain ⟨scope, outer, rfl⟩ := tracks.cons
    obtain ⟨tracks₁, live₁, r, rfl, opened⟩ := visitLoop_tracks agrees live type tracks visited
    have ends := visitAll_ends agrees body (congrArg _ labelled) live₁ tracks₁ inside
    obtain ⟨tracks₃, live₃, -⟩ := opened.around agrees type ends closed
    exact ih labelled live₃ tracks₃ after
  | «if» type _ ih | «then» type _ ih =>
    obtain ⟨t₁, visited, h⟩ := Compile.bind_ok.mp h
    obtain ⟨scope, outer, rfl⟩ := tracks.cons
    obtain ⟨tracks₁, live₁, -⟩ := visitIf_tracks agrees live type tracks visited
    exact ih (congrArg _ labelled) live₁ tracks₁ h
  | ifEnd type body _ ih =>
    obtain ⟨t₁, visited, h⟩ := Compile.bind_ok.mp h
    obtain ⟨t₂, inside, h⟩ := visitAll_append h
    obtain ⟨t₃, closed, after⟩ := Compile.bind_ok.mp h
    obtain ⟨scope, outer, rfl⟩ := tracks.cons
    obtain ⟨tracks₁, live₁, r, rfl, opened⟩ := visitIf_tracks agrees live type tracks visited
    have ends := visitAll_ends agrees body (congrArg _ labelled) live₁ tracks₁ inside
    obtain ⟨tracks₃, live₃, -⟩ := opened.around agrees type ends closed
    exact ih labelled live₃ tracks₃ after
  | «else» type body _ ih =>
    obtain ⟨t₁, visited, h⟩ := Compile.bind_ok.mp h
    obtain ⟨t₂, inside, h⟩ := visitAll_append h
    obtain ⟨t₃, between, after⟩ := Compile.bind_ok.mp h
    obtain ⟨scope, outer, rfl⟩ := tracks.cons
    obtain ⟨tracks₁, live₁, r, rfl, opened⟩ := visitIf_tracks agrees live type tracks visited
    have ends := visitAll_ends agrees body (congrArg _ labelled) live₁ tracks₁ inside
    obtain ⟨tracks₃, live₃, -⟩ := opened.arms agrees type (List.cons_ne_nil _ _) ends between
    exact ih (congrArg _ labelled) live₃ tracks₃ after
  | elseEnd type body orelse _ ih =>
    obtain ⟨t₁, visited, h⟩ := Compile.bind_ok.mp h
    obtain ⟨t₂, inside, h⟩ := visitAll_append h
    obtain ⟨t₃, between, h⟩ := Compile.bind_ok.mp h
    obtain ⟨t₄, inside', h⟩ := visitAll_append h
    obtain ⟨t₅, closed, after⟩ := Compile.bind_ok.mp h
    obtain ⟨scope, outer, rfl⟩ := tracks.cons
    obtain ⟨tracks₁, live₁, r, rfl, opened⟩ := visitIf_tracks agrees live type tracks visited
    have ends := visitAll_ends agrees body (congrArg _ labelled) live₁ tracks₁ inside
    obtain ⟨tracks₃, live₃, frame, same₃, opened₃⟩ :=
      opened.arms agrees type (List.cons_ne_nil _ _) ends between
    have ends' := visitAll_ends agrees orelse (congrArg _ labelled) live₃ tracks₃ inside'
    rw [← same₃] at type
    obtain ⟨tracks₅, live₅, -⟩ := opened₃.around agrees type ends' closed
    exact ih labelled live₅ tracks₅ after

/-! ## The start of a function -/

/-- The slots of a number of values of one type. -/
lemma slotCount_replicate {n : Nat} {type : ValType} :
    slotCount (List.replicate n type) = n * type.slots := by
  rw [slotCount, List.map_replicate, List.sum_replicate, smul_eq_mul]

/-- The types of the locals that are declared in groups. -/
def localTypes (groups : List (Nat × ValType)) : List ValType :=
  groups.flatMap fun group => List.replicate group.1 group.2

/-- The locals are on the emulated stack, the last one on top. -/
lemma translateLocalGroups_retypes {groups : List (Nat × ValType)}
    (h : groups.foldlM translateLocalGroup t = .ok t') :
    t.Retypes t' [] (localTypes groups).reverse t.stackTypes ∧ t.SameFrames t' ∧
      t'.reachable = t.reachable := by
  induction groups generalizing t with
  | nil =>
    cases h
    exact ⟨⟨rfl, rfl⟩, .refl, rfl⟩
  | cons group groups ih =>
    rw [List.foldlM_cons, Compile.bind_ok] at h
    obtain ⟨t₁, h₁, h⟩ := h
    unfold translateLocalGroup at h₁
    split at h₁
    · cases h₁
    · cases h₁
      obtain ⟨⟨types, height⟩, same, live⟩ := ih h
      have all : localTypes (group :: groups) = List.replicate group.1 group.2 ++ localTypes groups :=
        List.flatMap_cons
      refine ⟨⟨?_, ?_⟩, ⟨same.frames, same.locals⟩, live⟩
      · rw [types, all, List.reverse_append, List.reverse_replicate, List.append_assoc]
        rfl
      · rw [height_pushN] at height
        rw [all, slotCount_reverse, slotCount_append, slotCount_replicate]
        rw [slotCount_reverse] at height
        simp only [slotCount_nil] at height ⊢
        show _ = t.height + _
        change _ = t.height + group.1 * group.2.slots + slotCount (localTypes groups) at height
        omega

end InstructionTranslator

open InstructionTranslator

namespace FuncBuilder

variable {cx : Context} {Γ : Typing} {func idx : Nat} {groups : List (Nat × ValType)} {code : List Opcode}
  {calls : List SnippetCall} {t t' : InstructionTranslator} {ps : List ValType}

/-- The frame of a function, around its parameters. -/
lemma prepare_encloses (agrees : cx.Agrees Γ) (compiled : cx.compiledFuncs[func]? = some idx)
    (typed : Γ.types[idx]? = some ⟨ps, Γ.results⟩) (first : t.controlFrames = [])
    (h : t.prepare cx func = .ok t') :
    t'.stackTypes = ps.reverse ∧ t'.height = t.height ∧ t'.lenRegistered = slotCount ps ∧
      t'.reachable = t.reachable ∧
      ∃ target, Encloses cx Γ (slotCount ps) t'.controlFrames [⟨target, Γ.results, Γ.locals.reverse⟩] := by
  simp only [prepare, Compile.bind_ok, pushConsumeFuel_eq] at h
  obtain ⟨type, ht, signature, -, original, ho, funcType, hf, h⟩ := h
  rw [Context.resolveFuncTypeIndex, Compile.unwrap_ok, compiled] at ht
  cases ht
  cases (agrees.resolveOriginal typed).symm.trans ho
  cases (agrees.resolveFuncType typed).symm.trans hf
  have enclosed : ∀ pc, Encloses cx Γ (slotCount ps)
      (.block t.labels.labels.length ⟨.funcType idx, 0, cx.fuelAt pc, 0⟩ :: t.controlFrames)
      [⟨t.labels.labels.length, Γ.results, Γ.locals.reverse⟩] := by
    intro pc
    -- its height is 0, whatever the parameters take
    rw [first]
    exact .func rfl rfl rfl rfl typed rfl fuelAt_isSome
  have registered : (expandTypes ps).length = slotCount ps := length_expandTypes ps
  split at h
  · obtain rfl := bumpFuelConsumption_ok h
    exact ⟨rfl, rfl, registered, rfl, _, enclosed _⟩
  · cases h
    exact ⟨rfl, rfl, registered, rfl, _, enclosed _⟩

/-- In front of the operators of a function there are its parameters and its locals. -/
lemma enter_tracks (agrees : cx.Agrees Γ) (compiled : cx.compiledFuncs[func]? = some idx)
    (typed : Γ.types[idx]? = some ⟨ps, Γ.results⟩) (locals : Γ.locals = ps ++ localTypes groups)
    (h : enter cx func groups code calls = .ok t) :
    t.reachable = true ∧ ∃ target, Tracks cx Γ t [⟨target, Γ.results, Γ.locals.reverse⟩] [] := by
  simp only [enter, Compile.bind_ok] at h
  obtain ⟨t₁, prepared, t₂, charged, located⟩ := h
  obtain ⟨types, height, registered, live, target, enclosed⟩ :=
    prepare_encloses agrees compiled typed rfl prepared
  obtain rfl := bumpFuelConsumption_ok charged
  obtain ⟨ops, h⟩ : ∃ ops, groups.foldlM translateLocalGroup { t₁ with instructionSet := ops } = .ok t := by
    unfold translateLocals at located
    dsimp only at located
    split at located
    · obtain ⟨t₃, paid, h⟩ := Compile.bind_ok.mp located
      obtain rfl := bumpFuelConsumption_ok paid
      exact ⟨_, h⟩
    · exact ⟨_, located⟩
  obtain ⟨⟨types', height'⟩, same, live'⟩ := translateLocalGroups_retypes h
  refine ⟨live'.trans live, target, ?_, ⟨_, rfl, ?_⟩, ?_⟩
  · rw [same.locals]
    change Encloses cx Γ t₁.lenRegistered _ _
    rw [registered]
    exact enclosed.of_bare same.frames
  · rw [types', locals, List.reverse_append]
    exact congrArg _ types
  · -- the locals count in the height, the parameters only in what is registered
    rw [types', same.locals, slotCount_append]
    change _ + t₁.lenRegistered = _ + slotCount t₁.stackTypes
    change _ = t₁.height + _ at height'
    rw [types, registered]
    rw [height] at height'
    change _ = 0 + _ at height'
    simp only [slotCount_nil, slotCount_reverse] at height' ⊢
    omega

/-- In front of the operators labels are used, and snippets called, in the code that is there. -/
lemma enter_inside (before : ∀ c ∈ calls, c.loc < code.length)
    (h : enter cx func groups code calls = .ok t) : t.skeleton.Inside := by
  obtain ⟨signature, t₀, extends', begins, users, called, -⟩ := enter_extends h
  refine extends'.inside ?_
  rintro i (⟨u, mem, -⟩ | ⟨c, mem, rfl⟩)
  · change u ∈ t₀.labels.users at mem
    rw [users] at mem
    cases mem
  · change c ∈ t₀.snippetCalls at mem
    rw [called] at mem
    change c.loc < t₀.instructionSet.length
    rw [begins, List.append_assoc, List.length_append]
    exact Nat.lt_add_right _ (before c mem)

/-- What a branch out of `depth` blocks is translated to where `slots` are on the stack: a branch keeps the
slots of the label and drops those above the block, a return keeps the results and drops everything else. -/
def Exits (Γ : Typing) (scopes : List Scope) (slots depth : Nat) (scope : Scope) (target : AcquiredTarget) :
    Prop :=
  (depth + 1 = scopes.length ∧ ∃ dk, target = .ret dk ∧ dk.keep = slotCount Γ.results ∧
      dk.drop + dk.keep = slots) ∨
    depth + 1 < scopes.length ∧ ∃ dk, target = .branch scope.target dk ∧ dk.keep = slotCount scope.label ∧
      dk.drop + dk.keep + slotCount scope.beneath = slots

/-- The target a branch acquires is where the scope at its depth exits. -/
lemma acquireTarget_exits {scopes : List Scope} {ts : List ValType} {depth : Nat} {scope : Scope}
    {target : AcquiredTarget} (agrees : cx.Agrees Γ) (tracks : Tracks cx Γ t scopes ts)
    (found : scopes[depth]? = some scope) (h : t.acquireTarget cx depth = .ok target) :
    Exits Γ scopes (slotCount t.stackTypes) depth scope target := by
  rcases acquireTarget_ok agrees tracks found h with ⟨last, -, dk, rfl, returned⟩ | inner
  · obtain ⟨keep, drop⟩ := dropKeepReturn_ok agrees tracks returned
    exact .inl ⟨last, dk, rfl, keep, drop⟩
  · exact .inr inner

/-! ## Code that is there already -/

/-- The translation of a function appends its code: what is there already is not charged, nor is any offset
filled in there, and the snippets that are recorded are called in what is added. -/
theorem translate_appends {operators : List Operator} {code' : List Opcode} {calls' : List SnippetCall}
    (before : ∀ c ∈ calls, c.loc < code.length)
    (h : translate cx func groups operators code calls = .ok (code', calls')) :
    ∃ added new, code' = code ++ added ∧ calls' = calls ++ new ∧
      ∀ c ∈ new, code.length ≤ c.loc ∧ c.loc < code'.length := by
  obtain ⟨added, appended⟩ := translate_prefix h
  rw [translate_eq] at h
  simp only [Compile.bind_ok] at h
  obtain ⟨t, entered, t', visited, final, finished, h⟩ := h
  cases h
  obtain ⟨-, -, new, recorded, after⟩ := visited_behind entered visited
  have inside : t'.skeleton.Inside := (visitAll_extends visited).inside (enter_inside before entered)
  have same : code'.length = t'.instructionSet.length := by
    have lengths := congrArg List.length (finish_stencil finished)
    rwa [List.length_map, List.length_map] at lengths
  refine ⟨added, new, appended, recorded, fun c mem => ⟨after c mem, ?_⟩⟩
  rw [same]
  refine inside c.loc (.inr ⟨c, ?_, rfl⟩)
  change c ∈ t'.snippetCalls
  rw [recorded]
  exact List.mem_append_right _ mem

/-- A function behind one that calls a snippet. -/
theorem translate_appends_wide : ∃ code' calls',
    translate (wideContext true) 0 []
        [.plain (.localGet 0), .plain (.localGet 0), .plain (.numeric .i64Add), .end]
        [callInternal (2 ^ 32 - 1)] [⟨0, .i64Add⟩] = .ok (code', calls') ∧
      ∃ added new, code' = [callInternal (2 ^ 32 - 1)] ++ added ∧ calls' = [⟨0, .i64Add⟩] ++ new ∧
        ∀ c ∈ new, 1 ≤ c.loc ∧ c.loc < code'.length := by
  obtain ⟨⟨code', calls'⟩, h⟩ := Compile.exists_of_isOk
    (show (translate (wideContext true) 0 []
      [.plain (.localGet 0), .plain (.localGet 0), .plain (.numeric .i64Add), .end]
      [callInternal (2 ^ 32 - 1)] [⟨0, .i64Add⟩]).isOk = true by decide +kernel)
  refine ⟨code', calls', h, translate_appends ?_ h⟩
  intro c mem
  cases List.mem_singleton.mp mem
  exact Nat.one_pos

section Positions

variable {body : Expr} {pre : List Operator} {labels : List (List ValType)} {ts : List ValType}

/-- At every position of a typed body the translator tracks the types. -/
lemma position_tracks (agrees : cx.Agrees Γ) (compiled : cx.compiledFuncs[func]? = some idx)
    (typed : Γ.types[idx]? = some ⟨ps, Γ.results⟩) (locals : Γ.locals = ps ++ localTypes groups)
    (position : body.At Γ [Γ.results] [] pre labels ts) (entered : enter cx func groups code calls = .ok t)
    (visited : visitAll cx pre t = .ok t') :
    t'.reachable = true ∧ ∃ scopes, scopes.map Scope.label = labels ∧ Tracks cx Γ t' scopes ts := by
  obtain ⟨live, label, tracks⟩ := enter_tracks agrees compiled typed locals entered
  exact tracks_of_at agrees position rfl live tracks visited

/-- What a function on numbers of 64 bits is validated with, with a local behind its parameter. -/
def wideTyping : Typing :=
  ⟨[⟨[.i64], [.i64]⟩], fun _ => none, [], [], [.i64, .i32], [.i64]⟩

/-- The example's context agrees with its typing. -/
lemma wide_agrees : (wideContext true).Agrees wideTyping where
  original := rfl
  slots := rfl
  callees _ _ found := by cases found
  globals := rfl
  tables := rfl
  snippets := rfl

/-- The body, up to the local in the block. -/
def wideBody : Expr :=
  .plain (.localGet 0) (.block (.type .i64) (.plain (.localGet 0) (.plain (.localGet 1) .nil)) .nil)

/-- The operators before the branch of the example. -/
def widePrefix : List Operator :=
  [.plain (.localGet 0), .block (.type .i64), .plain (.localGet 0), .plain (.localGet 1)]

/-- The types at that position. -/
lemma wide_position :
    wideBody.At wideTyping [[.i64]] [] widePrefix [[.i64], [.i64]] [.i32, .i64] :=
  .plain (.localGet rfl) (@Expr.At.block wideTyping [[.i64]] (.type .i64) [] [.i64] _ .nil [.i64] _ _ _ rfl
    (.plain (.localGet rfl) (.plain (.localGet rfl) .here)))

/-- The translator gets there and visits the branch. -/
lemma wide_visited : ∃ t t' t'', enter (wideContext true) 0 [(1, .i32)] [] [] = .ok t ∧
    visitAll (wideContext true) widePrefix t = .ok t' ∧
      t'.visitBrTable (wideContext true) [1] 0 = .ok t'' := by
  have compiles : (do
      let t ← enter (wideContext true) 0 [(1, .i32)] [] []
      let t ← visitAll (wideContext true) widePrefix t
      t.visitBrTable (wideContext true) [1] 0).isOk = true := by decide +kernel
  obtain ⟨t'', run⟩ := Compile.exists_of_isOk compiles
  simp only [Compile.bind_ok] at run
  obtain ⟨t, entered, t', visited, h⟩ := run
  exact ⟨t, t', t'', entered, visited, h⟩

/-- At every position of a typed function body the emulated stack is that of the validation, down to the
locals, and every branch from there drops down to the block it leaves. -/
theorem enter_emulates (agrees : cx.Agrees Γ) (compiled : cx.compiledFuncs[func]? = some idx)
    (typed : Γ.types[idx]? = some ⟨ps, Γ.results⟩) (locals : Γ.locals = ps ++ localTypes groups)
    (position : body.At Γ [Γ.results] [] pre labels ts) (entered : enter cx func groups code calls = .ok t)
    (visited : visitAll cx pre t = .ok t') :
    t'.reachable = true ∧ ∃ scopes, scopes.map Scope.label = labels ∧ Tracks cx Γ t' scopes ts ∧
      ∀ (depth : Nat) (scope : Scope) (target : AcquiredTarget), scopes[depth]? = some scope →
        t'.acquireTarget cx depth = .ok target →
        Exits Γ scopes (slotCount t'.stackTypes) depth scope target := by
  obtain ⟨live, scopes, labelled, tracks⟩ :=
    position_tracks agrees compiled typed locals position entered visited
  exact ⟨live, scopes, labelled, tracks, fun _ _ _ => acquireTarget_exits agrees tracks⟩

/-- In the block there is one value above another that is beneath the block. -/
theorem enter_emulates_wide : ∃ t t',
    enter (wideContext true) 0 [(1, .i32)] [] [] = .ok t ∧ visitAll (wideContext true) widePrefix t = .ok t' ∧
      t'.reachable = true ∧ ∃ scopes, scopes.map Scope.label = [[.i64], [.i64]] ∧
        Tracks (wideContext true) wideTyping t' scopes [.i32, .i64] := by
  obtain ⟨t, t', -, entered, visited, -⟩ := wide_visited
  obtain ⟨live, scopes, labelled, tracks, -⟩ :=
    enter_emulates wide_agrees rfl rfl rfl wide_position entered visited
  exact ⟨t, t', entered, visited, live, scopes, labelled, tracks⟩

/-- Each entry of a branch table leads out of the blocks of its target, in one branch or over a trampoline
that drops slots. -/
theorem brTable_exits {targets : List Nat} {default : Nat} {t'' : InstructionTranslator}
    (agrees : cx.Agrees Γ) (compiled : cx.compiledFuncs[func]? = some idx)
    (typed : Γ.types[idx]? = some ⟨ps, Γ.results⟩) (locals : Γ.locals = ps ++ localTypes groups)
    (before : ∀ c ∈ calls, c.loc < code.length)
    (position : body.At Γ [Γ.results] [] pre labels (.i32 :: ts))
    (entered : enter cx func groups code calls = .ok t) (visited : visitAll cx pre t = .ok t')
    (h : t'.visitBrTable cx targets default = .ok t'') :
    ∃ scopes, scopes.map Scope.label = labels ∧ Tracks cx Γ t' scopes (.i32 :: ts) ∧
      ∃ table : BrTableCode,
      t''.instructionSet = cx.charged cx.costs.base t'.fuelInstr t'.instructionSet ++
        brTable (targets.length + 1) :: (table.branches ++ table.trampolines) ∧
      table.branches.length = 2 * (targets.length + 1) ∧
      ∀ (i depth : Nat), (targets ++ [default])[i]? = some depth →
        ∃ scope target, scopes[depth]? = some scope ∧
          Exits Γ scopes (slotCount t'.stackTypes - 1) depth scope target ∧
          table.Encoded t'.currentPc (2 * (targets.length + 1)) t''.labels i target := by
  obtain ⟨live, scopes, labelled, tracks⟩ :=
    position_tracks agrees compiled typed locals position entered visited
  have inside : t'.skeleton.Inside := (visitAll_extends visited).inside (enter_inside before entered)
  obtain ⟨some, -, -, table, t₁, tabled, length, entries, rfl⟩ := visitBrTable_ok live h
  -- the targets are looked up when the index has been popped
  have tracks' : Tracks cx Γ t'.conditioned scopes ts := tracks.conditioned some
  have slots : slotCount t'.conditioned.stackTypes = slotCount t'.stackTypes - 1 := by
    obtain ⟨scope, rest, rfl⟩ := tracks.cons
    show slotCount t'.stackTypes.tail = _
    rw [tracks.stackTypes, List.cons_append, List.tail_cons, slotCount_cons, slots_i32,
      Nat.add_sub_cancel_left]
  refine ⟨scopes, labelled, tracks, table, ?_, length, ?_⟩
  · show t₁.instructionSet ++ _ = _
    rw [tabled.instructionSet]
    rfl
  intro i depth there
  obtain ⟨open', target, acquired, encoded⟩ := entries i depth there
  obtain ⟨frame, found, -⟩ := Option.map_eq_some_iff.mp open'
  have lt : depth < scopes.length := by
    rw [← tracks.enclosed.length_eq]
    exact (List.getElem?_eq_some_iff.mp found).1
  refine ⟨scopes[depth], target, List.getElem?_eq_getElem lt, ?_, encoded inside⟩
  rw [← slots]
  exact acquireTarget_exits agrees tracks' (List.getElem?_eq_getElem lt) acquired

/-- The first entry leaves the block, over a trampoline, and the second one leaves the function. -/
theorem brTable_exits_wide : ∃ t t' t'',
    enter (wideContext true) 0 [(1, .i32)] [] [] = .ok t ∧ visitAll (wideContext true) widePrefix t = .ok t' ∧
      t'.visitBrTable (wideContext true) [1] 0 = .ok t'' ∧
      ∃ scopes, scopes.map Scope.label = [[.i64], [.i64]] ∧
        Tracks (wideContext true) wideTyping t' scopes [.i32, .i64] ∧
        ∃ table : BrTableCode, table.branches.length = 4 ∧ ∀ (i depth : Nat), [1, 0][i]? = some depth →
          ∃ scope target, scopes[depth]? = some scope ∧
            Exits wideTyping scopes (slotCount t'.stackTypes - 1) depth scope target ∧
            table.Encoded t'.currentPc 4 t''.labels i target := by
  obtain ⟨t, t', t'', entered, visited, h⟩ := wide_visited
  obtain ⟨scopes, labelled, tracks, table, -, length, entries⟩ :=
    brTable_exits wide_agrees rfl rfl rfl (List.forall_mem_nil _) wide_position entered visited h
  exact ⟨t, t', t'', entered, visited, h, scopes, labelled, tracks, table, length, entries⟩

end Positions

end FuncBuilder

end Rwasm
