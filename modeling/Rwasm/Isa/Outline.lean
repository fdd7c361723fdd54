import Rwasm.Library.Exploration
import Rwasm.Segments.Bulk

/-!
# Outlines of the value stack

How high the stack gets while a piece of code runs, for all operands at once. An outline is a place in
the code and the top of the stack, with the constants that are known there; the code is explored over
outlines, one stretch without branches after the other. A constant is kept until a jump is taken,
which is enough to rule out the branches that no operand takes.
-/

namespace Rwasm

/-- The top of a stack: how many slots there are, and what is known of their values. -/
abbrev Known := List (Option UntypedValue)

/-- A place in a piece of code, and the top of the stack there. -/
structure Outline where
  pc : Nat
  known : Known
  deriving DecidableEq

/-- What an instruction that falls through makes of the top of the stack. -/
def Opcode.outline (op : Opcode) (known : Known) : Option Known :=
  match op, known with
  | .localGet (n + 1), known => some (known[n]?.join :: known)
  | .localSet (n + 1), v :: known => some (known.set n v)
  | .localTee (n + 1), v :: known => some ((v :: known).set n v)
  | .i32Const v, known => some (some v :: known)
  | .drop, _ :: known => some known
  | .select, _ :: _ :: _ :: known => some (none :: known)
  | .unary op, v :: known => some (v.map op.eval :: known)
  | .binary op, rhs :: lhs :: known =>
    some ((lhs.bind fun lhs => rhs.map fun rhs => op.eval lhs rhs) :: known)
  | .fallible _, _ :: _ :: known => some (none :: known)
  | .i32Mul64, _ :: _ :: known => some (none :: none :: known)
  | .i32Add64, _ :: _ :: known => some (none :: none :: known)
  | .load _ _, _ :: known => some (none :: known)
  | .store _ _, _ :: _ :: known => some known
  | .stackCheck _, known => some known
  | _, _ => none

namespace Outline

/-- A jump within the code; the constants are forgotten. -/
def jump (pc : Nat) (offset : Int) (known : Known) : Option Outline :=
  if 0 ≤ (pc : Int) + offset then
    some ⟨((pc : Int) + offset).toNat, known.map fun _ => none⟩
  else
    none

/-- A branch on a condition that may be known. -/
def branch (pc : Nat) (offset : Int) (taken : Option Bool) (known : Known) :
    Option (List Outline) :=
  match taken with
  | some true => (jump pc offset known).map ([·])
  | some false => some [⟨pc + 1, known⟩]
  | none => (jump pc offset known).map fun o => [⟨pc + 1, known⟩, o]

/-- Goes through the code up to the next branch, with at most `limit` slots. -/
def stretch (limit : Nat) (pc : Nat) (code : List Opcode) (known : Known) : Option (List Outline) :=
  if limit < known.length then
    none
  else
    match code with
    | [] => some []
    | op :: code =>
      match op, known with
      | .trap _, _ => some []
      | .br offset, known => (jump pc offset known).map ([·])
      | .brIfEqz offset, c :: known => branch pc offset (c.map fun v => !v.toBool) known
      | .brIfNez offset, c :: known => branch pc offset (c.map fun v => v.toBool) known
      | op, known =>
        match op.outline known with
        | some known => stretch limit (pc + 1) code known
        | none => none

/-- Where the code goes from an outline at the next branch. -/
def next (code : List Opcode) (limit : Nat) (o : Outline) : Option (List Outline) :=
  stretch limit o.pc (code.drop o.pc) o.known

end Outline

/-- Code that begins on some operands never has more than `rise` slots above them. -/
def StaysBelow (code : List Opcode) (operands rise : Nat) : Prop :=
  (Exploration.explore (Outline.next code (operands + rise)) 1000 []
    [⟨0, List.replicate operands none⟩]).isSome

/-- Staying below a height is decided by exploring the outlines. -/
instance (code : List Opcode) (operands rise : Nat) : Decidable (StaysBelow code operands rise) :=
  inferInstanceAs (Decidable (_ = true))

/-- A stack whose top is described, over `base` further slots. -/
structure Known.Describes (known : Known) (base : Nat) (stack : List UntypedValue) : Prop where
  length_eq : stack.length = known.length + base
  agrees : ∀ (n : Nat) (x : UntypedValue), known[n]? = some (some x) → stack[n]? = some x

namespace Known.Describes

variable {known : Known} {base n : Nat} {stack : List UntypedValue} {c : Option UntypedValue}
  {v : UntypedValue}

/-- Nothing is known of the operands. -/
lemma replicate (len : stack.length = n + base) : Describes (List.replicate n none) base stack := by
  refine ⟨by rw [len, List.length_replicate], fun i x read => ?_⟩
  rw [List.getElem?_replicate] at read
  split at read <;> cases read

/-- A slot is pushed of which so much is known. -/
lemma cons (h : known.Describes base stack) (agrees : ∀ x, c = some x → v = x) :
    Describes (c :: known) base (v :: stack) := by
  refine ⟨?_, fun n x read => ?_⟩
  · rw [List.length_cons, List.length_cons, h.length_eq]
    omega
  · cases n with
    | zero =>
      rw [List.getElem?_cons_zero] at read ⊢
      exact congrArg some (agrees x (Option.some.inj read))
    | succ n => exact h.agrees n x read

/-- A slot of which nothing is known. -/
lemma push (h : known.Describes base stack) (v : UntypedValue) :
    Describes (none :: known) base (v :: stack) :=
  h.cons fun _ eq => nomatch eq

/-- The topmost slot. -/
lemma uncons (h : Describes (c :: known) base stack) :
    ∃ v rest, stack = v :: rest ∧ (∀ x, c = some x → v = x) ∧ known.Describes base rest := by
  have len := h.length_eq
  rw [List.length_cons] at len
  cases stack with
  | nil =>
    rw [List.length_nil] at len
    omega
  | cons v rest =>
    rw [List.length_cons] at len
    refine ⟨v, rest, rfl, fun x eq => ?_, by omega, fun n x read => h.agrees (n + 1) x read⟩
    have read := h.agrees 0 x (congrArg some eq)
    exact Option.some.inj read

/-- A slot is overwritten. -/
lemma set (h : known.Describes base stack) (agrees : ∀ x, c = some x → v = x) :
    Describes (known.set n c) base (stack.set n v) := by
  refine ⟨by rw [List.length_set, List.length_set, h.length_eq], fun i x read => ?_⟩
  rw [List.getElem?_set] at read ⊢
  split at read
  next same =>
    subst same
    split at read
    next inside =>
      have room : n < stack.length := by
        rw [h.length_eq]
        omega
      rw [if_pos rfl, if_pos room, agrees x (Option.some.inj read)]
    · cases read
  next other =>
    rw [if_neg other]
    exact h.agrees i x read

/-- What is known of the slot at an index. -/
lemma getElem? (h : known.Describes base stack) (read : stack[n]? = some v) :
    ∀ x, known[n]?.join = some x → v = x := by
  intro x eq
  have there := h.agrees n x (Option.join_eq_some_iff.mp eq)
  exact Option.some.inj (read.symm.trans there)

/-- Everything known is forgotten. -/
lemma forget (h : known.Describes base stack) : Describes (known.map fun _ => none) base stack := by
  refine ⟨by rw [List.length_map, h.length_eq], fun n x read => ?_⟩
  rw [List.getElem?_map] at read
  obtain ⟨_, -, eq⟩ := Option.map_eq_some_iff.mp read
  cases eq

end Known.Describes

section Soundness

variable {T : Type} {m : RwasmModule} {host : Host T} {e e' : Executor T} {op : Opcode}
  {known known' : Known} {base p lo hi limit : Nat} {code : List Opcode}

/-- An instruction that falls through does what its outline says. -/
lemma Opcode.outline_sound (h : op.outline known = some known')
    (here : known.Describes base e.valueStack) (run : e.step m host op = .next e') :
    e'.ip = e.ip + 1 ∧ known'.Describes base e'.valueStack := by
  cases op
  case localGet depth =>
    cases depth with
    | zero => cases h
    | succ n =>
      cases h
      simp only [Executor.step, Executor.visitLocalGet] at run
      split at run
      next read =>
        cases run
        exact ⟨rfl, here.cons (here.getElem? read)⟩
      · cases run
  case localSet depth =>
    rcases depth with _ | n <;> rcases known with _ | ⟨c, known⟩ <;> try cases h
    obtain ⟨v, rest, pushed, top, below⟩ := here.uncons
    simp only [Executor.step, Executor.visitLocalSet, pushed] at run
    split at run
    · cases run
      exact ⟨rfl, below.set top⟩
    · cases run
  case localTee depth =>
    rcases depth with _ | n <;> rcases known with _ | ⟨c, known⟩ <;> try cases h
    obtain ⟨v, rest, pushed, top, below⟩ := here.uncons
    simp only [Executor.step, Executor.visitLocalTee, pushed] at run
    split at run
    · cases run
      exact ⟨rfl, (below.cons top).set top⟩
    · cases run
  case i32Const v =>
    cases h
    cases run
    exact ⟨rfl, here.cons fun x eq => Option.some.inj eq⟩
  case drop =>
    rcases known with _ | ⟨c, known⟩ <;> cases h
    obtain ⟨v, rest, pushed, -, below⟩ := here.uncons
    simp only [Executor.step, Executor.visitBulkDrop, pushed] at run
    split at run
    · cases run
      exact ⟨rfl, below⟩
    · cases run
  case select =>
    rcases known with _ | ⟨c, _ | ⟨c2, _ | ⟨c1, known⟩⟩⟩ <;> cases h
    obtain ⟨v, rest, pushed, -, here⟩ := here.uncons
    obtain ⟨e2, rest, rfl, -, here⟩ := here.uncons
    obtain ⟨e1, rest, rfl, -, below⟩ := here.uncons
    simp only [Executor.step, Executor.visitSelect, pushed] at run
    cases run
    exact ⟨rfl, below.push _⟩
  case unary op =>
    rcases known with _ | ⟨c, known⟩ <;> cases h
    obtain ⟨v, rest, pushed, top, below⟩ := here.uncons
    simp only [Executor.step, Executor.visitUnary, pushed] at run
    cases run
    refine ⟨rfl, below.cons fun x eq => ?_⟩
    obtain ⟨y, is, rfl⟩ := Option.map_eq_some_iff.mp eq
    rw [top y is]
  case binary op =>
    rcases known with _ | ⟨c2, _ | ⟨c1, known⟩⟩ <;> cases h
    obtain ⟨rhs, rest, pushed, top, here⟩ := here.uncons
    obtain ⟨lhs, rest, rfl, second, below⟩ := here.uncons
    simp only [Executor.step, Executor.visitBinary, pushed] at run
    cases run
    refine ⟨rfl, below.cons fun x eq => ?_⟩
    obtain ⟨y, eq₁, eq⟩ := Option.bind_eq_some_iff.mp eq
    obtain ⟨z, eq₂, rfl⟩ := Option.map_eq_some_iff.mp eq
    rw [second y eq₁, top z eq₂]
  case fallible op =>
    rcases known with _ | ⟨c2, _ | ⟨c1, known⟩⟩ <;> cases h
    obtain ⟨rhs, rest, pushed, -, here⟩ := here.uncons
    obtain ⟨lhs, rest, rfl, -, below⟩ := here.uncons
    simp only [Executor.step, Executor.visitFallible, pushed] at run
    cases value : op.eval lhs rhs with rw [value] at run
    | ok v =>
      cases run
      exact ⟨rfl, below.push _⟩
    | error code => cases run
  case i32Mul64 | i32Add64 =>
    rcases known with _ | ⟨c2, _ | ⟨c1, known⟩⟩ <;> cases h
    obtain ⟨rhs, rest, pushed, -, here⟩ := here.uncons
    obtain ⟨lhs, rest, rfl, -, below⟩ := here.uncons
    simp only [Executor.step, Executor.visitWide, pushed] at run
    cases run
    exact ⟨rfl, (below.push _).push _⟩
  case load op offset =>
    rcases known with _ | ⟨c, known⟩ <;> cases h
    obtain ⟨address, rest, pushed, -, below⟩ := here.uncons
    simp only [Executor.step, Executor.visitLoad, pushed] at run
    cases value : op.eval e.data address offset with rw [value] at run
    | ok v =>
      cases run
      exact ⟨rfl, below.push _⟩
    | error code => cases run
  case store op offset =>
    rcases known with _ | ⟨c2, _ | ⟨c1, known⟩⟩ <;> cases h
    obtain ⟨value, rest, pushed, -, here⟩ := here.uncons
    obtain ⟨address, rest, rfl, -, below⟩ := here.uncons
    simp only [Executor.step, Executor.visitStore, pushed] at run
    split at run
    · cases run
      exact ⟨rfl, below⟩
    · cases run
  case stackCheck height =>
    cases h
    simp only [Executor.step, Executor.visitStackCheck] at run
    split at run
    next room =>
      cases run
      unfold Executor.reserve at room
      split at room
      · cases room
        exact ⟨rfl, here⟩
      · cases room
    · cases run
  all_goals cases h

namespace Outline

/-- Where an executor is, and what its stack looks like. -/
def Describes (p base : Nat) (o : Outline) (e : Executor T) : Prop :=
  e.ip = p + o.pc ∧ o.known.Describes base e.valueStack

variable {o : Outline} {succ : List Outline} {pc : Nat} {offset : Int} {taken : Option Bool}

/-- A jump of the executor is one of the outline. -/
lemma jump_sound (h : jump pc offset known = some o) (at' : e.ip = p + pc)
    (here : known.Describes base e.valueStack) (run : e.jump offset = .next e') :
    o.Describes p base e' := by
  unfold jump at h
  split at h
  next lands =>
    cases h
    unfold Executor.jump at run
    split at run
    · cases run
      refine ⟨?_, here.forget⟩
      dsimp only
      omega
    · cases run
  · cases h

/-- A branch of the executor is one of the outline, whatever is known of the condition. -/
lemma branch_sound {c : Bool} (h : branch pc offset taken known = some succ) (at' : e.ip = p + pc)
    (here : known.Describes base e.valueStack) (condition : ∀ b, taken = some b → c = b)
    (run : (if c then e.jump offset else .next (e.advance 1)) = .next e') :
    ∃ o ∈ succ, o.Describes p base e' := by
  have passes (no : c = false) : (⟨pc + 1, known⟩ : Outline).Describes p base e' := by
    rw [no] at run
    cases run
    exact ⟨show e.ip + 1 = _ by rw [at', Nat.add_assoc], here⟩
  cases taken with
  | none =>
    obtain ⟨o, jumped, rfl⟩ := Option.map_eq_some_iff.mp h
    cases c with
    | true => exact ⟨o, by simp, jump_sound jumped at' here run⟩
    | false => exact ⟨_, List.mem_cons_self, passes rfl⟩
  | some b =>
    obtain rfl := condition b rfl
    cases c with
    | true =>
      obtain ⟨o, jumped, rfl⟩ := Option.map_eq_some_iff.mp h
      exact ⟨o, List.mem_singleton_self o, jump_sound jumped at' here run⟩
    | false =>
      cases h
      exact ⟨_, List.mem_singleton_self _, passes rfl⟩

/-- The next instruction goes on within a stretch, or leads to one of its ends. -/
lemma stretch_sound (h : stretch limit pc (op :: code) known = some succ) (at' : e.ip = p + pc)
    (here : known.Describes base e.valueStack) (run : e.step m host op = .next e') :
    (∃ known', stretch limit (pc + 1) code known' = some succ ∧
        (⟨pc + 1, known'⟩ : Outline).Describes p base e') ∨
      ∃ o ∈ succ, o.Describes p base e' := by
  unfold stretch at h
  split at h
  · cases h
  dsimp only at h
  split at h
  · cases run
  next offset _ =>
    obtain ⟨o, jumped, rfl⟩ := Option.map_eq_some_iff.mp h
    exact .inr ⟨o, List.mem_singleton_self o, jump_sound jumped at' here run⟩
  next offset c known _ =>
    obtain ⟨v, rest, pushed, top, below⟩ := here.uncons
    simp only [Executor.step, Executor.visitBrIf, pushed] at run
    refine .inr (branch_sound (c := !v.toBool) (e := { e with valueStack := rest }) h at' below
      (fun b eq => ?_) ?_)
    · obtain ⟨x, is, rfl⟩ := Option.map_eq_some_iff.mp eq
      rw [top x is]
    · rw [← run]
      cases v.toBool <;> rfl
  next offset c known _ =>
    obtain ⟨v, rest, pushed, top, below⟩ := here.uncons
    simp only [Executor.step, Executor.visitBrIfNez, pushed] at run
    refine .inr (branch_sound (c := v.toBool) (e := { e with valueStack := rest }) h at' below
      (fun b eq => ?_) run)
    obtain ⟨x, is, rfl⟩ := Option.map_eq_some_iff.mp eq
    rw [top x is]
  · split at h
    next known' does =>
      obtain ⟨ip, there⟩ := Opcode.outline_sound does here run
      exact .inl ⟨known', h, by rw [ip, at', Nat.add_assoc], there⟩
    · cases h

/-- A stretch has no more slots than the limit. -/
lemma length_le (h : stretch limit pc code known = some succ) : known.length ≤ limit := by
  unfold stretch at h
  split at h
  · cases h
  next le => exact Nat.le_of_not_lt le

end Outline

/-- Code whose outlines stay below a height does, wherever it stands and whatever the operands are. -/
theorem StaysBelow.height_le {operands rise : Nat} (h : StaysBelow code operands rise)
    (placed : CodeAt m.codeSection p code) (end_eq : hi = p + code.length)
    (start : e.ip = p) (pushed : operands ≤ e.valueStack.length)
    (st : (vmWithin m host lo hi).Steps e e') :
    e'.valueStack.length ≤ e.valueStack.length + rise := by
  obtain ⟨found, explored⟩ := Option.isSome_iff_exists.mp h
  obtain ⟨first, closed⟩ := Exploration.closed_of_explore explored
  obtain ⟨base, len⟩ := Nat.exists_eq_add_of_le pushed
  have begun : (⟨0, List.replicate operands none⟩ : Outline).Describes p base e :=
    ⟨start, Known.Describes.replicate len⟩
  have tracked := closed.run (fun o succ e e' here next moved => ?_) (closed.tracked first begun) st
  · obtain ⟨o, succ, here, next, -⟩ := tracked
    have le := Outline.length_le next
    have len' := here.2.length_eq
    omega
  · obtain ⟨inside, stepped⟩ := Machine.within_step_iff.mp moved
    obtain ⟨at', describes⟩ := here
    have lt : o.pc < code.length := by omega
    have fetch := List.getElem?_eq_getElem lt
    have found := placed.getElem? fetch
    rw [← at'] at found
    rw [vm_step found] at stepped
    rw [Outline.next, List.drop_eq_getElem_cons lt] at next
    rcases Outline.stretch_sound next at' describes stepped with ⟨known', on, there⟩ | ends
    · exact .inl ⟨⟨o.pc + 1, known'⟩, there, on⟩
    · exact .inr ends

end Soundness

end Rwasm
