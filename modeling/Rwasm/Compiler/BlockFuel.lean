import Rwasm.Compiler.Grow
import Rwasm.Compiler.Parser
import Rwasm.Compiler.Skeleton
import Rwasm.Vm.Bounds

/-!
# The charge in front of a syscall

What a trampoline charges for a call to the host (`compiler/block_fuel.rs`). The policy names a
parameter by a depth on the stack, and a price for the words of that length. The emitted code computes
the price in 32 bits; the machine that reads the numbers as they are meant charges
`SyscallFuelParams.charge`. The code takes slots of its own above the arguments, which the stack check in
front of it does not ask for.
-/

namespace Rwasm

open InstructionSet

/-- The words that hold a number of bytes. -/
def fuelWords (x : Nat) : Nat := (x + 31) / 32

namespace SyscallFuelParams

/-- What the policy charges for a length, in units of fuel. -/
def charge (params : SyscallFuelParams) (x : Nat) : Nat :=
  match params with
  | .none => 0
  | .const base => base
  | .linearFuel _ wordCost baseFuel => baseFuel + wordCost * fuelWords x
  | .quadraticFuel _ wordCost divisor fuelDenomRate =>
    (wordCost * fuelWords x + fuelWords x * fuelWords x / divisor) * fuelDenomRate

/-- The depth of the slot the charge is computed from. -/
def depth : SyscallFuelParams → Option Nat
  | .none | .const _ => Option.none
  | .linearFuel paramIndex _ _ => some paramIndex
  | .quadraticFuel localDepth _ _ _ => some localDepth

/-- The greatest length that is charged for. -/
def maxX (policy : FuelPolicy) : SyscallFuelParams → UntypedValue
  | .quadraticFuel .. => policy.maxQuadraticX
  | _ => policy.maxLinearX

/-- The slots above the arguments that the code takes for the price. -/
def priceSlots : SyscallFuelParams → Nat
  | .quadraticFuel .. => 4
  | _ => 2

/-- The slots above the arguments that the code takes for a length. The price of one that is not charged
for is not computed. -/
def slots (policy : FuelPolicy) (params : SyscallFuelParams) (x : Nat) : Nat :=
  if (params.maxX policy).toNat < x then 2 else params.priceSlots

/-- The check in front of the price takes two of them. -/
lemma two_le_priceSlots (params : SyscallFuelParams) : 2 ≤ params.priceSlots := by
  cases params
  case quadraticFuel => exact Nat.le_of_ble_eq_true rfl
  all_goals exact Nat.le_refl 2

/-- The fields are 32-bit numbers, and the divisor is not zero. -/
def Admitted : SyscallFuelParams → Prop
  | .none | .const _ => True
  | .linearFuel _ wordCost baseFuel => wordCost < 2 ^ 32 ∧ baseFuel < 2 ^ 32
  | .quadraticFuel _ wordCost divisor fuelDenomRate =>
    wordCost < 2 ^ 32 ∧ (0 < divisor ∧ divisor < 2 ^ 32) ∧ fuelDenomRate < 2 ^ 32

end SyscallFuelParams

/-- The greatest lengths are those the tests of the source stay just above of: 128 MiB, and 1.25 MiB. -/
structure FuelPolicy.Tested (policy : FuelPolicy) : Prop where
  linear : policy.maxLinearX = 134217728
  quadratic : policy.maxQuadraticX = 1310720

variable {T : Type} {m : RwasmModule} {host : Host T} {lo hi p d : Nat} {cap : Nat} {calls : List Nat}
  {store store' : Store T} {x y z : UntypedValue} {stack below : List UntypedValue}

/-- A copy of the slot at a depth. -/
lemma localGet_step (slot : stack[d]? = some y) :
    (⟨stack, cap, calls, p, store⟩ : Executor T).step m host (.localGet (d + 1)) =
      .next ⟨y :: stack, cap, calls, p + 1, store⟩ := by
  simp only [Executor.step, Executor.visitLocalGet, slot]
  rfl

/-- A copy of a slot and a number above it take two slots. -/
lemma copy_cramped {c : UntypedValue} (copy : m.codeSection[p]? = some (.localGet (d + 1)))
    (number : m.codeSection[p + 1]? = some (.i32Const c)) (hlo : lo ≤ p) (hhi : p + 2 ≤ hi)
    (slot : stack[d]? = some y) (cramped : cap < stack.length + 2) :
    (boundedWithin m host lo hi).Halts ⟨stack, cap, calls, p, store⟩ (.halt .undefined) := by
  by_cases first : stack.length + 1 ≤ cap
  · have copied : (boundedWithin m host lo hi).Steps ⟨stack, cap, calls, p, store⟩
        ⟨y :: stack, cap, calls, p + 1, store⟩ :=
      boundedWithin_next (by simp; omega) copy (localGet_step slot) first .refl
    refine copied.halts (boundedWithin_cramped (by simp; omega) number rfl ?_)
    simp [Executor.InBounds, Executor.advance]
    omega
  · exact boundedWithin_cramped (by simp; omega) copy (localGet_step slot) first

/-- The code that turns a length into words. -/
def opFuelWords (depth : Nat) : List Opcode :=
  [.localGet depth, .i32Const 31, .i32Add, .i32Const 32, .i32DivU]

/-- The run of the code that counts the words of a length, which leaves their number on top. -/
lemma fuelWords_run (placed : CodeAt m.codeSection p (opFuelWords (d + 1))) (hlo : lo ≤ p)
    (hhi : p + 5 ≤ hi) (slot : stack[d]? = some y) (room : stack.length + 2 ≤ cap) :
    (boundedWithin m host lo hi).Steps ⟨stack, cap, calls, p, store⟩
      ⟨(y + 31).udiv 32 :: stack, cap, calls, p + 5, store⟩ := by
  simp only [opFuelWords, CodeAt.cons_iff, Nat.add_assoc, Nat.reduceAdd] at placed
  obtain ⟨h0, h1, h2, h3, h4, -⟩ := placed
  have one : stack.length + 1 ≤ cap := by omega
  refine boundedWithin_next (by simp; omega) h0 (localGet_step slot) one ?_
  refine boundedWithin_next (by simp; omega) h1 rfl room ?_
  refine boundedWithin_next (by simp [Executor.advance]; omega) h2 rfl one ?_
  refine boundedWithin_next (by simp [Executor.advance]; omega) h3 rfl room ?_
  exact boundedWithin_next (by simp [Executor.advance]; omega) h4 rfl one .refl

/-- Without two slots for it, the code does not come to an end. -/
lemma fuelWords_cramped (placed : CodeAt m.codeSection p (opFuelWords (d + 1))) (hlo : lo ≤ p)
    (hhi : p + 5 ≤ hi) (slot : stack[d]? = some y) (cramped : cap < stack.length + 2) :
    (boundedWithin m host lo hi).Halts ⟨stack, cap, calls, p, store⟩ (.halt .undefined) :=
  copy_cramped placed.1 placed.2.1 hlo (by omega) slot cramped

/-- The check in front of a charge. -/
def opFuelGuard (depth : Nat) (most : UntypedValue) : List Opcode :=
  [.localGet depth, .i32Const most, .i32GtU, .brIfEqz 2, .trap .integerOverflow]

section Guard

variable {most : UntypedValue}

/-- The run of the guard up to its branch: the length is compared with the most that is priced. -/
lemma fuelGuard_compared (placed : CodeAt m.codeSection p (opFuelGuard (d + 1) most)) (hlo : lo ≤ p)
    (hhi : p + 5 ≤ hi) (slot : stack[d]? = some y) (room : stack.length + 2 ≤ cap) :
    (boundedWithin m host lo hi).Steps ⟨stack, cap, calls, p, store⟩
      ⟨UntypedValue.ofBool (most.ult y) :: stack, cap, calls, p + 3, store⟩ := by
  simp only [opFuelGuard, CodeAt.cons_iff, Nat.add_assoc, Nat.reduceAdd] at placed
  obtain ⟨h0, h1, h2, -⟩ := placed
  have one : stack.length + 1 ≤ cap := by omega
  refine boundedWithin_next (by simp; omega) h0 (localGet_step slot) one ?_
  refine boundedWithin_next (by simp; omega) h1 rfl room ?_
  exact boundedWithin_next (by simp [Executor.advance]; omega) h2 rfl one .refl

/-- A length that is charged for passes the check. -/
lemma fuelGuard_pass (placed : CodeAt m.codeSection p (opFuelGuard (d + 1) most)) (hlo : lo ≤ p)
    (hhi : p + 5 ≤ hi) (slot : stack[d]? = some y) (room : stack.length + 2 ≤ cap)
    (le : y.toNat ≤ most.toNat) :
    (boundedWithin m host lo hi).Steps ⟨stack, cap, calls, p, store⟩
      ⟨stack, cap, calls, p + 5, store⟩ := by
  have compared : (boundedWithin m host lo hi).Steps ⟨stack, cap, calls, p, store⟩ _ :=
    fuelGuard_compared placed hlo hhi slot room
  have found : m.codeSection[p + 3]? = some (.brIfEqz 2) := placed.getElem? rfl
  have fits : stack.length ≤ cap := by omega
  rw [show most.ult y = false from decide_eq_false (Nat.not_lt.mpr le)] at compared
  exact compared.trans (boundedWithin_next (by simp; omega) found (Executor.jump_forward 2) fits .refl)

/-- A greater one does not. -/
lemma fuelGuard_trap (placed : CodeAt m.codeSection p (opFuelGuard (d + 1) most)) (hlo : lo ≤ p)
    (hhi : p + 5 ≤ hi) (slot : stack[d]? = some y) (room : stack.length + 2 ≤ cap)
    (gt : most.toNat < y.toNat) :
    ∃ e', (boundedWithin m host lo hi).Halts ⟨stack, cap, calls, p, store⟩
      (.halt (.trapped .integerOverflow e')) := by
  have compared : (boundedWithin m host lo hi).Steps ⟨stack, cap, calls, p, store⟩ _ :=
    fuelGuard_compared placed hlo hhi slot room
  have found : m.codeSection[p + 3]? = some (.brIfEqz 2) := placed.getElem? rfl
  have trap : m.codeSection[p + 4]? = some (.trap .integerOverflow) := placed.getElem? rfl
  have fits : stack.length ≤ cap := by omega
  rw [show most.ult y = true from decide_eq_true gt] at compared
  have passed : (boundedWithin m host lo hi).Steps
      ⟨UntypedValue.ofBool true :: stack, cap, calls, p + 3, store⟩ ⟨stack, cap, calls, p + 4, store⟩ :=
    boundedWithin_next (by simp; omega) found rfl fits .refl
  exact ⟨_, (compared.trans passed).halts (boundedWithin_halt (by simp; omega) trap rfl fits)⟩

end Guard

/-! ## The price -/

/-- The price as the emitted code computes it. -/
def SyscallFuelParams.price (params : SyscallFuelParams) (y : UntypedValue) : UntypedValue :=
  let words := (y + 31).udiv 32
  match params with
  | .none | .const _ => 0
  | .linearFuel _ wordCost baseFuel =>
    words * BitVec.ofNat 32 wordCost + BitVec.ofNat 32 baseFuel
  | .quadraticFuel _ wordCost divisor fuelDenomRate =>
    (words * BitVec.ofNat 32 wordCost + (words * words).udiv (BitVec.ofNat 32 divisor)) *
      BitVec.ofNat 32 fuelDenomRate

/-- The number of words, computed in 32 bits. -/
lemma toNat_words {y : UntypedValue} (le : y.toNat ≤ 134217728) :
    ((y + 31).udiv 32).toNat = fuelWords y.toNat := by
  have thirtyOne : (31 : UntypedValue).toNat = 31 := rfl
  have thirtyTwo : (32 : UntypedValue).toNat = 32 := rfl
  rw [BitVec.udiv_eq, BitVec.toNat_udiv, BitVec.toNat_add, thirtyOne, thirtyTwo, fuelWords]
  omega

/-- The emitted price is the charge, but for what does not fit into 32 bits. -/
lemma toNat_price {policy : FuelPolicy} (tested : policy.Tested) {params : SyscallFuelParams}
    (selects : params.depth = some d) (admitted : params.Admitted)
    (le : y.toNat ≤ (params.maxX policy).toNat) :
    (params.price y).toNat = params.charge y.toNat % 2 ^ 32 := by
  cases params with
  | none => cases selects
  | const base => cases selects
  | linearFuel depth wordCost baseFuel =>
    have most : y.toNat ≤ 134217728 := by
      rw [show SyscallFuelParams.maxX policy (.linearFuel depth wordCost baseFuel) = policy.maxLinearX
        from rfl, tested.linear] at le
      exact le
    simp only [SyscallFuelParams.price, SyscallFuelParams.charge, BitVec.toNat_add,
      BitVec.toNat_mul, BitVec.toNat_ofNat, toNat_words most]
    rw [Nat.mul_mod_mod, Nat.mod_add_mod, Nat.add_mod_mod, Nat.add_comm, Nat.mul_comm]
  | quadraticFuel depth wordCost divisor rate =>
    obtain ⟨-, ⟨-, small⟩, -⟩ := admitted
    have most : y.toNat ≤ 1310720 := by
      rw [SyscallFuelParams.maxX, tested.quadratic] at le
      exact le
    have words : fuelWords y.toNat ≤ 40960 := by
      unfold fuelWords
      omega
    -- The square of the words still fits.
    have square : fuelWords y.toNat * fuelWords y.toNat < 2 ^ 32 :=
      Nat.lt_of_le_of_lt (Nat.mul_le_mul words words) (by omega)
    have computed := toNat_words (y := y) (by omega)
    unfold SyscallFuelParams.price SyscallFuelParams.charge
    dsimp only
    generalize (y + 31).udiv 32 = words at computed ⊢
    simp only [BitVec.toNat_add, BitVec.toNat_mul, BitVec.toNat_ofNat, BitVec.udiv_eq,
      BitVec.toNat_udiv, computed]
    rw [Nat.mod_eq_of_lt square, Nat.mod_eq_of_lt small, Nat.mul_mod_mod, Nat.mul_mod_mod,
      Nat.mod_add_mod, Nat.mod_mul_mod, Nat.mul_comm (fuelWords y.toNat) wordCost]

/-- The code that computes the price. -/
def opFuelPrice : SyscallFuelParams → List Opcode
  | .none | .const _ => []
  | .linearFuel paramIndex wordCost baseFuel =>
    opFuelWords paramIndex ++ [.i32Const (BitVec.ofNat 32 wordCost), .i32Mul] ++
      (if baseFuel ≠ 0 then [.i32Const (BitVec.ofNat 32 baseFuel), .i32Add] else [])
  | .quadraticFuel localDepth wordCost divisor fuelDenomRate =>
    opFuelWords localDepth ++ [.i32Const (BitVec.ofNat 32 wordCost), .i32Mul] ++
      opFuelWords (localDepth + 1) ++ opFuelWords (localDepth + 2) ++
      [.i32Mul, .i32Const (BitVec.ofNat 32 divisor), .i32DivU, .i32Add,
        .i32Const (BitVec.ofNat 32 fuelDenomRate), .i32Mul]

/-- The code for a syscall that charges by a parameter, as its guard, its price and the charge. -/
lemma compileBlockParams_eq {policy : FuelPolicy} {params : SyscallFuelParams}
    (selects : params.depth = some d) :
    compileBlockParams policy params =
      opFuelGuard d (params.maxX policy) ++ opFuelPrice params ++ [.consumeFuelStack] := by
  cases params with
  | none => cases selects
  | const base => cases selects
  | linearFuel depth wordCost baseFuel =>
    cases selects
    simp only [compileBlockParams, opFuelGuard, opFuelPrice, opFuelWords, SyscallFuelParams.maxX,
      List.cons_append, List.nil_append]
  | quadraticFuel depth wordCost divisor rate =>
    cases selects
    rfl

/-- The words times the price of one. -/
lemma wordCost_run {cost : UntypedValue}
    (placed : CodeAt m.codeSection p (opFuelWords (d + 1) ++ [.i32Const cost, .i32Mul]))
    (hlo : lo ≤ p) (hhi : p + 7 ≤ hi) (slot : stack[d]? = some y) (room : stack.length + 2 ≤ cap) :
    (boundedWithin m host lo hi).Steps ⟨stack, cap, calls, p, store⟩
      ⟨(y + 31).udiv 32 * cost :: stack, cap, calls, p + 7, store⟩ := by
  obtain ⟨words, h0, h1, -⟩ := CodeAt.append_iff.mp placed
  have one : stack.length + 1 ≤ cap := by omega
  refine (fuelWords_run words hlo (by omega) slot room).trans ?_
  refine boundedWithin_next (by simp; omega) h0 rfl room ?_
  exact boundedWithin_next (by simp [Executor.advance]; omega) h1 rfl one .refl

/-- The price of a linear policy. -/
lemma linearPrice_run {wordCost baseFuel : Nat}
    (placed : CodeAt m.codeSection p (opFuelPrice (.linearFuel (d + 1) wordCost baseFuel)))
    (hlo : lo ≤ p) (hhi : p + (opFuelPrice (.linearFuel (d + 1) wordCost baseFuel)).length ≤ hi)
    (slot : stack[d]? = some y) (room : stack.length + 2 ≤ cap) :
    (boundedWithin m host lo hi).Steps ⟨stack, cap, calls, p, store⟩
      ⟨SyscallFuelParams.price (.linearFuel (d + 1) wordCost baseFuel) y :: stack, cap, calls,
        p + (opFuelPrice (.linearFuel (d + 1) wordCost baseFuel)).length, store⟩ := by
  rw [opFuelPrice, CodeAt.append_iff] at placed
  obtain ⟨cost, base⟩ := placed
  have seven : (opFuelWords (d + 1) ++
    [Opcode.i32Const (BitVec.ofNat 32 wordCost), Opcode.i32Mul]).length = 7 := rfl
  rw [opFuelPrice, List.length_append, seven] at hhi ⊢
  rw [seven] at base
  have priced : (boundedWithin m host lo hi).Steps ⟨stack, cap, calls, p, store⟩
      ⟨(y + 31).udiv 32 * BitVec.ofNat 32 wordCost :: stack, cap, calls, p + 7, store⟩ :=
    wordCost_run cost hlo (by omega) slot (by omega)
  refine priced.trans ?_
  unfold SyscallFuelParams.price
  dsimp only
  by_cases zero : baseFuel = 0
  · -- nothing is emitted for a base of zero, and a sum with it is the same
    have same : (y + 31).udiv 32 * BitVec.ofNat 32 wordCost + BitVec.ofNat 32 0 =
        (y + 31).udiv 32 * BitVec.ofNat 32 wordCost := BitVec.add_zero _
    rw [zero, same]
    exact .refl
  · rw [if_pos zero] at base hhi ⊢
    obtain ⟨h0, h1, -⟩ := base
    simp only [List.length_cons, List.length_nil] at hhi ⊢
    have one : stack.length + 1 ≤ cap := by omega
    refine boundedWithin_next (by simp; omega) h0 rfl room ?_
    exact boundedWithin_next (by simp [Executor.advance]; omega) h1 rfl one .refl

section Quadratic

variable {wordCost divisor rate : Nat}
  (placed : CodeAt m.codeSection p (opFuelPrice (.quadraticFuel (d + 1) wordCost divisor rate)))
  (hlo : lo ≤ p) (hhi : p + 23 ≤ hi) (slot : stack[d]? = some y)

include placed hlo hhi slot

/-- The price of a quadratic policy. -/
lemma quadraticPrice_run (pos : 0 < divisor) (small : divisor < 2 ^ 32)
    (room : stack.length + 4 ≤ cap) :
    (boundedWithin m host lo hi).Steps ⟨stack, cap, calls, p, store⟩
      ⟨SyscallFuelParams.price (.quadraticFuel (d + 1) wordCost divisor rate) y :: stack, cap, calls,
        p + 23, store⟩ := by
  have divisor_ne : BitVec.ofNat 32 divisor ≠ 0 := by
    intro eq
    have eq := congrArg BitVec.toNat eq
    rw [BitVec.toNat_ofNat, Nat.mod_eq_of_lt small] at eq
    exact absurd eq pos.ne'
  rw [opFuelPrice, CodeAt.append_iff, CodeAt.append_iff, CodeAt.append_iff] at placed
  obtain ⟨⟨⟨cost, first⟩, second⟩, rest⟩ := placed
  -- every price leaves one value, so the slot of the length is one deeper each time
  have first : CodeAt m.codeSection (p + 7) (opFuelWords (d + 1 + 1)) := first
  have second : CodeAt m.codeSection (p + 12) (opFuelWords (d + 2 + 1)) := second
  obtain ⟨h0, h1, h2, h3, h4, h5, -⟩ := rest
  have priced : (boundedWithin m host lo hi).Steps ⟨stack, cap, calls, p, store⟩
      ⟨(y + 31).udiv 32 * BitVec.ofNat 32 wordCost :: stack, cap, calls, p + 7, store⟩ :=
    wordCost_run cost hlo (by omega) slot (by omega)
  refine priced.trans ((fuelWords_run first (by omega) (by omega) slot (by simp; omega)).trans ?_)
  refine (fuelWords_run second (by omega) (by omega) slot (by simp; omega)).trans ?_
  have divides (w : UntypedValue) (rest : List UntypedValue) (p : Nat) :
      (⟨BitVec.ofNat 32 divisor :: w :: rest, cap, calls, p, store⟩ : Executor T).step m host
        .i32DivU = .next ⟨w.udiv (BitVec.ofNat 32 divisor) :: rest, cap, calls, p + 1, store⟩ := by
    simp only [Executor.step, Executor.visitFallible, UntypedValue.FallibleOp.eval,
      if_neg divisor_ne]
    rfl
  have one : stack.length + 1 ≤ cap := by omega
  have two : stack.length + 2 ≤ cap := by omega
  have three : stack.length + 3 ≤ cap := by omega
  refine boundedWithin_next (by simp; omega) h0 rfl two ?_
  refine boundedWithin_next (by simp [Executor.advance]; omega) h1 rfl three ?_
  refine boundedWithin_next (by simp [Executor.advance]; omega) h2 (divides _ _ _) two ?_
  refine boundedWithin_next (by simp [Executor.advance]; omega) h3 rfl one ?_
  refine boundedWithin_next (by simp [Executor.advance]; omega) h4 rfl two ?_
  exact boundedWithin_next (by simp [Executor.advance]; omega) h5 rfl one .refl

/-- The words are computed three times, each time with one more value below them. -/
lemma quadraticPrice_cramped (room : stack.length + 2 ≤ cap) (cramped : cap < stack.length + 4) :
    (boundedWithin m host lo hi).Halts ⟨stack, cap, calls, p, store⟩ (.halt .undefined) := by
  rw [opFuelPrice, CodeAt.append_iff, CodeAt.append_iff, CodeAt.append_iff] at placed
  obtain ⟨⟨⟨cost, first⟩, second⟩, -⟩ := placed
  have first : CodeAt m.codeSection (p + 7) (opFuelWords (d + 1 + 1)) := first
  have second : CodeAt m.codeSection (p + 12) (opFuelWords (d + 2 + 1)) := second
  have priced : (boundedWithin m host lo hi).Steps ⟨stack, cap, calls, p, store⟩
      ⟨(y + 31).udiv 32 * BitVec.ofNat 32 wordCost :: stack, cap, calls, p + 7, store⟩ :=
    wordCost_run cost hlo (by omega) slot room
  refine priced.halts ?_
  by_cases three : stack.length + 3 ≤ cap
  · refine (fuelWords_run first (by omega) (by omega) slot three).halts ?_
    exact fuelWords_cramped second (by omega) (by omega) slot (by simp; omega)
  · exact fuelWords_cramped first (by omega) (by omega) slot (by simp; omega)

end Quadratic

/-- The code puts the price on the stack. -/
lemma fuelPrice_run {params : SyscallFuelParams} (selects : params.depth = some (d + 1))
    (admitted : params.Admitted) (placed : CodeAt m.codeSection p (opFuelPrice params)) (hlo : lo ≤ p)
    (hhi : p + (opFuelPrice params).length ≤ hi) (slot : stack[d]? = some y)
    (room : stack.length + params.priceSlots ≤ cap) :
    (boundedWithin m host lo hi).Steps ⟨stack, cap, calls, p, store⟩
      ⟨params.price y :: stack, cap, calls, p + (opFuelPrice params).length, store⟩ := by
  cases params with
  | none => cases selects
  | const base => cases selects
  | linearFuel depth wordCost baseFuel =>
    cases selects
    exact linearPrice_run placed hlo hhi slot room
  | quadraticFuel depth wordCost divisor rate =>
    cases selects
    obtain ⟨-, ⟨pos, small⟩, -⟩ := admitted
    exact quadraticPrice_run placed hlo hhi slot pos small room

/-- What a store has consumed after a charge. -/
lemma Store.consumedFuel_of_charge {units : Nat} (h : store.tryConsumeFuel units = some store') :
    store'.consumedFuel = min (store.consumedFuel + units) (2 ^ 64 - 1) := by
  unfold tryConsumeFuel at h
  dsimp only at h
  repeat' split at h
  all_goals cases h
  all_goals rfl

/-- A charge that the fuel suffices for. -/
lemma Store.tryConsumeFuel_enough {units : Nat} (counter : store.consumedFuel + units < 2 ^ 64 - 1)
    (within : ∀ limit ∈ store.fuelLimit, store.consumedFuel + units ≤ limit) :
    store.tryConsumeFuel units = some { store with consumedFuel := store.consumedFuel + units } := by
  unfold tryConsumeFuel
  dsimp only
  rw [Nat.min_eq_left (by omega)]
  split
  next limit limited => rw [if_neg (Nat.not_lt.mpr (within limit limited))]
  · rfl

section Run

variable {policy : FuelPolicy} {params : SyscallFuelParams} (host : Host T) (cap : Nat)
  (calls : List Nat) (store : Store T)

/-- Without two slots for it, the check is undefined. -/
lemma blockParams_cramped (selects : params.depth = some (d + 1))
    (placed : CodeAt m.codeSection p (compileBlockParams policy params)) (slot : stack[d]? = some y)
    (cramped : cap < stack.length + 2) :
    (boundedWithin m host p (p + (compileBlockParams policy params).length)).Halts
      ⟨stack, cap, calls, p, store⟩ (.halt .undefined) := by
  rw [compileBlockParams_eq selects] at placed ⊢
  rw [CodeAt.append_iff, CodeAt.append_iff] at placed
  refine copy_cramped placed.1.1.1 placed.1.1.2.1 (Nat.le_refl p) ?_ slot cramped
  simp [opFuelGuard]

/-- A slot above the greatest length traps. -/
lemma blockParams_trap (selects : params.depth = some (d + 1))
    (placed : CodeAt m.codeSection p (compileBlockParams policy params)) (slot : stack[d]? = some y)
    (room : stack.length + 2 ≤ cap) (gt : (params.maxX policy).toNat < y.toNat) :
    ∃ e', (boundedWithin m host p (p + (compileBlockParams policy params).length)).Halts
      ⟨stack, cap, calls, p, store⟩ (.halt (.trapped .integerOverflow e')) := by
  rw [compileBlockParams_eq selects] at placed ⊢
  rw [CodeAt.append_iff, CodeAt.append_iff] at placed
  refine fuelGuard_trap placed.1.1 (Nat.le_refl p) ?_ slot room gt
  simp [opFuelGuard]

/-- The price of another one is undefined without the slots for it. -/
lemma blockParams_price_cramped (selects : params.depth = some (d + 1))
    (placed : CodeAt m.codeSection p (compileBlockParams policy params)) (slot : stack[d]? = some y)
    (room : stack.length + 2 ≤ cap) (le : y.toNat ≤ (params.maxX policy).toNat)
    (cramped : cap < stack.length + params.priceSlots) :
    (boundedWithin m host p (p + (compileBlockParams policy params).length)).Halts
      ⟨stack, cap, calls, p, store⟩ (.halt .undefined) := by
  rw [compileBlockParams_eq selects] at placed ⊢
  rw [CodeAt.append_iff, CodeAt.append_iff] at placed
  obtain ⟨⟨guard, price⟩, -⟩ := placed
  have five : (opFuelGuard d.succ (params.maxX policy)).length = 5 := rfl
  simp only [List.length_append, List.length_singleton, five] at price ⊢
  refine (fuelGuard_pass guard (Nat.le_refl p) (by omega) slot room le).halts ?_
  cases params with
  | none => cases selects
  | const base => cases selects
  | linearFuel depth wordCost baseFuel => exact absurd room (Nat.not_le.mpr cramped)
  | quadraticFuel depth wordCost divisor rate =>
    cases selects
    have long : (opFuelPrice (.quadraticFuel (d + 1) wordCost divisor rate)).length = 18 + 5 := rfl
    exact quadraticPrice_cramped price (by omega) (by omega) slot room cramped

/-- With the slots it is charged for. -/
lemma blockParams_charge (selects : params.depth = some (d + 1)) (admitted : params.Admitted)
    (placed : CodeAt m.codeSection p (compileBlockParams policy params)) (slot : stack[d]? = some y)
    (room : stack.length + params.priceSlots ≤ cap) (le : y.toNat ≤ (params.maxX policy).toNat) :
    match store.tryConsumeFuel (params.price y).toNat with
    | some store' => (boundedWithin m host p (p + (compileBlockParams policy params).length)).Halts
        ⟨stack, cap, calls, p, store⟩
        (.next ⟨stack, cap, calls, p + (compileBlockParams policy params).length, store'⟩)
    | none => ∃ e', (boundedWithin m host p (p + (compileBlockParams policy params).length)).Halts
        ⟨stack, cap, calls, p, store⟩ (.halt (.trapped .outOfFuel e')) := by
  have two : stack.length + 2 ≤ cap := by
    have := params.two_le_priceSlots
    omega
  have fits : stack.length ≤ cap := by omega
  rw [compileBlockParams_eq selects] at placed ⊢
  rw [CodeAt.append_iff, CodeAt.append_iff] at placed
  obtain ⟨⟨guard, price⟩, consume, -⟩ := placed
  simp only [List.length_append, List.length_singleton] at consume ⊢
  set len := (opFuelPrice params).length
  have five : (opFuelGuard d.succ (params.maxX policy)).length = 5 := rfl
  rw [five] at price consume ⊢
  have st : (boundedWithin m host p (p + (5 + len + 1))).Steps ⟨stack, cap, calls, p, store⟩
      ⟨params.price y :: stack, cap, calls, p + 5 + len, store⟩ :=
    (fuelGuard_pass guard (Nat.le_refl p) (by omega) slot two le).trans
      (fuelPrice_run selects admitted price (by omega) (by omega) slot room)
  rw [← Nat.add_assoc] at consume
  cases paid : store.tryConsumeFuel (params.price y).toNat with
  | some store' =>
    have charged : (⟨params.price y :: stack, cap, calls, p + 5 + len, store⟩ : Executor T).step m host
        .consumeFuelStack = .next ⟨stack, cap, calls, p + 5 + len + 1, store'⟩ := by
      simp only [Executor.step, Executor.visitConsumeFuelStack, Executor.visitConsumeFuel, paid]
      rfl
    have last : (boundedWithin m host p (p + (5 + len + 1))).Steps _ _ :=
      boundedWithin_next (by simp; omega) consume charged fits .refl
    rw [show p + 5 + len + 1 = p + (5 + len + 1) by omega] at last
    exact (st.trans last).halts (Machine.within_exit (by simp))
  | none =>
    refine ⟨⟨stack, cap, calls, p + 5 + len, store⟩,
      st.halts (boundedWithin_halt (by simp; omega) consume ?_ fits)⟩
    simp only [Executor.step, Executor.visitConsumeFuelStack, Executor.visitConsumeFuel, paid]

end Run

/-- The charge is what the policy says for a length: a trap above the greatest one, and otherwise the
units it names, with the stack as it was. -/
def ChargesFor (m : RwasmModule) (host : Host T) (hi : Nat) (e : Executor T) (policy : FuelPolicy)
    (params : SyscallFuelParams) (x : Nat) : Prop :=
  if (params.maxX policy).toNat < x then
    ∃ e', (boundedWithin m host e.ip hi).Halts e (.halt (.trapped .integerOverflow e'))
  else
    (boundedWithin m host e.ip hi).Halts e (.next { e with
      ip := hi
      store := { e.store with consumedFuel := e.store.consumedFuel + params.charge x } })

section Charges

variable {policy : FuelPolicy} {params : SyscallFuelParams} {e : Executor T} {x d hi : Nat}
  {y : UntypedValue} (placed : CodeAt m.codeSection e.ip (compileBlockParams policy params))
  (selects : params.depth = some (d + 1)) (admitted : params.Admitted)
  (slot : e.valueStack[d]? = some y)
  (end_eq : hi = e.ip + (compileBlockParams policy params).length)

include placed selects admitted slot end_eq

/-- Above the greatest length it is the slot that has to be above it, with two slots for the check. -/
lemma chargesFor_above (above : (params.maxX policy).toNat < x) :
    ChargesFor m host hi e policy params x ↔
      (params.maxX policy).toNat < y.toNat ∧ e.valueStack.length + 2 ≤ e.capacity := by
  obtain ⟨stack, cap, calls, p, store⟩ := e
  subst end_eq
  dsimp only at placed slot ⊢
  unfold ChargesFor
  rw [if_pos above]
  constructor
  · rintro ⟨e', trapped⟩
    have room : stack.length + 2 ≤ cap := by
      by_contra cramped
      cases trapped.unique
        (blockParams_cramped host cap calls store selects placed slot (Nat.lt_of_not_le cramped))
    refine ⟨?_, room⟩
    by_contra le
    have le := Nat.le_of_not_lt le
    by_cases priced : stack.length + params.priceSlots ≤ cap
    · have run := blockParams_charge host cap calls store selects admitted placed slot priced le
      split at run
      · cases trapped.unique run
      · obtain ⟨e'', out⟩ := run
        cases trapped.unique out
    · cases trapped.unique (blockParams_price_cramped host cap calls store selects placed slot room le
        (Nat.lt_of_not_le priced))
  · rintro ⟨gt, room⟩
    exact blockParams_trap host cap calls store selects placed slot room gt

/-- Below it the slot has to be below it too, its price to be the charge, with the slots for the
price. -/
lemma chargesFor_below (tested : policy.Tested) (below : ¬ (params.maxX policy).toNat < x)
    (counter : e.store.consumedFuel + params.charge x < 2 ^ 64 - 1)
    (within : ∀ limit ∈ e.store.fuelLimit, e.store.consumedFuel + params.charge x ≤ limit) :
    ChargesFor m host hi e policy params x ↔
      (y.toNat ≤ (params.maxX policy).toNat ∧ params.charge y.toNat % 2 ^ 32 = params.charge x) ∧
        e.valueStack.length + params.priceSlots ≤ e.capacity := by
  obtain ⟨stack, cap, calls, p, store⟩ := e
  subst end_eq
  dsimp only at placed slot counter within ⊢
  unfold ChargesFor
  rw [if_neg below]
  dsimp only
  constructor
  · intro ran
    have room : stack.length + 2 ≤ cap := by
      by_contra cramped
      cases ran.unique
        (blockParams_cramped host cap calls store selects placed slot (Nat.lt_of_not_le cramped))
    have le : y.toNat ≤ (params.maxX policy).toNat := by
      by_contra gt
      obtain ⟨e', trapped⟩ :=
        blockParams_trap host cap calls store selects placed slot room (Nat.lt_of_not_le gt)
      cases trapped.unique ran
    have priced : stack.length + params.priceSlots ≤ cap := by
      by_contra cramped
      cases ran.unique (blockParams_price_cramped host cap calls store selects placed slot room le
        (Nat.lt_of_not_le cramped))
    refine ⟨⟨le, ?_⟩, priced⟩
    have run := blockParams_charge host cap calls store selects admitted placed slot priced le
    have price := toNat_price tested selects admitted le
    split at run
    next store' paid =>
      have consumed := Store.consumedFuel_of_charge paid
      have same := run.unique ran
      injection same with same
      injection same with _ _ _ _ same
      rw [same, price] at consumed
      dsimp only at consumed
      omega
    · obtain ⟨e', out⟩ := run
      cases out.unique ran
  · rintro ⟨⟨le, priced⟩, room⟩
    have run := blockParams_charge host cap calls store selects admitted placed slot room le
    rw [toNat_price tested selects admitted le, priced,
      Store.tryConsumeFuel_enough counter within] at run
    exact run

end Charges

/-- The lengths on which the emitted code and the policy disagree, where the slot at the depth of the
policy holds `y`. -/
inductive FuelDefect (policy : FuelPolicy) (params : SyscallFuelParams) (x y : Nat) : Prop
  /-- The slot is not that of the length, and gives another verdict. -/
  | verdict :
    ¬ ((params.maxX policy).toNat < x ↔ (params.maxX policy).toNat < y) →
    FuelDefect policy params x y
  /-- What is left of the price in 32 bits is not the charge. -/
  | price :
    x ≤ (params.maxX policy).toNat →
    y ≤ (params.maxX policy).toNat →
    params.charge y % 2 ^ 32 ≠ params.charge x →
    FuelDefect policy params x y

/-- The emitted code charges what the policy says, with fuel and slots for it, except for the lengths
that `FuelDefect` names. -/
theorem compileBlockParams_charges_iff {policy : FuelPolicy} (tested : policy.Tested)
    {params : SyscallFuelParams} (admitted : params.Admitted) {e : Executor T} {x d hi : Nat}
    {y : UntypedValue} (placed : CodeAt m.codeSection e.ip (compileBlockParams policy params))
    (selects : params.depth = some (d + 1)) (slot : e.valueStack[d]? = some y)
    (enough : x ≤ (params.maxX policy).toNat →
      e.store.consumedFuel + params.charge x < 2 ^ 64 - 1 ∧
        ∀ limit ∈ e.store.fuelLimit, e.store.consumedFuel + params.charge x ≤ limit)
    (end_eq : hi = e.ip + (compileBlockParams policy params).length) :
    ChargesFor m host hi e policy params x ↔
      ¬ FuelDefect policy params x y.toNat ∧
        e.valueStack.length + params.slots policy x ≤ e.capacity := by
  by_cases above : (params.maxX policy).toNat < x
  · rw [chargesFor_above placed selects admitted slot end_eq above, SyscallFuelParams.slots,
      if_pos above]
    refine and_congr_left fun _ => ⟨fun gt defect => ?_, fun no => ?_⟩
    · cases defect with
      | verdict differs => exact differs (iff_of_true above gt)
      | price below => exact absurd above (Nat.not_lt.mpr below)
    · by_contra le
      exact no (.verdict fun same => le (same.mp above))
  · have below : x ≤ (params.maxX policy).toNat := Nat.le_of_not_lt above
    obtain ⟨counter, within⟩ := enough below
    rw [chargesFor_below placed selects admitted slot end_eq tested above counter within,
      SyscallFuelParams.slots, if_neg above]
    refine and_congr_left fun _ => ⟨?_, fun no => ?_⟩
    · rintro ⟨le, priced⟩ defect
      cases defect with
      | verdict differs => exact differs (iff_of_false above (Nat.not_lt.mpr le))
      | price _ _ ne => exact ne priced
    · have le : y.toNat ≤ (params.maxX policy).toNat := by
        by_contra gt
        exact no (.verdict fun same => above (same.mpr (Nat.lt_of_not_le gt)))
      refine ⟨le, ?_⟩
      by_contra ne
      exact no (.price below le ne)

/-! ## The trampoline -/

/-- What stands in front of the stack check of a function. -/
def Prologue (cx : Context) (code : List Opcode) : Prop :=
  ∃ signature fuel, code = .signatureCheck signature ::
    if cx.withConsumeFuel then [.consumeFuel fuel] else []

/-- A charge to an instruction that stands last. -/
lemma Skeleton.charge_last {cx : Context} {s : Skeleton} {code : List Opcode} {delta fuel : Nat}
    (metered : cx.withConsumeFuel = true) (instr : s.fuelInstr = some code.length)
    (last : s.code = code ++ [.consumeFuel fuel]) :
    (s.charge cx delta).code = code ++ [.consumeFuel (fuel + delta)] := by
  have found : s.code[code.length]? = some (.consumeFuel fuel) := by
    rw [last, List.getElem?_concat_length]
  simp only [Skeleton.charge, metered, instr, found]
  rw [last, List.set_append_right _ _ (Nat.le_refl _), Nat.sub_self]
  rfl

namespace InstructionTranslator

variable {cx : Context} {t t' : InstructionTranslator}

/-- What `prepare` emits; no label is used yet. -/
lemma prepare_code {func : Nat} (h : t.prepare cx func = .ok t') :
    t'.labels.users = t.labels.users ∧
      ∃ prologue, Prologue cx prologue ∧ t'.instructionSet = t.instructionSet ++ prologue := by
  simp only [prepare, Compile.bind_ok] at h
  obtain ⟨type, -, signature, -, original, -, funcType, -, h⟩ := h
  cases metered : cx.withConsumeFuel with
  | false =>
    have opened : t'.instructionSet = t.instructionSet ++ [.signatureCheck signature] ∧
        t'.labels.users = t.labels.users := by
      simp only [pushConsumeFuel, metered, Bool.false_eq_true, if_false] at h
      split at h
      · have eq := bumpFuelConsumption_skeleton h
        rw [Skeleton.charge, metered] at eq
        exact ⟨congrArg Skeleton.code eq, congrArg (·.labels.users) eq⟩
      · cases h
        exact ⟨rfl, rfl⟩
    refine ⟨opened.2, _, ⟨signature, 0, ?_⟩, opened.1⟩
    rw [metered]
    rfl
  | true =>
    obtain ⟨fuel, opened⟩ : ∃ fuel, t'.instructionSet =
        (t.instructionSet ++ [.signatureCheck signature]) ++ [.consumeFuel fuel] ∧
          t'.labels.users = t.labels.users := by
      simp only [pushConsumeFuel, metered, if_true] at h
      split at h
      · have eq := bumpFuelConsumption_skeleton h
        refine ⟨_, (congrArg Skeleton.code eq).trans (Skeleton.charge_last metered rfl rfl), ?_⟩
        have labels := congrArg (·.labels.users) eq
        rwa [Skeleton.charge_labels] at labels
      · cases h
        exact ⟨0, rfl, rfl⟩
    refine ⟨opened.2, [.signatureCheck signature, .consumeFuel fuel], ⟨signature, fuel, ?_⟩, ?_⟩
    · rw [metered]
      rfl
    · rw [opened.1, List.append_assoc]
      rfl

/-- The stack check behind a prologue is the one that is patched. -/
lemma patchStackCheck_prologue {prologue rest : List Opcode} {height old : Nat}
    (prologue_eq : Prologue cx prologue) :
    patchStackCheck height (if cx.withConsumeFuel then 3 else 2)
      (prologue ++ .stackCheck old :: rest) = .ok (prologue ++ .stackCheck height :: rest) := by
  obtain ⟨signature, fuel, rfl⟩ := prologue_eq
  cases cx.withConsumeFuel <;> rfl

end InstructionTranslator

/-- A trampoline: its prologue, the charge and the call. -/
lemma ModuleParser.trampoline_code {policy : FuelPolicy} {config : CompilationConfig}
    {parser : ModuleParser} {func type : Nat} {entity : ImportLinkerEntity} {code : List Opcode}
    (compiled : parser.trampoline policy config func type entity = .ok code) :
    ∃ prologue height, Prologue (parser.context policy config) prologue ∧
      code = parser.instructionSet ++ (prologue ++ .stackCheck height ::
        ((if config.builtinsConsumeFuel then compileBlockParams policy entity.syscallFuelParam
          else []) ++ [.call entity.sysFuncIdx, .ret])) := by
  simp only [trampoline, Compile.bind_ok] at compiled
  obtain ⟨t, prepared, signature, -, finished⟩ := compiled
  obtain ⟨users, prologue, prologue_eq, emitted⟩ := InstructionTranslator.prepare_code prepared
  simp only [InstructionTranslator.finish, Compile.bind_ok] at finished
  obtain ⟨resolved, resolves, body, patched, finished⟩ := finished
  cases finished
  -- No branch was emitted, so there is nothing to resolve.
  have unused : t.labels.users = [] := users
  have emitted : t.instructionSet = parser.instructionSet ++ prologue := emitted
  simp only [InstructionTranslator.emit, unused, List.foldlM_nil] at resolves
  cases resolves
  simp only [InstructionTranslator.emit, emitted, List.append_assoc, List.drop_left] at patched
  have body_eq := patched.symm.trans (InstructionTranslator.patchStackCheck_prologue prologue_eq)
  injection body_eq with body_eq
  refine ⟨prologue, t.stackHeight.maxHeight, prologue_eq, ?_⟩
  rw [body_eq, emitted, List.append_assoc, List.take_left]
  rfl

/-- The number a value holds. -/
def Value.magnitude : Value → Nat
  | .i32 b | .f32 b | .funcRef b | .externRef b => b.toNat
  | .i64 b | .f64 b => b.toNat

section Arguments

variable {vs behind : List Value} {v : Value}

/-- Values pushed in two parts are pushed at once. -/
lemma pushValues_append {us : List Value} :
    pushValues (us ++ vs) below = pushValues vs (pushValues us below) :=
  List.foldl_append

/-- Every argument takes a slot. -/
lemma length_le_pushValues : vs.length + below.length ≤ (pushValues vs below).length := by
  induction vs generalizing below with
  | nil => exact Nat.le_of_eq (Nat.zero_add _)
  | cons v vs ih =>
    have one : below.length + 1 ≤ (pushValue v below).length := by
      cases v
      all_goals simp [pushValue]
    have rest : vs.length + (pushValue v below).length ≤ _ := ih
    rw [pushValues, List.foldl_cons, List.length_cons]
    change _ ≤ (pushValues vs _).length
    omega

/-- Where no argument behind the selected one takes two slots, its slot is the one at its depth. -/
lemma pushValues_slot (narrow : ∀ w ∈ v :: behind, ¬ w.ty.IsWide) (slot : (pushValues
    (vs ++ v :: behind) below)[behind.length]? = some y) : y.toNat = v.magnitude := by
  induction behind using List.reverseRecOn generalizing y with
  | nil =>
    rw [pushValues_append] at slot
    have own := narrow v List.mem_cons_self
    cases v with
    | i64 b => exact absurd (.inl rfl) own
    | f64 b => exact absurd (.inr rfl) own
    | i32 b | f32 b | funcRef b | externRef b =>
      cases slot
      rfl
  | append_singleton behind w ih =>
    have last := narrow w (by simp)
    -- The last argument is one slot above the rest.
    refine ih (fun u mem => narrow u ?_) ?_
    · rw [← List.cons_append]
      exact List.mem_append_left _ mem
    · rw [← List.cons_append, ← List.append_assoc, pushValues_append, List.length_append,
        List.length_singleton] at slot
      cases w with
      | i64 b => exact absurd (.inl rfl) last
      | f64 b => exact absurd (.inr rfl) last
      | i32 b | f32 b | funcRef b | externRef b => exact slot

end Arguments

/-- With its own length in the slot, the code is wrong where the charge takes more than 32 bits. -/
lemma fuelDefect_self_iff {policy : FuelPolicy} {params : SyscallFuelParams} {x : Nat} :
    FuelDefect policy params x x ↔ x ≤ (params.maxX policy).toNat ∧ 2 ^ 32 ≤ params.charge x := by
  constructor
  · intro defect
    cases defect with
    | verdict differs => exact absurd Iff.rfl differs
    | price le _ ne => exact ⟨le, Nat.le_of_not_lt fun lt => ne (Nat.mod_eq_of_lt lt)⟩
  · rintro ⟨le, wide⟩
    refine .price le le fun eq => ?_
    have lt := Nat.mod_lt (params.charge x) (Nat.two_pow_pos 32)
    omega

/-- So it is where no argument from the selected one on takes two slots. -/
lemma fuelDefect_narrow_iff {policy : FuelPolicy} {params : SyscallFuelParams}
    {before behind : List Value} {v : Value} (narrow : ∀ w ∈ v :: behind, ¬ w.ty.IsWide)
    (below : List UntypedValue) :
    FuelDefect policy params v.magnitude
        ((pushValues (before ++ v :: behind) below)[behind.length]?.getD 0).toNat ↔
      v.magnitude ≤ (params.maxX policy).toNat ∧ 2 ^ 32 ≤ params.charge v.magnitude := by
  have covers : (before ++ v :: behind).length + below.length ≤ _ := length_le_pushValues
  rw [List.length_append, List.length_cons] at covers
  have slot := List.getElem?_eq_getElem
    (l := pushValues (before ++ v :: behind) below) (i := behind.length) (by omega)
  rw [slot, Option.getD_some, pushValues_slot narrow slot]
  exact fuelDefect_self_iff

/-- The trampoline of an import charges what the policy says for the selected argument, and comes to
the call with the arguments as they were, except for those that `FuelDefect` names and where the caller
has reserved too few slots above the arguments. -/
theorem trampoline_charges_iff {policy : FuelPolicy} (tested : policy.Tested)
    {config : CompilationConfig} {parser : ModuleParser} {func type : Nat}
    {entity : ImportLinkerEntity} {code : List Opcode} {start hi : Nat} {e : Executor T}
    {before behind : List Value} {v : Value} (metered : config.builtinsConsumeFuel = true)
    (compiled : parser.trampoline policy config func type entity = .ok code)
    (placed : CodeAt m.codeSection start (code.drop parser.instructionSet.length))
    (call_eq : hi + 2 = start + (code.drop parser.instructionSet.length).length)
    (charge_eq : e.ip + (compileBlockParams policy entity.syscallFuelParam).length = hi)
    (admitted : entity.syscallFuelParam.Admitted)
    (selects : entity.syscallFuelParam.depth = some (behind.length + 1))
    (args : e.valueStack = pushValues (before ++ v :: behind) below)
    (enough : v.magnitude ≤ (entity.syscallFuelParam.maxX policy).toNat →
      e.store.consumedFuel + entity.syscallFuelParam.charge v.magnitude < 2 ^ 64 - 1 ∧
        ∀ limit ∈ e.store.fuelLimit,
          e.store.consumedFuel + entity.syscallFuelParam.charge v.magnitude ≤ limit) :
    ChargesFor m host hi e policy entity.syscallFuelParam v.magnitude ∧
        m.codeSection[hi]? = some (.call entity.sysFuncIdx) ↔
      ¬ FuelDefect policy entity.syscallFuelParam v.magnitude
          (e.valueStack[behind.length]?.getD 0).toNat ∧
        e.valueStack.length + entity.syscallFuelParam.slots policy v.magnitude ≤ e.capacity := by
  obtain ⟨prologue, height, -, code_eq⟩ := ModuleParser.trampoline_code compiled
  rw [code_eq, List.drop_left, metered, if_pos rfl] at placed call_eq
  rw [CodeAt.append_iff, CodeAt.cons_iff, CodeAt.append_iff] at placed
  obtain ⟨-, -, charge, call, -⟩ := placed
  simp only [List.length_append, List.length_cons, List.length_nil] at call_eq
  have ip_eq : start + prologue.length + 1 = e.ip := by omega
  rw [ip_eq] at charge call
  rw [charge_eq] at call
  obtain ⟨y, slot⟩ : ∃ y, e.valueStack[behind.length]? = some y := by
    have covers : (before ++ v :: behind).length + below.length ≤ _ := length_le_pushValues
    rw [← args, List.length_append, List.length_cons] at covers
    exact ⟨_, List.getElem?_eq_getElem (by omega)⟩
  have exact_iff : ChargesFor m host hi e policy entity.syscallFuelParam v.magnitude ↔ _ :=
    compileBlockParams_charges_iff tested admitted charge selects slot enough charge_eq.symm
  rw [slot, Option.getD_some, ← exact_iff]
  exact and_iff_left call

/-- A policy of unit costs, with the greatest lengths of the tests. -/
def testedPolicy : FuelPolicy where
  base := 1
  entity := 1
  load := 1
  store := 1
  call := 1
  fuelForLocals := id
  maxLinearX := 134217728
  maxQuadraticX := 1310720

/-- The policy of the test values is one the builtins have been tested with. -/
lemma tested_testedPolicy : testedPolicy.Tested := ⟨rfl, rfl⟩

/-- A front end that has declared one import, a function of a 32-bit length. -/
def importing : ModuleParser where
  funcTypeRegistry := ⟨[⟨[.i32], []⟩], [⟨[.i32], []⟩], [0]⟩
  compiledFuncs := [0]

/-- A host function that costs so much a word, and seven units more. -/
def linearEntity (wordCost : Nat) : ImportLinkerEntity where
  sysFuncIdx := 7
  syscallFuelParam := .linearFuel 1 wordCost 7
  params := [.i32]
  result := []
  intrinsic := none

/-- Its trampoline. -/
def linearTrampoline (wordCost : Nat) : List Opcode :=
  [.signatureCheck 0, .consumeFuel 1, .stackCheck 0] ++
    compileBlockParams testedPolicy (.linearFuel 1 wordCost 7) ++ [.call 7, .ret]

/-- An executor in front of the charge, with the arguments on its stack. -/
def atCharge (fuel : Nat) (args : List Value) : Executor Unit :=
  { fueledWith fuel (pushValues args []) with ip := 3 }

/-- The module that holds it. -/
def linearModule (wordCost : Nat) : RwasmModule :=
  ⟨linearTrampoline wordCost, [], [], [], 0⟩

/-- A length of 65 bytes takes three words. -/
theorem trampoline_charges_iff_words :
    ChargesFor (linearModule 5) Host.empty 18 (atCharge 100 [.i32 65]) testedPolicy
        (.linearFuel 1 5 7) 65 ∧ (linearModule 5).codeSection[18]? = some (.call 7) := by
  have compiled : importing.trampoline testedPolicy { builtinsConsumeFuel := true } 0 0
      (linearEntity 5) = .ok (linearTrampoline 5) := rfl
  have placed : CodeAt (linearModule 5).codeSection 0
      ((linearTrampoline 5).drop importing.instructionSet.length) := .self
  have admitted : (linearEntity 5).syscallFuelParam.Admitted := by
    constructor
    all_goals decide
  have selects : (linearEntity 5).syscallFuelParam.depth = some (([] : List Value).length + 1) := rfl
  have args : (atCharge 100 [.i32 65]).valueStack = pushValues ([] ++ Value.i32 65 :: []) [] := rfl
  refine (trampoline_charges_iff tested_testedPolicy rfl compiled placed rfl rfl admitted selects args
    ?_).mpr ?_
  · exact fun _ => ⟨by decide, by simp [atCharge, fueledWith, Store.new]; decide⟩
  · have narrow : ∀ w ∈ [Value.i32 65], ¬ w.ty.IsWide := by decide
    rw [args, fuelDefect_narrow_iff narrow]
    exact ⟨fun wide => absurd wide.2 (by decide), by decide⟩

/-- At 1024 units a word, the price of 128 MiB is `2 ^ 32` units above the base, and only the base is
charged. -/
theorem not_trampoline_charges :
    ¬ ∀ (policy : FuelPolicy) (config : CompilationConfig) (parser : ModuleParser) (func type : Nat)
      (entity : ImportLinkerEntity) (code : List Opcode) (m : RwasmModule) (host : Host Unit)
      (start hi : Nat) (e : Executor Unit) (before behind : List Value) (v : Value)
      (below : List UntypedValue),
      policy.Tested → config.builtinsConsumeFuel = true →
      parser.trampoline policy config func type entity = .ok code →
      CodeAt m.codeSection start (code.drop parser.instructionSet.length) →
      hi + 2 = start + (code.drop parser.instructionSet.length).length →
      e.ip + (compileBlockParams policy entity.syscallFuelParam).length = hi →
      entity.syscallFuelParam.Admitted →
      entity.syscallFuelParam.depth = some (behind.length + 1) →
      e.valueStack = pushValues (before ++ v :: behind) below →
      (v.magnitude ≤ (entity.syscallFuelParam.maxX policy).toNat →
        e.store.consumedFuel + entity.syscallFuelParam.charge v.magnitude < 2 ^ 64 - 1 ∧
          ∀ limit ∈ e.store.fuelLimit,
            e.store.consumedFuel + entity.syscallFuelParam.charge v.magnitude ≤ limit) →
      ChargesFor m host hi e policy entity.syscallFuelParam v.magnitude ∧
        m.codeSection[hi]? = some (.call entity.sysFuncIdx) := by
  intro all
  have admitted : (linearEntity 1024).syscallFuelParam.Admitted := by
    constructor
    all_goals decide
  obtain ⟨charges, -⟩ := all testedPolicy { builtinsConsumeFuel := true } importing 0 0
    (linearEntity 1024) (linearTrampoline 1024) (linearModule 1024) Host.empty 0 18
    (atCharge (2 ^ 33) [.i32 134217728]) [] [] (.i32 134217728) [] tested_testedPolicy rfl rfl .self
    rfl rfl admitted rfl rfl
    (fun _ => ⟨by decide, by simp [atCharge, fueledWith, Store.new]; decide⟩)
  have ran : (boundedWithin (linearModule 1024) Host.empty 3 18).Halts
      (atCharge (2 ^ 33) [.i32 134217728])
      (.next { atCharge (2 ^ 33) [.i32 134217728] with
        ip := 18
        store := { (atCharge (2 ^ 33) []).store with consumedFuel := 7 } }) :=
    Machine.halts_of_run (n := 20) rfl
  rw [ChargesFor, if_neg (by decide)] at charges
  have same := ran.unique charges
  injection same with same
  exact absurd (congrArg (·.store.consumedFuel) same) (by decide)

end Rwasm
