import Rwasm.Types.Opcode

/-!
# Imports

The import linker (`vm/import_linker.rs`): the host functions a module may import, each with its
index for the `Call` opcode, its signature, its fuel policy and, possibly, an intrinsic that replaces
the call. Inserting a name or an index twice panics, so a linker carries the proof that neither occurs
twice.
-/

namespace Rwasm

/-- Charges a fuel policy makes before a host call (`rwasm_fuel_policy::SyscallFuelParams`). -/
inductive SyscallFuelParams where
  | none
  | const (base : Nat)
  | linearFuel (paramIndex wordCost baseFuel : Nat)
  | quadraticFuel (localDepth wordCost divisor fuelDenomRate : Nat)
  deriving DecidableEq, Repr

/-- The replacement of a call to an import (`Intrinsic`). -/
inductive Intrinsic where
  | replace (opcodes : List Opcode)
  | remove
  deriving DecidableEq, Repr

/-- The name of an import: its module and its field (`ImportName`). -/
structure ImportName where
  module : String
  field : String
  deriving DecidableEq, Repr

/-- A host function (`ImportLinkerEntity`). -/
structure ImportLinkerEntity where
  sysFuncIdx : Nat
  syscallFuelParam : SyscallFuelParams
  params : List ValType
  result : List ValType
  intrinsic : Option Intrinsic
  deriving DecidableEq, Repr

/-- The linker (`ImportLinker`); names and indices occur at most once. -/
structure ImportLinker where
  entities : List (ImportName × ImportLinkerEntity)
  names_nodup : (entities.map (·.1)).Nodup
  indices_nodup : (entities.map (·.2.sysFuncIdx)).Nodup

namespace ImportLinker

/-- `resolve_by_import_name`. -/
def resolveByImportName (linker : ImportLinker) (name : ImportName) : Option ImportLinkerEntity :=
  (linker.entities.find? fun e => e.1 = name).map (·.2)

/-- `resolve_by_func_idx`. -/
def resolveByFuncIdx (linker : ImportLinker) (idx : Nat) : Option ImportLinkerEntity :=
  (linker.entities.find? fun e => e.2.sysFuncIdx = idx).map (·.2)

end ImportLinker

end Rwasm
