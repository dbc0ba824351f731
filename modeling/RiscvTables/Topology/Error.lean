import RiscvTables.Record.Store
import RiscvTables.Text.Numeral

/-!
# Why a topology could not be resolved

The errors of hart discovery, of interrupt wiring and of reading the cpus' capabilities.  A node
is named by its path.
-/

set_option autoImplicit false

namespace RiscvTables

/-- Why a topology could not be resolved. -/
inductive TopologyError where
  /-- A node that must be there is not. -/
  | missingNode (path : String)
  /-- There is no cpu node. -/
  | noCpus (cpus : String)
  /-- A cpu node is not a RISC-V hart. -/
  | unsupportedCpu (node : String)
  /-- Hart ids would not be one or two cells wide. -/
  | badAddressCells (node : String) (cells : Nat)
  /-- A cpu's `reg` is not cells, or fewer than a hart id takes. -/
  | badHartReg (node : String) (cells : Nat)
  /-- Two cpu nodes have the same hart id. -/
  | duplicateHart (hartId : UInt64)
  /-- A property that must be there is not. -/
  | missingProperty (node property : String)
  /-- A property's value cannot be used. -/
  | malformedProperty (node property : String)
  /-- No node has the phandle. -/
  | danglingPhandle (node : String) (phandle : UInt32)
  /-- A hart's interrupt controller does not stand below a cpu. -/
  | orphanController (node : String)
  /-- The table does not hold the hart. -/
  | unknownHart (hartId : UInt64)
  /-- A bank of one family claims a hart that the other family has wired. -/
  | familyConflict (hartId : UInt64) (existing requested : BankFamily)
  /-- A bank or a context has too large a number for an external id. -/
  | externalIdOverflow (bank context : Nat)
  /-- There is no room for a list. -/
  | outOfResources (what : String) (count : Nat)
  /-- The store failed. -/
  | store (cause : StoreError)
deriving DecidableEq, Repr

namespace TopologyError

/-- The wording of the error. -/
def message : TopologyError → String
  | .missingNode path => s!"required node {path} not found"
  | .noCpus cpus => s!"no cpu nodes under {cpus}"
  | .unsupportedCpu node => s!"{node}: not compatible with \"riscv\""
  | .badAddressCells node cells => s!"{node}: #address-cells is {cells}, expected 1 or 2"
  | .badHartReg node cells => s!"{node}: reg holds fewer than {cells} cell(s)"
  | .duplicateHart hartId =>
    s!"hart id {Numeral.hex hartId.toNat} appears on more than one cpu node"
  | .missingProperty node property => s!"{node}: missing required property {property}"
  | .malformedProperty node property => s!"{node}: malformed {property}"
  | .danglingPhandle node phandle =>
    s!"{node}: phandle {Numeral.hex phandle.toNat} does not resolve"
  | .orphanController node => s!"{node}: interrupt controller has no parent cpu"
  | .unknownHart hartId => s!"no hart with id {Numeral.hex hartId.toNat}"
  | .familyConflict hartId existing requested =>
    s!"hart {Numeral.hex hartId.toNat} is already wired to a {existing.label} bank, " ++
      s!"refusing {requested.label} id"
  | .externalIdOverflow bank context =>
    s!"bank {bank} context {Numeral.hex context} does not fit an 8-bit bank and 24-bit context"
  | .outOfResources what count => s!"could not reserve storage for {count} {what}"
  | .store cause => cause.message

/-- What sort of failure the error is. -/
def kind : TopologyError → ErrorKind
  | .missingNode .. | .noCpus .. | .danglingPhandle .. | .orphanController ..
  | .unknownHart .. => .notFound
  | .unsupportedCpu .. => .unsupported
  | .badAddressCells .. | .badHartReg .. | .familyConflict .. => .aborted
  | .duplicateHart .. | .missingProperty .. | .malformedProperty ..
  | .externalIdOverflow .. => .invalidParameter
  | .outOfResources .. => .outOfResources
  | .store cause => cause.kind

end TopologyError
end RiscvTables
