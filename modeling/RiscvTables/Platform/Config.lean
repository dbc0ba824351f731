import RiscvTables.Record.Platform
import RiscvTables.Rhct.Header

/-!
# Platform configurations

A platform configuration supplies what a device tree does not hold, the identity of the table's
maker, and may override what it does: the ISA string, the timer and the cache-block sizes.

`PlatformConfig.validate` lists everything that is wrong with a configuration;
`PlatformConfig.records` is the part of it that becomes records.
-/

set_option autoImplicit false

namespace RiscvTables

/-- Why a platform configuration could not be had or used. -/
inductive PlatformError where
  /-- The text is not TOML, or its TOML is not a configuration. -/
  | unreadable
  /-- The configuration has a number that TOML cannot hold. -/
  | unwritable
  /-- The file could not be read; the cause in the system's words. -/
  | io (cause : String)
  /-- There is no such file. -/
  | fileNotFound (path : String)
  /-- Values contradict each other or are out of range. -/
  | invalid (detail : String)
deriving DecidableEq, Repr

namespace PlatformError

/-- The wording of the error. -/
def message : PlatformError → String
  | .unreadable => "TOML parse error: not a platform configuration"
  | .unwritable => "TOML serialization error: number out of range"
  | .io cause => s!"I/O error: {cause}"
  | .fileNotFound path => s!"platform file not found: {path}"
  | .invalid detail => s!"validation error: {detail}"

/-- What sort of failure the error is. -/
def kind : PlatformError → ErrorKind
  | .fileNotFound _ => .notFound
  | .io _ => .aborted
  | .unreadable | .unwritable | .invalid _ => .invalidParameter

end PlatformError

/-! ## Configurations -/

/-- Who makes the tables, in text. -/
structure TableIdentity where
  oemId : String := "HARTCP"
  oemTableId : String := "HARTCAP"
  oemRevision : UInt32 := 1
  creatorId : String := "HCAP"
  creatorRevision : UInt32 := 1
  revision : UInt8 := 1
deriving DecidableEq, Repr

/-- The first `width` bytes of a text, followed by blanks if it has fewer. -/
def spacePadded (width : Nat) (text : String) : Vector UInt8 width :=
  let bytes := (Utf8.encode text).take width ++
    List.replicate (width - (Utf8.encode text).length) 0x20
  ⟨bytes.toArray, by simp [bytes]; omega⟩

/-- The identity as it goes into the header of a table. -/
def TableIdentity.toInfo (identity : TableIdentity) : Rhct.TableInfo where
  revision := identity.revision
  oemId := spacePadded 6 identity.oemId
  oemTableId := spacePadded 8 identity.oemTableId
  oemRevision := identity.oemRevision
  creatorId := spacePadded 4 identity.creatorId
  creatorRevision := identity.creatorRevision

/-- The timer of a platform. -/
structure TimerConfig where
  frequency : UInt64
  cannotWakeCpu : Bool := false
deriving DecidableEq, Repr

/-- Cache-block sizes in bytes; 0 where there is no such operation. -/
structure CacheBlockConfig where
  cbom : UInt64 := 0
  cbop : UInt64 := 0
  cboz : UInt64 := 0
deriving DecidableEq, Repr

/-- A platform.  What is left out is taken from the device tree. -/
structure PlatformConfig where
  name : String
  isa : Option String := none
  table : TableIdentity := {}
  timer : Option TimerConfig := none
  cacheBlocks : List CacheBlockConfig := []
deriving DecidableEq, Repr

namespace PlatformConfig

/-- A platform that overrides nothing. -/
def named (name : String) : PlatformConfig := { name }

/-- A platform to start from, with something in every place. -/
def template (name : String) : PlatformConfig where
  name
  isa := some "rv64imafdch_zicbom_zicboz"
  timer := some { frequency := 10000000 }
  cacheBlocks := [{ cbom := 64, cbop := 64, cboz := 64 }]

/-! ## Records -/

/-- The record of cache-block sizes, which must be 0 or powers of two. -/
def cacheBlockRecord (sizes : CacheBlockConfig) : Except PlatformError CacheBlockRecord :=
  match CacheBlockRecord.ofByteSizes? sizes.cbom sizes.cbop sizes.cboz with
  | some record => .ok record
  | none => .error (.invalid
      (s!"cache block sizes {sizes.cbom.toNat}/{sizes.cbop.toNat}/{sizes.cboz.toNat} " ++
        "are not powers of two"))

/-- The records that the platform overrides. -/
def records (config : PlatformConfig) : Except PlatformError PlatformRecords := do
  let cacheBlocks ← config.cacheBlocks.mapM cacheBlockRecord
  return {
    timer := config.timer.map fun timer =>
      { frequency := timer.frequency, cannotWakeCpu := timer.cannotWakeCpu }
    isa := config.isa.map fun isa => { isa }
    cacheBlocks }

end PlatformConfig

/-! ## Validation -/

/-- How much an issue matters. -/
inductive Severity where
  | error
  | warning
deriving DecidableEq, Repr

/-- The word for a severity. -/
def Severity.label : Severity → String
  | .error => "error"
  | .warning => "warning"

/-- Something that is wrong with a configuration. -/
structure Issue where
  severity : Severity
  message : String
deriving DecidableEq, Repr

namespace PlatformConfig

/-- Whether all characters of a text are ASCII. -/
def isAscii (text : String) : Bool :=
  text.toList.all fun c => c.toNat < 128

/-- What is wrong with an id of the table header. -/
def idIssues (field value : String) (width : Nat) : List String :=
  if !isAscii value then [s!"table {field} '{value}' is not ASCII"]
  else if width < value.utf8ByteSize then
    [s!"table {field} '{value}' is longer than {width} characters"]
  else []

/-- What is wrong with an ISA string. -/
def isaIssues (isa : String) : List String :=
  if isa = "" then ["isa-string is empty"]
  else if !isAscii isa || isa.toList.contains '\x00' then
    [s!"isa-string '{isa}' must be printable ASCII"]
  else []

/-- What is wrong with one of the cache-block sizes at a position. -/
def sizeIssues (position : Nat) (field : String) (size : UInt64) : List String :=
  if (blockSizeLog2? size).isNone then
    let place := s!"cmo[{position}] {field}"
    [s!"{place} {size.toNat} is not a power of two"]
  else []

/-- What is wrong with the cache-block sizes at a position. -/
def cacheBlockIssues (sizes : CacheBlockConfig) (position : Nat) : List String :=
  sizeIssues position "cbom-block-size" sizes.cbom ++
    sizeIssues position "cbop-block-size" sizes.cbop ++
    sizeIssues position "cboz-block-size" sizes.cboz

/-- Everything that keeps a configuration from being used. -/
def errors (config : PlatformConfig) : List String :=
  idIssues "oem-id" config.table.oemId 6 ++
    idIssues "oem-table-id" config.table.oemTableId 8 ++
    idIssues "creator-id" config.table.creatorId 4 ++
    (if config.table.revision = 0 then ["table revision must be at least 1"] else []) ++
    config.isa.elim [] isaIssues ++
    config.timer.elim [] (fun timer =>
      if timer.frequency = 0 then ["timer timebase-frequency is 0"] else []) ++
    config.cacheBlocks.zipIdx.flatMap fun p => cacheBlockIssues p.1 p.2

/-- What a configuration leaves to the device tree and should not forget. -/
def warnings (config : PlatformConfig) : List String :=
  if config.timer.isNone then
    ["no [timer] section; the device tree must provide timebase-frequency"]
  else []

/-- Checks a configuration.  It passes if there are no errors; otherwise all issues are told,
warnings among them. -/
def validate (config : PlatformConfig) : Except (List Issue) Unit :=
  if config.errors = [] then .ok ()
  else .error (config.errors.map (⟨.error, ·⟩) ++ config.warnings.map (⟨.warning, ·⟩))

end PlatformConfig
end RiscvTables
