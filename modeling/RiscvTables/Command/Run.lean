import RiscvTables.Build
import RiscvTables.Command.Arguments
import RiscvTables.Command.Files
import RiscvTables.Command.Listing
import RiscvTables.DeviceTree.Blob
import RiscvTables.Json.Printer
import RiscvTables.Platform.Document
import RiscvTables.Rhct.Document
import RiscvTables.Topology.Document

/-!
# Running a command

`Request.run` carries out what the arguments ask for and tells what to print and with which code
to leave.  A failure is told as one line that says what was being done and, behind colons, why it
could not be done.
-/

set_option autoImplicit false

namespace RiscvTables

/-- What a run prints, and the code it leaves with. -/
structure Outcome where
  exitCode : Nat
  output : String := ""
  errors : String := ""
deriving DecidableEq

/-- Why a command could not be carried out: lines to tell first, and the error. -/
structure Failure where
  notes : List String := []
  error : String

namespace Command

variable {m : Type → Type} [Monad m] (files : Files m)

/-- A command that prints a text unless it fails. -/
abbrev Action (m : Type → Type) : Type → Type := ExceptT Failure m

/-- Fails with an error. -/
def fail {α : Type} (error : String) : Action m α :=
  throw { error }

/-- Reads a file. -/
def readFile (path : String) : Action m Bytes := do
  match ← ExceptT.lift (files.read path) with
  | .ok contents => return contents
  | .error error => fail s!"reading {path}: {error.message}"

/-- Writes a file. -/
def writeFile (path : String) (contents : Bytes) : Action m Unit := do
  match ← files.write path contents with
  | .ok () => return ()
  | .error error => fail s!"writing {path}: {error.message}"

/-- Reads a tree. -/
def loadTree (path : String) : Action m DeviceTree := do
  match DeviceTree.ofBlob (← readFile files path) with
  | .ok tree => return tree
  | .error error => fail s!"decoding {path}: {error.message}"

/-- A platform file, or why there is none. -/
def readPlatform (path : String) : m (Except PlatformError PlatformConfig) := do
  if !(← files.exists? path) then return .error (.fileNotFound path)
  match ← files.read path with
  | .error error => return .error (.io error.message)
  | .ok contents =>
    match Utf8.decode? contents with
    | none => return .error (.io "stream did not contain valid UTF-8")
    | some text => return PlatformConfig.ofToml text

/-- An error together with the errors it comes from. -/
def platformErrorChain (error : PlatformError) : String :=
  match error with
  | .io cause => s!"{error.message}: {cause}"
  | _ => error.message

/-- Reads a platform file. -/
def loadPlatform (path : String) : Action m PlatformConfig := do
  match ← ExceptT.lift (readPlatform files path) with
  | .ok config => return config
  | .error error => fail s!"loading {path}: {platformErrorChain error}"

/-- Fails with the issues of a configuration, if it has any that matter. -/
def requireValid (config : PlatformConfig) (error : String) : Action m Unit :=
  match config.validate with
  | .ok () => return ()
  | .error issues =>
    throw { notes := issues.map fun issue => s!"{issue.severity.label}: {issue.message}", error }

/-- A file name with another extension.  What stands before the last point of the name is kept; a
point at its very beginning does not count. -/
def withExtension (path extension : String) : String :=
  let chars := path.toList.reverse
  let name := chars.takeWhile (· ≠ '/')
  let folder := chars.drop name.length
  let stem :=
    match name.dropWhile (· ≠ '.') with
    | '.' :: (c :: rest) => c :: rest
    | _ => name
  String.ofList (folder.reverse ++ stem.reverse) ++ "." ++ extension

/-- Builds the table of a tree and writes it. -/
def runBuild (path : String) (platform output : Option String) : Action m String := do
  let tree ← loadTree files path
  let config ← match platform with
    | none => pure (PlatformConfig.named "default")
    | some file => do
      let config ← loadPlatform files file
      requireValid config s!"{file} is not a valid platform file"
      pure config
  match buildTable tree config with
  | .error error => fail error.message
  | .ok table =>
    let target := output.getD (withExtension path "rhct")
    writeFile files target table
    return s!"Wrote {target} ({table.length} bytes, platform '{config.name}')\n"

/-- Shows the topology of a tree. -/
def runResolve (path : String) (asJson : Bool) : Action m String := do
  let tree ← loadTree files path
  match tree.resolveTopology.outcome with
  | .error error => fail (BuildError.topology error).message
  | .ok topology =>
    return if asJson then Json.render topology.toDocument ++ "\n"
      else Listing.topology tree topology

/-- Shows a table. -/
def runInspect (path : String) (asJson : Bool) : Action m String := do
  match Rhct.View.parse (← readFile files path) with
  | .error error => fail s!"decoding {path}: {error.message}"
  | .ok view =>
    return if asJson then Json.render view.toDocument ++ "\n" else Listing.table view

/-- Shows a platform file to start from, or writes it where there is no file yet. -/
def runTemplate (name : String) (output : Option String) : Action m String := do
  match (PlatformConfig.template name).toToml with
  | .error error => fail error.message
  | .ok text =>
    match output with
    | none => return text
    | some path =>
      if ← files.exists? path then fail s!"{path} already exists"
      writeFile files path (Utf8.encode text)
      return s!"Created {path}\n"

/-- Checks a platform file. -/
def runValidate (path : String) : Action m String := do
  let config ← loadPlatform files path
  requireValid config s!"platform '{config.name}' has validation errors"
  return s!"Platform '{config.name}' is valid.\n"

/-- Carries out a command. -/
def action : Command → Action m String
  | .build tree platform output => runBuild files tree platform output
  | .resolve tree asJson => runResolve files tree asJson
  | .inspect table asJson => runInspect files table asJson
  | .template name output => runTemplate files name output
  | .validate file => runValidate files file

end Command

/-- Carries out a request. -/
def Request.run {m : Type → Type} [Monad m] (files : Files m) : Request → m Outcome
  | .answer text => return { exitCode := 0, output := text }
  | .misuse text => return { exitCode := 2, errors := text }
  | .command asked => do
    match ← (asked.action files).run with
    | .ok output => return { exitCode := 0, output }
    | .error failure =>
      let lines := failure.notes ++ [s!"error: {failure.error}"]
      return { exitCode := 1, errors := String.join (lines.map (· ++ "\n")) }

end RiscvTables
