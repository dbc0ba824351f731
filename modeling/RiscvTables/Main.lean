import RiscvTables.Command.Run

/-!
# The program

Gives the commands the files of the machine, prints what they have to say and leaves with their
code.
-/

set_option autoImplicit false

open RiscvTables

/-- A failure of the system, in the commands' terms. -/
def fileErrorOf : IO.Error → FileError
  | .noFileOrDirectory .. => .notFound
  | .inappropriateType _ 20 _ => .notADirectory
  | .inappropriateType _ 21 _ => .isADirectory
  | error => .other (toString error)

/-- Runs an action of the system and catches its failure. -/
def attempt {α : Type} (action : IO α) : IO (Except FileError α) := do
  try
    return .ok (← action)
  catch error =>
    return .error (fileErrorOf error)

/-- The files of the machine. -/
def machineFiles : Files IO where
  read path := attempt do return (← IO.FS.readBinFile path).data.toList
  exists? path := do
    match ← attempt (IO.FS.realPath path) with
    | .ok _ => return true
    | .error _ => return false
  write path contents := attempt (IO.FS.writeBinFile path ⟨contents.toArray⟩)

/-- Runs the program. -/
def main (args : List String) : IO UInt32 := do
  let outcome ← (Request.ofArguments args).run machineFiles
  IO.print outcome.output
  IO.eprint outcome.errors
  return UInt32.ofNat outcome.exitCode
