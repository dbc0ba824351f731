import RiscvTables.Bytes

/-!
# Files

The commands read and write files only through a `Files`, which may live in any monad.  `Main`
gives them the files of the machine; `Directory.files` gives them a directory that is a value, in
which a command can be run and looked at without touching anything.
-/

set_option autoImplicit false

namespace RiscvTables

/-- Why a file could not be used. -/
inductive FileError where
  | notFound
  | notADirectory
  | isADirectory
  | nameTooLong
  /-- Anything else, in the system's words. -/
  | other (text : String)
deriving DecidableEq, Repr

/-- The system's words for a failure. -/
def FileError.message : FileError → String
  | .notFound => "No such file or directory (os error 2)"
  | .notADirectory => "Not a directory (os error 20)"
  | .isADirectory => "Is a directory (os error 21)"
  | .nameTooLong => "File name too long (os error 36)"
  | .other text => text

/-- What the commands do with files. -/
structure Files (m : Type → Type) where
  read : String → m (Except FileError Bytes)
  exists? : String → m Bool
  write : String → Bytes → m (Except FileError Unit)

/-! ## A directory as a value -/

/-- A directory that holds files and no directories. -/
structure Directory where
  entries : List (String × Bytes)

/-- Where a path leads. -/
inductive Place where
  /-- The directory itself, or one above it. -/
  | directory (isHere : Bool)
  /-- A file of the directory. -/
  | file (name : String)
  /-- A name that nothing has yet. -/
  | vacant (isHere : Bool) (name : String)
deriving DecidableEq

namespace Directory

variable (directory : Directory)

/-- How many bytes a name may have. -/
def maxNameSize : Nat := 255

/-- One step along a path. -/
def step : Place → String → Except FileError Place
  | .directory isHere, name =>
    if name = "" ∨ name = "." then .ok (.directory isHere)
    else if name = ".." then .ok (.directory false)
    else if maxNameSize < name.utf8ByteSize then .error .nameTooLong
    else if isHere ∧ (directory.entries.lookup name).isSome then .ok (.file name)
    else .ok (.vacant isHere name)
  | .file _, _ => .error .notADirectory
  | .vacant .., _ => .error .notFound

/-- Follows a path, given in its parts. -/
def follow (parts : List String) : Except FileError Place :=
  parts.foldlM directory.step (.directory true)

/-- The parts of a path.  Nothing is known about what an absolute path leads to, so it is taken to
start outside the directory. -/
def parts (path : String) : List String :=
  match path.toList with
  | '/' :: rest => ".." :: (rest.splitOn '/').map String.ofList
  | chars => (chars.splitOn '/').map String.ofList

/-- The contents of the file at a path. -/
def read (path : String) : Except FileError Bytes := do
  match ← directory.follow (parts path) with
  | .directory _ => throw .isADirectory
  | .vacant .. => throw .notFound
  | .file name => return (directory.entries.lookup name).getD []

/-- Whether a path leads to anything. -/
def exists? (path : String) : Bool :=
  match directory.follow (parts path) with
  | .ok (.directory _) | .ok (.file _) => true
  | _ => false

/-- The directory with the contents of a file replaced, or with a new file. -/
def put (name : String) (contents : Bytes) : Directory :=
  ⟨directory.entries.filter (fun entry => entry.1 ≠ name) ++ [(name, contents)]⟩

/-- Writes the file at a path.  A path that ends in a slash can only lead to a directory, and a
file outside the directory is not kept. -/
def write (path : String) (contents : Bytes) : Except FileError Directory := do
  let names := parts path
  let isDirectoryPath := names.getLast? = some ""
  match ← directory.follow (if isDirectoryPath then names.dropLast else names) with
  | .directory _ => throw .isADirectory
  | .file name =>
    if isDirectoryPath then throw .isADirectory else return directory.put name contents
  | .vacant isHere name =>
    if isDirectoryPath then throw .isADirectory
    else return if isHere then directory.put name contents else directory

/-- The files of a directory that is kept as state. -/
def files : Files (StateM Directory) where
  read path := do return (← get).read path
  exists? path := do return (← get).exists? path
  write path contents := do
    match (← get).write path contents with
    | .error error => return .error error
    | .ok directory =>
      set directory
      return .ok ()

end Directory
end RiscvTables
