import RiscvTables.Command.Interface

/-!
# The commands and their arguments

What the program can be asked to do, and how it is asked.  `Request.ofArguments` reads the
arguments of the program: they name a command, or ask for the program's version or a help page,
or make no sense.
-/

set_option autoImplicit false

namespace RiscvTables

/-- Something that the program can be asked to do. -/
inductive Command where
  /-- Build the table of a tree. -/
  | build (tree : String) (platform output : Option String)
  /-- Show the topology of a tree. -/
  | resolve (tree : String) (asJson : Bool)
  /-- Show a table. -/
  | inspect (table : String) (asJson : Bool)
  /-- Show or write a platform file to start from. -/
  | template (name : String) (output : Option String)
  /-- Check a platform file. -/
  | validate (file : String)
deriving DecidableEq

/-- What the arguments of the program ask for. -/
inductive Request where
  | command (command : Command)
  /-- A text that answers the request. -/
  | answer (text : String)
  /-- Arguments that make no sense, and what to tell about them. -/
  | misuse (text : String)
deriving DecidableEq

namespace Request

/-! ## The interfaces -/

/-- The name by which the program is called. -/
def programName : String := "hartcap"

/-- The program's version. -/
def programVersion : String := "0.1.0"

/-- The option that every command has. -/
def verboseOption : CommandOption where
  long := "verbose"
  short := some 'v'
  isRepeatable := true
  about := "Increase log verbosity (-v info, -vv debug, -vvv trace)"

/-- The option that asks for a help page. -/
def helpOption : CommandOption where
  long := "help"
  short := some 'h'
  about := "Print help"

/-- The subcommand that asks for a help page. -/
def helpCommand : String × String :=
  ("help", "Print this message or the help of the given subcommand(s)")

/-- The option that names a tree. -/
def treeOption : CommandOption where
  long := "dtb"
  value := some "DTB"
  isRequired := true
  about := "Flattened device tree blob (.dtb)"

/-- The option that names a file to write. -/
def outputOption (about : String) : CommandOption where
  long := "output"
  short := some 'o'
  value := some "OUTPUT"
  about

/-- The program itself. -/
def programInterface : Interface where
  name := programName
  about := "Generate ACPI RHCT tables from RISC-V device trees"
  options := [verboseOption, helpOption,
    { long := "version", short := some 'V', about := "Print version" }]
  subcommands := [
    ("build", "Build an RHCT from a device tree blob"),
    ("resolve", "Resolve harts and interrupt controllers without building a table"),
    ("inspect", "Decode and print an RHCT"),
    ("platform", "Manage platform override files"),
    helpCommand]

/-- The command `build`. -/
def buildInterface : Interface where
  name := s!"{programName} build"
  about := "Build an RHCT from a device tree blob"
  options := [treeOption, verboseOption,
    { long := "platform", value := some "PLATFORM",
      about := "Platform overrides (.platform.toml)" },
    outputOption "Output path (default: <dtb>.rhct)", helpOption]

/-- The command `resolve`. -/
def resolveInterface : Interface where
  name := s!"{programName} resolve"
  about := "Resolve harts and interrupt controllers without building a table"
  options := [treeOption, verboseOption,
    { long := "json", about := "Print the resolved records as JSON" }, helpOption]

/-- The command `inspect`. -/
def inspectInterface : Interface where
  name := s!"{programName} inspect"
  about := "Decode and print an RHCT"
  options := [{ long := "json", about := "Print the decoded table as JSON" }, verboseOption,
    helpOption]
  operand := some { name := "TABLE", about := "Table file" }

/-- The command `platform`, which only has subcommands. -/
def platformInterface : Interface where
  name := s!"{programName} platform"
  about := "Manage platform override files"
  options := [verboseOption, helpOption]
  subcommands := [
    ("template", "Print a template .platform.toml"),
    ("validate", "Validate a .platform.toml"),
    helpCommand]

/-- The command `platform template`. -/
def templateInterface : Interface where
  name := s!"{programName} platform template"
  about := "Print a template .platform.toml"
  options := [outputOption "Write to a file instead of stdout", verboseOption, helpOption]
  operand := some { name := "NAME", isPath := false, about := "Platform name" }

/-- The command `platform validate`. -/
def validateInterface : Interface where
  name := s!"{programName} platform validate"
  about := "Validate a .platform.toml"
  options := [verboseOption, helpOption]
  operand := some { name := "FILE", about := "Platform file" }

/-- The command `help` among the subcommands of another. -/
def helpInterface (parent : Interface) : Interface where
  name := s!"{parent.name} {helpCommand.1}"
  about := helpCommand.2
  options := []
  operand := some
    { name := "COMMAND", isPath := false, isRepeatable := true,
      about := "Print help for the subcommand(s)" }

/-! ## Reading the arguments -/

/-- What is told about arguments that make no sense. -/
def usageText (interface : Interface) : String :=
  s!"error: invalid arguments\n\nUsage: {interface.name} [OPTIONS]\n\n" ++
    "For more information, try '--help'.\n"

/-- Reads the arguments of an interface, and goes on with what was found. -/
def within (interface : Interface) (args : List String) (next : Findings → Request) : Request :=
  match interface.scan {} args with
  | .ok found => next found
  | .error .help => .answer interface.help
  | .error .version => .answer s!"{programName} {programVersion}\n"
  | .error .misuse => .misuse (usageText interface)

/-- What is told where a subcommand is missing: the help page if there are no arguments at all. -/
def withoutSubcommand (interface : Interface) (args : List String) : Request :=
  .misuse (if args = [] then interface.help else usageText interface)

/-- The help page for a list of subcommands, one below the other. -/
def helpFor : List String → Request
  | [] => .answer programInterface.help
  | ["build"] => .answer buildInterface.help
  | ["resolve"] => .answer resolveInterface.help
  | ["inspect"] => .answer inspectInterface.help
  | ["help"] => .answer (helpInterface programInterface).help
  | ["platform"] => .answer platformInterface.help
  | ["platform", "template"] => .answer templateInterface.help
  | ["platform", "validate"] => .answer validateInterface.help
  | ["platform", "help"] => .answer (helpInterface platformInterface).help
  | _ => .misuse (usageText programInterface)

/-- Reads the arguments of a leaf command. -/
def leaf (interface : Interface) (args : List String) (make : Findings → Command) : Request :=
  within interface args fun found => .command (make found)

/-- The value of an option that must have been given. -/
def Findings.valueOf (found : Findings) (long : String) : String :=
  (found.values.lookup long).getD ""

/-- The request of `platform` and its arguments. -/
def platformRequest (args : List String) : Request :=
  within platformInterface args fun found =>
    match found.subcommand with
    | some ("template", rest) => leaf templateInterface rest fun found =>
        .template (found.operand.getD "") (found.values.lookup "output")
    | some ("validate", rest) => leaf validateInterface rest fun found =>
        .validate (found.operand.getD "")
    | some (_, rest) => helpFor ("platform" :: rest)
    | none => withoutSubcommand platformInterface args

/-- The request that the arguments of the program make. -/
def ofArguments (args : List String) : Request :=
  within programInterface args fun found =>
    match found.subcommand with
    | some ("build", rest) => leaf buildInterface rest fun found =>
        .build (Findings.valueOf found "dtb") (found.values.lookup "platform")
          (found.values.lookup "output")
    | some ("resolve", rest) => leaf resolveInterface rest fun found =>
        .resolve (Findings.valueOf found "dtb") (found.flags.contains "json")
    | some ("inspect", rest) => leaf inspectInterface rest fun found =>
        .inspect (found.operand.getD "") (found.flags.contains "json")
    | some ("platform", rest) => platformRequest rest
    | some (_, rest) => helpFor rest
    | none => withoutSubcommand programInterface args

end Request
end RiscvTables
