import RiscvTables.Text.Numeral

/-!
# Command lines

An `Interface` declares what a command takes: options, at most one operand, or subcommands of its
own.  From the declaration follow both how arguments are read (`Interface.scan`) and the help
page (`Interface.help`).

Arguments are read from left to right, and the first that is wrong, or that asks for help, ends
the reading.
-/

set_option autoImplicit false

namespace RiscvTables

/-- An option: `--long`, perhaps `-short`, perhaps with a value that is a path. -/
structure CommandOption where
  long : String
  short : Option Char := none
  value : Option String := none
  isRequired : Bool := false
  isRepeatable : Bool := false
  about : String
deriving DecidableEq

/-- An argument that stands for itself.  A command that takes any number of them, or none, reads
them itself; its interface only shows them. -/
structure Operand where
  name : String
  isPath : Bool := true
  isRepeatable : Bool := false
  about : String

/-- How a help page shows an operand. -/
def Operand.placeholder (operand : Operand) : String :=
  if operand.isRepeatable then s!"[{operand.name}]..." else s!"<{operand.name}>"

/-- What a command takes. -/
structure Interface where
  name : String
  about : String
  options : List CommandOption
  operand : Option Operand := none
  subcommands : List (String × String) := []

/-- What has been found on a command line. -/
structure Findings where
  /-- The names of the options without a value that were given. -/
  flags : List String := []
  /-- The values that were given, by the names of their options. -/
  values : List (String × String) := []
  operand : Option String := none
  /-- The subcommand, and the arguments behind it. -/
  subcommand : Option (String × List String) := none

/-- Why the reading of a command line ended early. -/
inductive Interruption where
  | help
  | version
  | misuse
deriving DecidableEq

namespace Interface

variable (interface : Interface)

/-! ## Reading arguments -/

/-- Whether an argument can only be an option. -/
def looksLikeOption (arg : String) : Bool :=
  arg.startsWith "-" && arg ≠ "-"

/-- The options that an argument names, in order, each with the value written in the same argument.
What names no option is `none`. -/
def mentions (arg : String) : List (Option (CommandOption × Option String)) :=
  match arg.toList with
  | '-' :: '-' :: body =>
    let (name, rest) := body.span (· ≠ '=')
    let attached := rest.tail? |>.map String.ofList
    [(interface.options.find? fun option => option.long = String.ofList name).map (·, attached)]
  | _ :: letters => cluster letters
  | [] => []
where
  /-- The options named by a run of letters.  What follows an option with a value is that value. -/
  cluster : List Char → List (Option (CommandOption × Option String))
    | [] => []
    | letter :: rest =>
      match interface.options.find? fun option => option.short = some letter with
      | none => [none]
      | some option =>
        if option.value.isSome then
          match rest with
          | [] => [some (option, none)]
          | '=' :: rest => [some (option, some (String.ofList rest))]
          | _ => [some (option, some (String.ofList rest))]
        else some (option, none) :: cluster rest

/-- Takes note of an option without a value. -/
def noteFlag (found : Findings) (option : CommandOption) : Except Interruption Findings :=
  if option.long = "help" then .error .help
  else if option.long = "version" then .error .version
  else if found.flags.contains option.long && !option.isRepeatable then .error .misuse
  else .ok { found with flags := option.long :: found.flags }

/-- Takes note of the value of an option: a path, which is never empty.  No option takes two. -/
def noteValue (found : Findings) (option : CommandOption) (value : String) :
    Except Interruption Findings :=
  if value = "" ∨ (found.values.lookup option.long).isSome then .error .misuse
  else .ok { found with values := (option.long, value) :: found.values }

/-- Takes note of the options that an argument names.  The last of them may still want a value from
the next argument. -/
def noteMentions (found : Findings) : List (Option (CommandOption × Option String)) →
    Except Interruption (Findings × Option CommandOption)
  | [] => .ok (found, none)
  | none :: _ => .error .misuse
  | some (option, attached) :: rest =>
    match option.value, attached with
    | none, some _ => .error .misuse
    | none, none => do noteMentions (← noteFlag found option) rest
    | some _, none => .ok (found, some option)
    | some _, some value => do noteMentions (← noteValue found option value) rest

/-- Takes note of an operand. -/
def noteOperand (found : Findings) (arg : String) : Except Interruption Findings :=
  match interface.operand, found.operand with
  | some operand, none =>
    if operand.isPath && arg = "" then .error .misuse else .ok { found with operand := some arg }
  | _, _ => .error .misuse

/-- Checks that no option and no operand is missing.  A missing subcommand is for the caller to
see. -/
def finish (found : Findings) : Except Interruption Findings :=
  let complete := interface.options.all fun option =>
    !option.isRequired || (found.values.lookup option.long).isSome
  if complete && (interface.operand.isNone || found.operand.isSome) then .ok found
  else .error .misuse

/-- Reads the arguments, on top of what has been found already. -/
def scan (found : Findings) : List String → Except Interruption Findings
  | [] => interface.finish found
  | "--" :: operands => do
    interface.finish (← operands.foldlM interface.noteOperand found)
  | arg :: rest =>
    if looksLikeOption arg then do
      match ← noteMentions found (interface.mentions arg) with
      | (found, none) => scan found rest
      | (found, some option) =>
        match rest with
        | value :: rest =>
          if looksLikeOption value then throw .misuse
          else scan (← noteValue found option value) rest
        | [] => throw .misuse
    else if (interface.subcommands.lookup arg).isSome then
      .ok { found with subcommand := some (arg, rest) }
    else do scan (← interface.noteOperand found arg) rest

/-! ## Help -/

/-- The first column of an option's line. -/
def optionColumn (option : CommandOption) : String :=
  let short := match option.short with
    | some letter => s!"-{letter}, "
    | none => "    "
  let value := match option.value with
    | some name => s!" <{name}>"
    | none => ""
  let dots := if option.isRepeatable then "..." else ""
  s!"{short}--{option.long}{value}{dots}"

/-- Lines of two columns under a heading. -/
def helpTable (title : String) (rows : List (String × String)) : String :=
  if rows.isEmpty then ""
  else
    let width := (rows.map fun row => row.1.length).foldl max 0
    s!"\n{title}:\n" ++ String.join (rows.map fun row =>
      s!"  {Numeral.padRight width row.1}  {row.2}\n")

/-- The help page. -/
def help : String :=
  let required := interface.options.filter (·.isRequired)
  let usage := String.join <|
    (if interface.options.isEmpty then [] else [" [OPTIONS]"]) ++
      required.map (fun option => s!" --{option.long} <{option.value.getD option.long}>") ++
      interface.operand.toList.map (fun operand => " " ++ operand.placeholder) ++
      (if interface.subcommands.isEmpty then [] else [" <COMMAND>"])
  s!"{interface.about}\n\nUsage: {interface.name}{usage}\n" ++
    helpTable "Commands" interface.subcommands ++
    helpTable "Arguments"
      (interface.operand.toList.map fun operand => (operand.placeholder, operand.about)) ++
    helpTable "Options" (interface.options.map fun option => (optionColumn option, option.about))

end Interface
end RiscvTables
