import TypedClient.Command.Arguments

/-!
# Messages about the command line

What a user is told who asks for help or for the version, or whose command line names
no command.
-/

namespace TypedClient.Command

def programName : String := "oas3-tsgen"
def programVersion : String := "0.4.0"

def versionText : String :=
  programName ++ " " ++ programVersion

/-- The words that lead to a level. -/
def Level.words : Level → String
  | .program => programName
  | .list => programName ++ " list"
  | .operations => programName ++ " list operations"
  | .generate => programName ++ " generate"

/-- The names of the subcommands of a level, with what they are for. -/
def Level.subcommands : Level → List (String × String)
  | .program =>
      [("list", "List information from an OpenAPI document"),
        ("generate", "Generate TypeScript client modules from an OpenAPI document")]
  | .list => [("operations", "List all operations with the client method names they generate")]
  | _ => []

/-- What a switch is for. -/
def Switch.purpose : Switch → String
  | color => "Control color output"
  | theme => "Terminal theme (dark or light background)"
  | root => "Project root the output directory is resolved against"
  | input => "URL or path of the OpenAPI document (JSON or YAML)"
  | outDir => "Output directory, relative to the project root"
  | defaultTag => "Tag assigned to operations that declare none"
  | formatter => "Formatter applied to generated sources"
  | prettierBin => "Prettier executable used with `--formatter prettier`"
  | lineEnding => "Line endings of the generated files"
  | verbose => "Enable verbose output with detailed progress information"
  | quiet => "Suppress non-essential output (errors only)"
  | help => "Print help"
  | version => "Print version"

/-- How a switch is written. -/
def Switch.form (switch : Switch) : String :=
  (match switch.short? with
    | some letter => String.ofList ['-', letter] ++ ", "
    | none => "    ") ++ "--" ++ switch.long

/-- What a user is told who asks for help. -/
def Level.help (level : Level) : String :=
  let subcommands := level.subcommands.map fun (name, purpose) => "  " ++ name ++ "  " ++ purpose
  let switches := level.switches.map fun switch => "  " ++ switch.form ++ "  " ++ switch.purpose
  String.intercalate "\n"
    (("Usage: " ++ level.words ++ " [OPTIONS]" ++
        (if subcommands.isEmpty then "" else " <COMMAND>")) ::
      (if subcommands.isEmpty then [] else "" :: "Commands:" :: subcommands) ++
      "" :: "Options:" :: switches)

namespace UsageError

def message : UsageError → String
  | helpWanted level => level.help
  | versionWanted => versionText
  | nothingGiven level => level.help
  | missingSubcommand level => "error: '" ++ level.words ++ "' requires a subcommand"
  | unknownSubcommand name => "error: unrecognized subcommand '" ++ name ++ "'"
  | unknownArgument word => "error: unexpected argument '" ++ word ++ "' found"
  | repeatedSwitch switch => "error: '--" ++ switch.long ++ "' cannot be used multiple times"
  | unexpectedValue switch => "error: '--" ++ switch.long ++ "' takes no value"
  | invalidValue switch => "error: '--" ++ switch.long ++ "' requires a valid value"
  | missingSwitch switch => "error: '--" ++ switch.long ++ "' is required"

/-- Whether the user gets what the command line asks for. -/
def isAnswer : UsageError → Bool
  | helpWanted _ => true
  | versionWanted => true
  | _ => false

end UsageError

end TypedClient.Command
