import TypedClient.Command.Arguments
import TypedClient.Generation

/-!
# Invocations

What a command line asks for, with the defaults of everything that it leaves out.
-/

namespace TypedClient.Command

def defaultInput : String := "http://localhost:3000/api-json"
def defaultOutDir : String := "src/_api"

/-- What `generate` is given. -/
structure GenerateArguments where
  root : String
  input : String
  outDir : String
  defaultTag : String
  formatter : FormatterKind
  prettierBin : String
  lineEnding : LineEnding
  verbose : Bool
  quiet : Bool
  deriving DecidableEq, Repr

/-- What `list operations` is given. -/
structure ListArguments where
  input : String
  defaultTag : String
  deriving DecidableEq, Repr

inductive Request where
  | list (arguments : ListArguments)
  | generate (arguments : GenerateArguments)
  deriving DecidableEq, Repr

/-- A request with the choice of colors. -/
structure Invocation where
  color : ColorMode
  theme : ThemeMode
  request : Request
  deriving DecidableEq, Repr

/-- The value of a switch, or its default. -/
def Given.value (given : Given) (switch : Switch) (default : String) : String :=
  (given.lookup switch).getD default

def Given.has (given : Given) (switch : Switch) : Bool :=
  (given.lookup switch).isSome

/-- The value of a switch as one of a few choices. -/
def Given.choice {α : Type} (given : Given) (switch : Switch) (ofName? : String → Option α)
    (default : α) : α :=
  ((given.lookup switch).bind ofName?).getD default

def GenerateArguments.ofGiven (given : Given) : GenerateArguments where
  root := given.value .root "."
  input := given.value .input defaultInput
  outDir := given.value .outDir defaultOutDir
  defaultTag := given.value .defaultTag TypedClient.defaultTag
  formatter := given.choice .formatter FormatterKind.ofName? .builtin
  prettierBin := given.value .prettierBin "prettier"
  lineEnding := given.choice .lineEnding LineEnding.ofName? .lf
  verbose := given.has .verbose
  quiet := given.has .quiet

/-- The request of the lowest level. A level with subcommands makes none by itself. -/
def Request.ofGiven (level : Level) (given : Given) : Except UsageError Request :=
  match level with
  | .program =>
      .error (if given.isEmpty then .nothingGiven .program else .missingSubcommand .program)
  | .list => .error (if given.isEmpty then .nothingGiven .list else .missingSubcommand .list)
  | .operations =>
      match given.lookup .input with
      | some input => .ok (.list ⟨input, given.value .defaultTag TypedClient.defaultTag⟩)
      | none => .error (.missingSwitch .input)
  | .generate => .ok (.generate (.ofGiven given))

/-- What the lowest level says that gives a switch. -/
def lowestGiven (levels : List Given) (switch : Switch) : Given :=
  levels.reverse.find? (·.has switch) |>.getD []

/-- The invocation that the words of a command line spell. -/
def Invocation.ofArguments (arguments : List String) : Except UsageError Invocation := do
  let (request, levels) ← readLevel Request.ofGiven .program .start arguments
  return {
    color := (lowestGiven levels .color).choice .color ColorMode.ofName? .auto
    theme := (lowestGiven levels .theme).choice .theme ThemeMode.ofName? .auto
    request }

end TypedClient.Command
