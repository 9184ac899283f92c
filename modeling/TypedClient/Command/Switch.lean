import TypedClient.Command.Palette
import TypedClient.Layout

/-!
# Switches

The command line has levels, one below the other by the names of subcommands. Each
level has switches of its own, which start with a dash and may take a value.
-/

namespace TypedClient.Command

inductive Level where
  | program
  | list
  | operations
  | generate
  deriving DecidableEq, Repr

/-- The level that a subcommand leads to. -/
def Level.below? : Level → String → Option Level
  | .program, "list" => some .list
  | .program, "generate" => some .generate
  | .list, "operations" => some .operations
  | _, _ => none

/-- Whether a level is nothing without a subcommand. -/
def Level.hasSubcommands : Level → Bool
  | .program => true
  | .list => true
  | .operations => false
  | .generate => false

/-- Which program lays out the generated code. -/
inductive FormatterKind where
  | builtin
  | prettier
  deriving DecidableEq, Repr

def FormatterKind.ofName? : String → Option FormatterKind
  | "builtin" => some .builtin
  | "prettier" => some .prettier
  | _ => none

inductive Switch where
  | color
  | theme
  | root
  | input
  | outDir
  | defaultTag
  | formatter
  | prettierBin
  | lineEnding
  | verbose
  | quiet
  | help
  | version
  deriving DecidableEq, Repr

namespace Switch

/-- The name after two dashes. -/
def long : Switch → String
  | color => "color"
  | theme => "theme"
  | root => "root"
  | input => "input"
  | outDir => "out-dir"
  | defaultTag => "default-tag"
  | formatter => "formatter"
  | prettierBin => "prettier-bin"
  | lineEnding => "line-ending"
  | verbose => "verbose"
  | quiet => "quiet"
  | help => "help"
  | version => "version"

/-- The letter after one dash. -/
def short? : Switch → Option Char
  | root => some 'r'
  | input => some 'i'
  | outDir => some 'o'
  | verbose => some 'v'
  | quiet => some 'q'
  | help => some 'h'
  | version => some 'V'
  | _ => none

def takesValue : Switch → Bool
  | verbose => false
  | quiet => false
  | help => false
  | version => false
  | _ => true

/-- The values that a switch accepts: one of a few names, a path, which is not empty,
or any text. -/
def accepts : Switch → String → Bool
  | color, value => (ColorMode.ofName? value).isSome
  | theme, value => (ThemeMode.ofName? value).isSome
  | formatter, value => (FormatterKind.ofName? value).isSome
  | lineEnding, value => (LineEnding.ofName? value).isSome
  | root, value => !value.isEmpty
  | outDir, value => !value.isEmpty
  | prettierBin, value => !value.isEmpty
  | _, _ => true

end Switch

/-- The switches of a level. Colors may be chosen at every level. -/
def Level.switches : Level → List Switch
  | .program => [.color, .theme, .help, .version]
  | .list => [.color, .theme, .help]
  | .operations => [.input, .defaultTag, .color, .theme, .help]
  | .generate =>
      [.root, .input, .outDir, .defaultTag, .formatter, .prettierBin, .lineEnding, .verbose,
        .quiet, .color, .theme, .help]

def Level.long? (level : Level) (name : List Char) : Option Switch :=
  level.switches.find? fun switch => switch.long.toList == name

def Level.short? (level : Level) (letter : Char) : Option Switch :=
  level.switches.find? fun switch => switch.short? == some letter

end TypedClient.Command
