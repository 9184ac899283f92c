import TypedClient.Command.Failure
import TypedClient.Command.Invocation
import TypedClient.DocumentSource

/-!
# The configuration of `generate`

The arguments of `generate` once they are known to fit together.
-/

namespace TypedClient.Command

open Text

/-- The program that lays out the generated code. -/
inductive Formatter where
  | builtin
  | prettier (program : String)
  deriving DecidableEq, Repr

def FormatterKind.formatter (kind : FormatterKind) (program : String) : Formatter :=
  match kind with
  | .builtin => .builtin
  | .prettier => .prettier program

structure Configuration where
  source : DocumentSource
  outputDirectory : String
  options : GenerationOptions
  formatter : Formatter
  lineEnding : LineEnding
  verbose : Bool
  quiet : Bool
  deriving DecidableEq, Repr

/-- The configuration that arguments describe, or the first thing wrong with them. -/
def Configuration.ofArguments (arguments : GenerateArguments) : Except Failure Configuration :=
  if arguments.verbose && arguments.quiet then
    .error .contradictoryVerbosity
  else if isBlankText arguments.input then
    .error .blankInput
  else if isBlankText arguments.defaultTag then
    .error .blankDefaultTag
  else
    .ok {
      source := .ofInput arguments.input
      outputDirectory := FilePath.join arguments.root arguments.outDir
      options := ⟨trim arguments.defaultTag, defaultTransportModule, defaultResponseModule⟩
      formatter := arguments.formatter.formatter arguments.prettierBin
      lineEnding := arguments.lineEnding
      verbose := arguments.verbose
      quiet := arguments.quiet }

end TypedClient.Command
