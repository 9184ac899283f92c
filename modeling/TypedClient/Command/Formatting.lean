import TypedClient.Command.Configuration

/-!
# Formatting the generated code

Code is laid out by the library itself or by another program, which is given the code as
its input and answers with the formatted code.
-/

namespace TypedClient.Command

open Text

/-- How the other program is told to format. -/
def prettierArguments (ending : LineEnding) : List String :=
  ["--parser", "typescript", "--no-semi", "--single-quote", "--print-width", "80",
    "--tab-width", "2", "--trailing-comma", "none", "--end-of-line", ending.name]

/-- The text that a program answers with, if it succeeds. -/
def ProgramResult.text (result : ProgramResult) : Except FormattingFault String :=
  if result.succeeded then
    (Utf8.decode result.output).mapError .notText
  else
    .error (.unsuccessful (Utf8.decodeLossy result.errors))

variable {m : Type → Type} [Monad m]

def Formatter.format (host : Host m) (ending : LineEnding) (formatter : Formatter)
    (code : String) : m (Except FormattingFault String) :=
  match formatter with
  | .builtin => pure (.ok (Layout.normalize ending code))
  | .prettier program => do
      match ← host.runProgram program (prettierArguments ending) code with
      | .error error => pure (.error (.notStarted program error))
      | .ok result => pure result.text

end TypedClient.Command
