import TypedClient.Command.Host
import TypedClient.Document.Basic
import TypedClient.Declaration.NameTable
import TypedClient.Text.Lines
import TypedClient.Text.Split
import TypedClient.Text.Utf8

/-!
# Failures of a run

Why a run stops before its end. A failure has a message and the causes behind it, the
nearest first.
-/

namespace TypedClient.Command

open Text

/-- Why a file could not be formatted by another program. -/
inductive FormattingFault where
  | notStarted (program : String) (error : SystemError)
  | unsuccessful (errors : String)
  | notText (fault : Utf8.Fault)
  deriving DecidableEq, Repr

/-- What the fault says, the outermost message first. -/
def FormattingFault.messages : FormattingFault → List String
  | notStarted program error => ["failed to start " ++ program, error.message]
  | unsuccessful errors => ["prettier failed: " ++ errors]
  | notText fault => [fault.message]

/-- What is told of a request that ends at a stage, up to the address. -/
def RequestStage.message : RequestStage → String
  | connection => "failed to fetch "
  | status => "server rejected request for "
  | body => "failed to read response body from "

inductive Failure where
  | contradictoryVerbosity
  | blankInput
  | blankDefaultTag
  | unreadableFile (path : String) (error : SystemError)
  | notFetched (address : String) (fault : RequestFault)
  | load (error : LoadError)
  | unboundOperation (error : UnboundOperation)
  | formatting (file : String) (fault : FormattingFault)
  | directoryNotCreated (path : String) (error : SystemError)
  | presenceUnknown (path : String) (error : SystemError)
  | fileNotWritten (path : String) (error : SystemError)
  deriving DecidableEq, Repr

namespace Failure

def message : Failure → String
  | contradictoryVerbosity => "--verbose and --quiet cannot be used together"
  | blankInput => "Input (-i) must be a URL or a file path"
  | blankDefaultTag => "--default-tag must not be empty"
  | unreadableFile path _ => "failed to read " ++ path
  | notFetched address fault => fault.stage.message ++ address
  | load error => error.message
  | unboundOperation error => error.message
  | formatting file _ => "failed to format " ++ file
  | directoryNotCreated path _ => "failed to create " ++ path
  | presenceUnknown path _ => "failed to check " ++ path
  | fileNotWritten path _ => "failed to write " ++ path

/-- The causes of a failure. A file that cannot be read is reported by the path, by the
kind of the error and once more by the error itself. -/
def causes : Failure → List String
  | contradictoryVerbosity => []
  | blankInput => []
  | blankDefaultTag => []
  | unreadableFile path error =>
      let cause := "IO error: " ++ error.message
      [path ++ ": unable to open file: " ++ error.message, cause, cause]
  | notFetched _ fault => fault.causes
  | load (.json error) => [error.message]
  | load _ => []
  | unboundOperation _ => []
  | formatting _ fault => fault.messages
  | directoryNotCreated _ error => [error.message]
  | presenceUnknown _ error => [error.message]
  | fileNotWritten _ error => [error.message]

/-- The message and the causes on one line, as far as they have no lines themselves. -/
def summary (failure : Failure) : String :=
  String.intercalate ": " (failure.message :: failure.causes)

/-- A text whose first line follows a mark and whose other lines follow an indent. -/
def indented (mark indent : String) (text : String) : String :=
  mark ++ String.intercalate ("\n" ++ indent) ((splitAtChar '\n' text.toList).map String.ofList)

/-- The number of a cause, with the room that numbers of five digits need. -/
def causeMark (number : Nat) : String :=
  let digits := toString number
  String.ofList (List.replicate (5 - digits.length) ' ') ++ digits ++ ": "

/-- The lines that list the causes. A single cause has no number. -/
def causeLines : List String → List String
  | [cause] => [indented "    " "    " cause]
  | causes => causes.zipIdx.map fun (cause, number) => indented (causeMark number) "       " cause

/-- What a user is told: the message, and below it the causes. -/
def report (failure : Failure) : String :=
  "Error: " ++ failure.message ++
    match failure.causes with
    | [] => ""
    | causes => "\n\nCaused by:\n" ++ String.intercalate "\n" (causeLines causes)

end Failure

end TypedClient.Command
