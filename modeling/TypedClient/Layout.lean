import TypedClient.Text.Blank
import TypedClient.Text.Lines

/-!
# The layout of source text

Lines lose their trailing blanks, runs of empty lines become one, and the text
starts with a line that is not empty and ends with exactly one line ending.
-/

namespace TypedClient

inductive LineEnding where
  | lf
  | crlf
  deriving DecidableEq, Repr

def LineEnding.text : LineEnding → String
  | lf => "\n"
  | crlf => "\r\n"

/-- What a user calls a line ending. -/
def LineEnding.name : LineEnding → String
  | lf => "lf"
  | crlf => "crlf"

def LineEnding.ofName? : String → Option LineEnding
  | "lf" => some .lf
  | "crlf" => some .crlf
  | _ => none

namespace Layout

open Text

/-- Leaves out the empty lines that follow an empty line. -/
def collapse (afterEmpty : Bool) : List (List Char) → List (List Char)
  | [] => []
  | line :: rest =>
      if line.isEmpty && afterEmpty then
        collapse afterEmpty rest
      else
        line :: collapse line.isEmpty rest

/-- Leaves out the empty lines at the end. -/
def dropFinalEmpty (lines : List (List Char)) : List (List Char) :=
  (lines.reverse.dropWhile List.isEmpty).reverse

/-- The lines of a text in their normal form. -/
def normalLines (text : List Char) : List (List Char) :=
  dropFinalEmpty (collapse true ((lines text).map trimEndChars))

/-- A text in its normal layout. -/
def normalize (ending : LineEnding) (text : String) : String :=
  String.intercalate ending.text ((normalLines text.toList).map String.ofList) ++ ending.text

end Layout

end TypedClient
