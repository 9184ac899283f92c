import TypedClient.Text.Blank
import TypedClient.Text.Lines

/-!
# Comments in generated code

Document text goes into block comments. Wherever it would end the comment, a
backslash is put between the star and the slash.
-/

namespace TypedClient.Comment

open Text

/-- Document text without the end of a comment in it. -/
def neutralize : List Char → List Char
  | '*' :: '/' :: rest => '*' :: '\\' :: '/' :: neutralize rest
  | c :: rest => c :: neutralize rest
  | [] => []

/-- The lines of a text as they stand in a comment; a blank text has none. -/
def textLines (text : String) : List (List Char) :=
  (lines (trimChars text.toList)).map fun line => neutralize (trimEndChars line)

/-- The sections of the comment above a method: its summary, its description, and
the mark of a deprecated one. -/
def sections (summary description : Option String) (deprecated : Bool) :
    List (List (List Char)) :=
  ((summary.toList ++ description.toList).map textLines).filter (fun part =>
      !part.isEmpty) ++
    if deprecated then [["@deprecated".toList]] else []

def indent : List Char := "  ".toList

/-- A line inside an indented comment. -/
def innerLine (line : List Char) : List Char :=
  if line.isEmpty then
    indent ++ " *\n".toList
  else
    indent ++ " * ".toList ++ line ++ ['\n']

/-- An indented comment with an empty line between sections. Without sections
there is no comment. -/
def blockOf (parts : List (List (List Char))) : List Char :=
  if parts.isEmpty then
    []
  else
    indent ++ "/**\n".toList ++ (List.intercalate [[]] parts).flatMap innerLine ++ indent ++
      " */\n".toList

/-- The comment above a method. -/
def ofMethod (summary description : Option String) (deprecated : Bool) : String :=
  String.ofList (blockOf (sections summary description deprecated))

end TypedClient.Comment
