import TypedClient.Text.Split

/-!
# Media types

A media type is a type and a subtype with an optional structured-syntax suffix
and parameters: `application/problem+json; charset=utf-8`. Only the subtype and
the suffix decide which format a body has. How a text is split into them is a
parameter of the two readers.
-/

namespace TypedClient

open Text

/-- The naming parts of a media type, in the case they were written in. -/
structure MediaType where
  type : String
  subtype : String
  suffixName : Option String
  deriving DecidableEq, Repr

/-- The formats an API document comes in. -/
inductive DocumentFormat where
  | json
  | yaml
  deriving DecidableEq, Repr

namespace MediaType

/-- The characters of a restricted name. -/
def isRestrictedChar (c : Char) : Bool :=
  c.isAlphanum || "!#$&-^_.+%*'".toList.contains c

/-- A restricted name has at most 127 characters and starts with a letter, a
digit or an asterisk. -/
def isRestrictedName (name : List Char) : Bool :=
  name.all isRestrictedChar && name.length ≤ 127 &&
    name.head?.any fun c => c.isAlphanum || c == '*'

/-- Blanks around parameters. -/
def isPadding (c : Char) : Bool :=
  c == ' ' || c == '\t'

/-- The text after a quoted parameter value, for a text that follows the opening
quote. The value must close before a line feed. -/
def afterQuoted? : List Char → Option (List Char)
  | [] => none
  | '\\' :: _ :: rest => afterQuoted? rest
  | c :: rest =>
      if c == '"' then some rest
      else if c == '\n' then none
      else afterQuoted? rest

/-- The text after a parameter value, quoted or bare. -/
def afterValue? : List Char → Option (List Char)
  | '"' :: rest => afterQuoted? rest
  | text => some (text.dropWhile isRestrictedChar)

/-- Whether a text is a well-formed list of parameters. Each round consumes at
least the semicolon, so `rounds` never runs out when it is the text's length. -/
def parametersValid (rounds : Nat) (text : List Char) : Bool :=
  match rounds with
  | 0 => text.all isPadding
  | rounds + 1 =>
      match cutAtChar? ';' text with
      | none => text.all isPadding
      | some (before, after) =>
          if !before.all isPadding then
            false
          else if after.all isPadding then
            true
          else
            match cutAtChar? '=' after with
            | none => false
            | some (name, value) =>
                isRestrictedName (name.dropWhile isPadding) &&
                  match afterValue? value with
                  | none => false
                  | some rest => parametersValid rounds rest

/-- Splits a text at its last plus sign. -/
def cutAtLastPlus? (text : List Char) : Option (List Char × List Char) :=
  (cutAtChar? '+' text.reverse).map fun (after, before) => (before.reverse, after.reverse)

/-- The subtype, the suffix and the characters that are left to be read as
parameters, for the run of restricted characters after the slash. A suffix is
judged without its first character, so one of a single character is refused. -/
def splitSuffix? (run : List Char) : Option (List Char × Option (List Char) × List Char) :=
  match cutAtLastPlus? run with
  | none => some (run, none, [])
  | some (subtype, []) => some (subtype, none, ['+'])
  | some (subtype, first :: suffix) =>
      if isRestrictedName suffix then some (subtype, some (first :: suffix), []) else none

/-- Reads a media type. -/
def parse? (text : String) : Option MediaType := do
  let (type, rest) ← cutAtChar? '/' text.toList
  guard (isRestrictedName type)
  let run := rest.takeWhile isRestrictedChar
  let tail := rest.dropWhile isRestrictedChar
  let (subtype, suffix, left) ← splitSuffix? run
  guard (isRestrictedName subtype)
  guard (parametersValid text.length (left ++ tail))
  return ⟨String.ofList type, String.ofList subtype, suffix.map String.ofList⟩

def equalsIgnoringCase (left right : String) : Bool :=
  left.toList.map Char.toLower == right.toList.map Char.toLower

end MediaType

/-- The splitting of a text into the parts of a media type. -/
class MediaTypeParser where
  parse? : String → Option MediaType

/-- The splitting by the grammar of media types. -/
@[reducible]
def MediaTypeParser.ofGrammar : MediaTypeParser :=
  ⟨MediaType.parse?⟩

variable [MediaTypeParser]

/-- Whether a body of this media type is JSON: the subtype or the suffix is
`json`, in any case. -/
def isJsonMediaType (text : String) : Bool :=
  match MediaTypeParser.parse? text with
  | none => false
  | some media =>
      MediaType.equalsIgnoringCase media.subtype "json" ||
        media.suffixName.any fun suffix => MediaType.equalsIgnoringCase suffix "json"

namespace DocumentFormat

/-- The format a server announces for a document. The names are compared exactly,
in lower case. -/
def ofContentType? (contentType : String) : Option DocumentFormat :=
  match MediaTypeParser.parse? contentType with
  | none => none
  | some media =>
      if media.subtype == "yaml" || media.subtype == "x-yaml" then
        some .yaml
      else if media.subtype == "json" || media.suffixName == some "json" then
        some .json
      else
        none

end DocumentFormat

end TypedClient
