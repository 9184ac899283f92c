import TypedClient.Text.Conversions
import TypedClient.Text.LetterCase
import TypedClient.Text.Quoted

/-!
# TypeScript identifiers

Document text becomes an identifier in one of three ways: as a fragment of a
declaration name, where every foreign character turns into an underscore; as a
run of capitalized words in a method name; or as an argument name, which keeps a
valid identifier as written and camel-cases anything else.
-/

namespace TypedClient.Identifier

open Text

variable [Conversions]

/-- The letters, the dollar sign and the underscore, in ASCII. -/
def isStart (c : Char) : Bool :=
  c.isAlpha || c == '_' || c == '$'

/-- What may follow the first character of an identifier. -/
def isPart (c : Char) : Bool :=
  c.isAlphanum || c == '_' || c == '$'

def validChars : List Char → Bool
  | [] => false
  | first :: rest => isStart first && rest.all isPart

/-- Whether a text is an ASCII identifier as it stands. -/
def isValid (text : String) : Bool :=
  validChars text.toList

/-- Words that cannot name a parameter: the reserved words of the language, and
the arguments that every generated signature binds itself. -/
def reservedWords : List String :=
  ["break", "case", "catch", "class", "const", "continue", "debugger", "default", "delete",
    "do", "else", "enum", "export", "extends", "false", "finally", "for", "function", "if",
    "import", "in", "instanceof", "new", "null", "return", "super", "switch", "this", "throw",
    "true", "try", "typeof", "var", "void", "while", "with", "let", "static", "yield", "await",
    "implements", "interface", "package", "private", "protected", "public", "params", "data",
    "axiosConfig"]

/-- A fragment of a declaration name from an ASCII text. -/
def fragmentOfAscii (ascii : List Char) : List Char :=
  match ascii.map fun c => if isPart c then c else '_' with
  | [] => ['_']
  | replaced => replaced

/-- A fragment of a declaration name. It is never empty, and it may start with a
digit because a family name always precedes it. -/
def fragment (text : String) : String :=
  String.ofList (fragmentOfAscii (Conversions.toAscii text.toList))

/-- A property name as it is written in an interface. -/
def propertyKey (name : String) : String :=
  if isValid name then name else singleQuoted name

/-- The words of an ASCII text, each with its first character raised. -/
def pascalFrom (atWordStart : Bool) : List Char → List Char
  | [] => []
  | c :: rest =>
      if c.isAlphanum then
        (if atWordStart then c.toUpper else c) :: pascalFrom false rest
      else
        pascalFrom true rest

/-- The words of a text, joined and capitalized: `user-profiles` gives
`UserProfiles`. -/
def pascalWords (text : List Char) : List Char :=
  pascalFrom true (Conversions.toAscii text)

/-- An underscore is put before a leading digit and before a reserved word. -/
def guardChars (candidate : List Char) : List Char :=
  if candidate.head?.any Char.isDigit || reservedWords.contains (String.ofList candidate) then
    '_' :: candidate
  else
    candidate

/-- The camel-cased text without the characters an identifier cannot hold. -/
def camelIdentifier (text : List Char) : List Char :=
  (Conversions.toCamelCase (Conversions.toAscii text)).filter isPart

def argumentNameChars (name : List Char) : List Char :=
  if validChars name then
    guardChars name
  else
    match camelIdentifier name with
    | [] => "param".toList
    | cleaned => guardChars cleaned

/-- The argument that a path parameter is passed in. -/
def argumentName (name : String) : String :=
  String.ofList (argumentNameChars name.toList)

end TypedClient.Identifier
