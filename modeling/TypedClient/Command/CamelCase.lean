/-!
# Camel case

Spaces, hyphens and underscores separate words. The character after a separator
is raised, and a character is lowered unless it follows a lower-case letter, so
that `user-ID` becomes `userId` and `fooBar` stays as it is. The program runs with this
camel case. Nothing that is proved of the program rests on it.
-/

namespace TypedClient.Command

/-- The characters that separate two words. -/
def isWordSeparator (c : Char) : Bool :=
  c == ' ' || c == '-' || c == '_'

/-- Camel-cases the rest of a text. `raise` asks for the next character to be
raised, and `previous` is the character before it, separators included. A
separator that has to be raised stays in the text. -/
def camelCaseFrom (raise : Bool) (previous : Option Char) : List Char → List Char
  | [] => []
  | c :: rest =>
      if raise then
        c.toUpper :: camelCaseFrom false (some c) rest
      else if isWordSeparator c then
        camelCaseFrom true (some c) rest
      else if previous.any Char.isLower then
        c :: camelCaseFrom false (some c) rest
      else
        c.toLower :: camelCaseFrom false (some c) rest

/-- The camel-cased form of an ASCII text. -/
def camelCase (text : List Char) : List Char :=
  camelCaseFrom false none text

end TypedClient.Command
