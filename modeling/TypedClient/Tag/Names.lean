import TypedClient.Identifier
import TypedClient.Text.Blank

/-!
# Names of a tag

A tag gives its name to a module file, to the class in it and to the instance of
that class. All three are made from one identifier.
-/

namespace TypedClient

/-- The names of a tag, by the identifier they are made from. -/
structure TagNames where
  base : String
  deriving DecidableEq, Repr

namespace TagNames

open Text

variable [Conversions]

/-- The identifier for a trimmed tag. -/
def baseChars (tag : List Char) : List Char :=
  if Identifier.validChars tag then
    tag
  else
    match Identifier.camelIdentifier tag with
    | [] => ['_']
    | camel => Identifier.guardChars camel

/-- The names of a tag, before clashes with other tags are considered. -/
def ofTag (tag : String) : TagNames :=
  ⟨String.ofList (baseChars (trimChars tag.toList))⟩

/-- The names with a number appended to the identifier. -/
def numbered (names : TagNames) (number : Nat) : TagNames :=
  ⟨names.base ++ toString number⟩

/-- The name of the module file, without its extension. -/
def fileStem (names : TagNames) : String :=
  names.base

/-- The name of the class: the identifier with its first letter raised. -/
def className (names : TagNames) : String :=
  match names.base.toList with
  | [] => ""
  | first :: rest => String.ofList (first.toUpper :: rest)

def instanceSuffix : String := "Api"

/-- The name of the exported instance. -/
def instanceName (names : TagNames) : String :=
  names.base ++ instanceSuffix

/-- The key that two tags must not share: file names must differ even where the
case of letters does not count. -/
def clashKey (names : TagNames) : String :=
  String.ofList (names.base.toList.map Char.toLower)

end TagNames

end TypedClient
