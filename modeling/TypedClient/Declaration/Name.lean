import TypedClient.Identifier

/-!
# Declaration names

A name is kept apart into its family, its owner and the property keys that lead
from the owner to the declared shape. A component schema owns its names as they
are; an operation owns names that can be written only once it has a method name.
-/

namespace TypedClient

/-- What a declaration is for: a component schema, or the body, the response or
the query of an operation. -/
inductive NameFamily where
  | dto
  | body
  | response
  | query
  deriving DecidableEq, Repr

namespace NameFamily

/-- The word that starts the identifiers of a family. -/
def word : NameFamily → String
  | dto => "Dto"
  | body => "Body"
  | response => "Res"
  | query => "Query"

end NameFamily

inductive NameOwner where
  | schema (name : String)
  | operation (key : Nat)
  deriving DecidableEq, Repr

structure DeclarationName where
  family : NameFamily
  owner : NameOwner
  keys : List String
  deriving DecidableEq, Repr

namespace DeclarationName

variable [Text.Conversions]

/-- The name of a component schema. -/
def ofSchema (schema : String) : DeclarationName :=
  ⟨.dto, .schema schema, []⟩

/-- The name of the body, the response or the query of an operation. -/
def ofOperation (family : NameFamily) (key : Nat) : DeclarationName :=
  ⟨family, .operation key, []⟩

/-- The name of the shape below a property. -/
def child (name : DeclarationName) (key : String) : DeclarationName :=
  { name with keys := name.keys ++ [key] }

def isRoot (name : DeclarationName) : Bool :=
  name.keys.isEmpty

/-- The identifier with the owner given as text. -/
def identifierFor (name : DeclarationName) (owner : String) : String :=
  String.intercalate "_" (name.family.word :: owner :: name.keys.map Identifier.fragment)

/-- The identifier of a name owned by a schema, before any name is changed to keep
it apart from another. -/
def defaultIdentifier? (name : DeclarationName) : Option String :=
  match name.owner with
  | .schema schema => some (name.identifierFor (Identifier.fragment schema))
  | .operation _ => none

end DeclarationName

end TypedClient
