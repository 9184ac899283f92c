import TypedClient.Declaration.Basic
import TypedClient.HttpMethod

/-!
# Client methods

A client method is an operation with its types resolved. It does not depend on
the tags it is emitted under.
-/

namespace TypedClient

/-- An argument that is passed in the place of a placeholder. -/
structure PathArgument where
  name : String
  type : TypeExpr
  deriving DecidableEq, Repr

structure ClientMethod where
  key : Nat
  functionName : String
  method : HttpMethod
  path : String
  pathArguments : List PathArgument
  query : Option TypeExpr
  body : Option TypeExpr
  response : TypeExpr
  summary : Option String
  description : Option String
  deprecated : Bool
  deriving DecidableEq, Repr

namespace ClientMethod

/-- The types in the signature of a method, from left to right. -/
def types (method : ClientMethod) : List TypeExpr :=
  method.pathArguments.map PathArgument.type ++ method.query.toList ++ method.body.toList ++
    [method.response]

/-- The names that the signature of a method refers to. -/
def references (method : ClientMethod) : List DeclarationName :=
  namesIn method.types

end ClientMethod

end TypedClient
