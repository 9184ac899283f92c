import TypedClient.Declaration.TypeExpr

/-!
# Declarations

A declaration gives a name to an interface or to a type expression.
-/

namespace TypedClient

structure Property where
  name : String
  type : TypeExpr
  optional : Bool
  deriving DecidableEq, Repr

inductive DeclarationBody where
  | interface (properties : List Property)
  | typeAlias (target : TypeExpr)
  deriving DecidableEq, Repr

structure Declaration where
  name : DeclarationName
  body : DeclarationBody
  deriving DecidableEq, Repr

/-- The names in a list of types, each once, in order of first use. -/
def namesIn (types : List TypeExpr) : List DeclarationName :=
  (types.filterMap TypeExpr.name?).eraseDups

namespace DeclarationBody

/-- The types that a body is made of. -/
def types : DeclarationBody → List TypeExpr
  | interface properties => properties.map Property.type
  | typeAlias target => [target]

end DeclarationBody

namespace Declaration

/-- The names that a declaration refers to, its own among them if it refers to
itself. -/
def references (declaration : Declaration) : List DeclarationName :=
  namesIn declaration.body.types

end Declaration

end TypedClient
