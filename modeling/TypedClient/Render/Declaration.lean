import TypedClient.Declaration.NameTable

/-!
# Declarations as text
-/

namespace TypedClient

variable [Text.Conversions]

/-- A member of an interface on a line of its own. -/
def Property.render (table : NameTable) (property : Property) : Except UnboundOperation String :=
  (property.type.render table).map fun type =>
    "  " ++ Identifier.propertyKey property.name ++ (if property.optional then "?" else "") ++
      ": " ++ type

/-- The text of an interface with its members on lines of their own. -/
def interfaceText (name : String) (members : List String) : String :=
  if members.isEmpty then
    "export interface " ++ name ++ " \x7b\x7d"
  else
    "export interface " ++ name ++ " \x7b\n" ++ String.intercalate "\n" members ++ "\n\x7d"

def Declaration.render (table : NameTable) (declaration : Declaration) :
    Except UnboundOperation String := do
  let name ← declaration.name.render table
  match declaration.body with
  | .typeAlias target =>
      let type ← target.render table
      return "export type " ++ name ++ " = " ++ type
  | .interface properties =>
      let members ← properties.mapM (Property.render table)
      return interfaceText name members

end TypedClient
