/-!
# Conversions of text

Document text is brought into ASCII and into camel case by conversions that the naming of
the client does not look into: it clears the texts that they return of whatever cannot
stand in an identifier. So they are a parameter of all that names anything.
-/

namespace TypedClient.Text

/-- The conversions that identifiers are made with. They may return any text. -/
class Conversions where
  toAscii : List Char → List Char
  toCamelCase : List Char → List Char

/-- The conversions that leave a text as it is. ASCII texts stay so, and names that are
identifiers already are never camel-cased. -/
@[reducible]
def Conversions.unchanged : Conversions :=
  ⟨id, id⟩

/-- The conversions that know the camel case of some texts and leave the others as they
are. -/
@[reducible]
def Conversions.ofCamelCases (forms : List (String × String)) : Conversions where
  toAscii := id
  toCamelCase text :=
    match forms.find? fun form => form.1.toList = text with
    | some form => form.2.toList
    | none => text

end TypedClient.Text
