import TypedClient.Text.Split

/-!
# References to components

A local reference `#/components/<section>/<name>` names a component of one
section. In the name, `~1` stands for a slash and `~0` for a tilde.
-/

namespace TypedClient

open Text

/-- The sections of the components object that a local reference can point into. -/
inductive ComponentSection where
  | schemas
  | parameters
  | requestBodies
  | responses
  deriving DecidableEq, Repr

namespace ComponentSection

/-- The key of a section in the components object. -/
def key : ComponentSection → String
  | schemas => "schemas"
  | parameters => "parameters"
  | requestBodies => "requestBodies"
  | responses => "responses"

end ComponentSection

/-- Replaces an escape of two characters by the character it stands for. -/
def replacePair (first second : Char) (meant : Char) : List Char → List Char
  | a :: b :: rest =>
      if a == first && b == second then
        meant :: replacePair first second meant rest
      else
        a :: replacePair first second meant (b :: rest)
  | short => short

/-- Undoes the escaping of a name; slashes first, so that `~01` is `~1`. -/
def unescapeName (name : List Char) : List Char :=
  replacePair '~' '0' '~' (replacePair '~' '1' '/' name)

/-- The component that a reference names, if it points into the given section. -/
def componentName? (area : ComponentSection) (reference : String) : Option String := do
  let inner ← dropBeginning? "#/components/".toList reference.toList
  let (found, name) ← cutAtChar? '/' inner
  if found == area.key.toList && !name.isEmpty && !name.contains '/' then
    some (String.ofList (unescapeName name))
  else
    none

/-- The schema that a reference names. -/
def schemaName? (reference : String) : Option String :=
  componentName? .schemas reference

end TypedClient
