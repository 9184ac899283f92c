import TypedClient.ComponentReference
import TypedClient.Declaration.Buffer
import TypedClient.Warning

/-!
# Resolving schemas

A schema under a name becomes a type expression, and every object shape in it
becomes an interface. A nested shape is named by the property keys that lead to
it; array layers add no key, except for `item` directly below a root. A reference
is resolved to the name of its component without looking at the component.
-/

namespace TypedClient

/-- A part of a schema that is typed as `any`, by the keys that lead to it. -/
structure Degradation where
  keys : List String
  issue : SchemaIssue
  deriving DecidableEq, Repr

def Degradation.warning (origin : String) (degradation : Degradation) : Warning :=
  .schemaDegraded origin degradation.keys degradation.issue

/-- What resolving has declared, and what it could not type. -/
structure Progress where
  buffer : DeclarationBuffer
  degradations : List Degradation

namespace Progress

def degrade (progress : Progress) (name : DeclarationName) (issue : SchemaIssue) : Progress :=
  { progress with degradations := progress.degradations ++ [⟨name.keys, issue⟩] }

def register (progress : Progress) (declaration : Declaration) : Progress :=
  { progress with buffer := progress.buffer.register declaration }

end Progress

namespace SchemaNode

/-- The key of the shape of the items of an array at a root. -/
def itemKey : String := "item"

/-- The name of the items of an array. -/
def itemName (name : DeclarationName) : DeclarationName :=
  if name.isRoot then name.child itemKey else name

/-- The type that a reference stands for, given the names of the components. -/
def resolveReference (known : List String) (pointer : String) : Except SchemaIssue TypeExpr :=
  match schemaName? pointer with
  | none => .error (.foreignReference pointer)
  | some schema =>
      if known.contains schema then
        .ok (.named (.ofSchema schema))
      else
        .error (.danglingReference pointer)

mutual

/-- The type of a schema under a name. -/
def resolve (known : List String) (node : SchemaNode) (name : DeclarationName)
    (progress : Progress) : TypeExpr × Progress :=
  match node with
  | .primitive kind => (.primitive kind, progress)
  | .any => (.any, progress)
  | .reference pointer =>
      match resolveReference known pointer with
      | .ok type => (type, progress)
      | .error issue => (.any, progress.degrade name issue)
  | .array item =>
      let (type, progress) := resolve known item (itemName name) progress
      (.array type, progress)
  | .object none _ => (.any, progress.degrade name .unusableProperties)
  | .object (some members) required =>
      if progress.buffer.contains name then
        (.named name, progress)
      else
        let (properties, progress) := resolveMembers known required name members progress
        (.named name, progress.register ⟨name, .interface properties⟩)

/-- The properties of an object shape, in their order. -/
def resolveMembers (known : List String) (required : List String) (owner : DeclarationName)
    (members : List (String × SchemaNode)) (progress : Progress) : List Property × Progress :=
  match members with
  | [] => ([], progress)
  | (key, node) :: rest =>
      let (type, progress) := resolve known node (owner.child key) progress
      let (properties, progress) := resolveMembers known required owner rest progress
      (⟨key, type, !required.contains key⟩ :: properties, progress)

end

end SchemaNode

end TypedClient
