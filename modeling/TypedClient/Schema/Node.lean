import TypedClient.Json.Value

/-!
# Schemas

The part of a schema object that decides the type of a client value. Every JSON
value is some schema: what cannot be modelled is untyped.
-/

namespace TypedClient

/-- The scalar types that the `type` keyword declares. -/
inductive PrimitiveKind where
  | text
  | number
  | integer
  | boolean
  deriving DecidableEq, Repr

namespace PrimitiveKind

def ofTypeName? : String → Option PrimitiveKind
  | "string" => some text
  | "number" => some number
  | "integer" => some integer
  | "boolean" => some boolean
  | _ => none

/-- The TypeScript type of a scalar. There is a single numeric type. -/
def keyword : PrimitiveKind → String
  | text => "string"
  | number => "number"
  | integer => "number"
  | boolean => "boolean"

end PrimitiveKind

/-- A schema. An object without a usable property map has no `properties`;
`required` may name properties that the object does not have. -/
inductive SchemaNode where
  | primitive (kind : PrimitiveKind)
  | array (item : SchemaNode)
  | object (properties : Option (List (String × SchemaNode))) (required : List String)
  | reference (pointer : String)
  | any
  deriving Repr, Inhabited

namespace SchemaNode

open Json

def primitive? : SchemaNode → Option PrimitiveKind
  | primitive kind => some kind
  | _ => none

/-- The keywords that make a schema untyped. -/
def compositionKeywords : List String :=
  ["oneOf", "anyOf", "allOf"]

/-- The declared type: the `type` text, or the first one in its list that is not
`null`. -/
def declaredType? (entries : List (String × Value)) : Option String :=
  match entries.lookup "type" with
  | some (.text name) => some name
  | some (.sequence names) => (names.filterMap Value.text?).find? (· != "null")
  | _ => none

/-- The required property names, each once. -/
def requiredNames (entries : List (String × Value)) : List String :=
  match entries.lookup "required" with
  | some (.sequence names) => (names.filterMap Value.text?).eraseDups
  | _ => []

/-- What the keywords of a schema object make of it. -/
inductive Form where
  | reference (pointer : String)
  | primitive (kind : PrimitiveKind)
  | array
  | object
  | any
  deriving DecidableEq, Repr

def hasKey (entries : List (String × Value)) (key : String) : Bool :=
  (entries.lookup key).isSome

/-- The form of a schema object. A reference outweighs everything else, then a
composition, then the declared type; without a type, properties make an object
and items make an array. -/
def formOf (entries : List (String × Value)) : Form :=
  match entries.lookup "$ref" with
  | some (.text pointer) => .reference pointer
  | _ =>
      if compositionKeywords.any (hasKey entries) then
        .any
      else
        match declaredType? entries with
        | some "array" => .array
        | some "object" => .object
        | some name =>
            match PrimitiveKind.ofTypeName? name with
            | some kind => .primitive kind
            | none => .any
        | none =>
            if hasKey entries "properties" then .object
            else if hasKey entries "items" then .array
            else .any

mutual

/-- The schema that a JSON value describes. -/
def ofValue : Value → SchemaNode
  | .mapping entries =>
      match formOf entries with
      | .reference pointer => .reference pointer
      | .primitive kind => .primitive kind
      | .array => .array (itemOf entries)
      | .object => .object (propertiesOf entries) (requiredNames entries)
      | .any => .any
  | _ => .any

/-- The schema of the first `items` entry. -/
def itemOf : List (String × Value) → SchemaNode
  | [] => .any
  | (key, value) :: rest => if key == "items" then ofValue value else itemOf rest

/-- The schemas of the first `properties` entry, if it is a mapping. -/
def propertiesOf : List (String × Value) → Option (List (String × SchemaNode))
  | [] => none
  | (key, value) :: rest =>
      if key == "properties" then
        match value with
        | .mapping members => some (membersOf members)
        | _ => none
      else
        propertiesOf rest

def membersOf : List (String × Value) → List (String × SchemaNode)
  | [] => []
  | (name, value) :: rest => (name, ofValue value) :: membersOf rest

end

end SchemaNode

end TypedClient
