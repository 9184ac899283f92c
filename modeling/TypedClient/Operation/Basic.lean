import TypedClient.HttpMethod
import TypedClient.Schema.Node

/-!
# Operations

An operation is one HTTP method of one path, reduced to what a client method
needs: its parameters, the schema of its JSON body and that of its successful
JSON response.
-/

namespace TypedClient

/-- Where a parameter travels. Parameters of other places do not concern the
client. -/
inductive ParameterLocation where
  | path
  | query
  deriving DecidableEq, Repr

structure Parameter where
  name : String
  location : ParameterLocation
  required : Bool
  schema : Option SchemaNode
  deriving Repr

/-- An operation. Its `key` is its position among the operations of the document,
and its `tags` are trimmed, not empty and distinct. -/
structure Operation where
  key : Nat
  method : HttpMethod
  path : String
  tags : List String
  parameters : List Parameter
  requestBody : Option SchemaNode
  response : Option SchemaNode
  summary : Option String
  description : Option String
  deprecated : Bool
  deriving Repr

namespace Operation

/-- How messages name an operation: `GET /users`. -/
def labelOf (method : HttpMethod) (path : String) : String :=
  method.upperName ++ " " ++ path

def label (operation : Operation) : String :=
  labelOf operation.method operation.path

/-- The tags an operation belongs to; without any, the default tag. -/
def effectiveTags (operation : Operation) (defaultTag : String) : List String :=
  if operation.tags.isEmpty then [defaultTag] else operation.tags

def parametersIn (operation : Operation) (location : ParameterLocation) : List Parameter :=
  operation.parameters.filter fun parameter => parameter.location = location

end Operation

end TypedClient
