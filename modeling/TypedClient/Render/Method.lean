import TypedClient.Declaration.NameTable
import TypedClient.Operation.Method
import TypedClient.Path.Template
import TypedClient.Render.Comment

/-!
# Methods as text
-/

namespace TypedClient

namespace ClientMethod

variable [Text.Conversions]

/-- The arguments that every signature binds under the same names. -/
def queryArgument : String := "params"
def bodyArgument : String := "data"
def configArgument : String := "axiosConfig"

/-- An argument with its type. -/
def typedArgument (table : NameTable) (name : String) (type : TypeExpr) :
    Except UnboundOperation String :=
  (type.render table).map fun text => name ++ ": " ++ text

/-- The named types of the arguments, from left to right. -/
def typedArguments (method : ClientMethod) : List (String × TypeExpr) :=
  method.pathArguments.map (fun argument => (argument.name, argument.type)) ++
    method.query.toList.map (fun type => (queryArgument, type)) ++
    method.body.toList.map (fun type => (bodyArgument, type))

/-- The parameter list of a method. -/
def argumentList (method : ClientMethod) (table : NameTable) : Except UnboundOperation String :=
  (method.typedArguments.mapM fun (name, type) => typedArgument table name type).map
    fun arguments =>
      String.intercalate ", "
        (arguments ++ [configArgument ++ ": AxiosRequestConfig = \x7b\x7d"])

/-- The fields of the request that a method sends. -/
def requestFields (method : ClientMethod) : List String :=
  ["url: " ++ Path.urlExpression method.path, "method: '" ++ method.method.name ++ "'"] ++
    (if method.query.isSome then [queryArgument] else []) ++
    (if method.body.isSome then [bodyArgument] else []) ++
    ["..." ++ configArgument]

def render (table : NameTable) (method : ClientMethod) : Except UnboundOperation String := do
  let arguments ← method.argumentList table
  let response ← method.response.render table
  return Comment.ofMethod method.summary method.description method.deprecated ++
    "  " ++ method.functionName ++ "(" ++ arguments ++ "): Promise<ResponseType<" ++ response ++
    ">> \x7b\n    return $http.request(\x7b " ++
    String.intercalate ", " method.requestFields ++ " \x7d)\n  \x7d"

end ClientMethod

end TypedClient
