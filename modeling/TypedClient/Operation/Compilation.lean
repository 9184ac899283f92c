import TypedClient.Operation.Basic
import TypedClient.Operation.Method
import TypedClient.Path.Template
import TypedClient.Schema.Resolution

/-!
# Compiling operations

An operation is compiled on its own into a client method and the declarations
that belong to it: the interface of its query, the names of its body and its
response, and the object shapes nested in them.
-/

namespace TypedClient

/-- A method with the declarations that belong to its operation. -/
structure CompiledOperation where
  method : ClientMethod
  declarations : DeclarationBuffer

/-- A result together with the declarations and warnings made on the way. -/
structure Resolved (α : Type) where
  result : α
  declarations : DeclarationBuffer
  warnings : List Warning

namespace Operation

variable [Text.Conversions]

/-- The argument of a placeholder: a path parameter of that name gives the scalar
type, and a text is passed if it gives none. -/
def pathArgument (operation : Operation) (placeholder : String) : PathArgument :=
  let parameter :=
    (operation.parametersIn .path).find? fun parameter => parameter.name = placeholder
  let kind := (parameter.bind Parameter.schema).bind SchemaNode.primitive?
  ⟨Identifier.argumentName placeholder, .primitive (kind.getD .text)⟩

def pathArguments (operation : Operation) : List PathArgument :=
  (Path.placeholders operation.path).map operation.pathArgument

/-- Resolves a schema under a name. -/
def resolveUnder (known : List String) (origin : String) (node : SchemaNode)
    (name : DeclarationName) (declarations : DeclarationBuffer) : Resolved TypeExpr :=
  let (type, progress) := node.resolve known name ⟨declarations, []⟩
  ⟨type, progress.buffer, progress.degradations.map (Degradation.warning origin)⟩

/-- The type of a query parameter; without a schema it is untyped. -/
def resolveParameter (known : List String) (label : String) (owner : DeclarationName)
    (parameter : Parameter) (declarations : DeclarationBuffer) : Resolved TypeExpr :=
  match parameter.schema with
  | none => ⟨.any, declarations, []⟩
  | some node =>
      resolveUnder known (label ++ " query parameter '" ++ parameter.name ++ "'") node
        (owner.child parameter.name) declarations

/-- The members of the query interface. -/
def queryMembers (known : List String) (label : String) (owner : DeclarationName) :
    List Parameter → DeclarationBuffer → Resolved (List Property)
  | [], declarations => ⟨[], declarations, []⟩
  | parameter :: rest, declarations =>
      let first := resolveParameter known label owner parameter declarations
      let others := queryMembers known label owner rest first.declarations
      ⟨⟨parameter.name, first.result, !parameter.required⟩ :: others.result,
        others.declarations, first.warnings ++ others.warnings⟩

/-- The type of the query, if the operation has query parameters. -/
def compileQuery (operation : Operation) (known : List String)
    (declarations : DeclarationBuffer) : Resolved (Option TypeExpr) :=
  match operation.parametersIn .query with
  | [] => ⟨none, declarations, []⟩
  | parameters =>
      let name := DeclarationName.ofOperation .query operation.key
      let members := queryMembers known operation.label name parameters declarations
      ⟨some (.named name), members.declarations.register ⟨name, .interface members.result⟩,
        members.warnings⟩

/-- Resolves a schema and gives the declared shape at its core the given name. The
array layers around the shape are put around the name. -/
def compileNamed (known : List String) (origin : String) (name : DeclarationName)
    (node : SchemaNode) (declarations : DeclarationBuffer) : Resolved TypeExpr :=
  let resolved := resolveUnder known origin node name declarations
  match resolved.result.element with
  | .named target =>
      let type := (TypeExpr.named name).wrapArrays resolved.result.depth
      if target = name then
        { resolved with result := type }
      else
        ⟨type, resolved.declarations.register ⟨name, .typeAlias (.named target)⟩,
          resolved.warnings⟩
  | _ => resolved

/-- The type of the request body, if the operation has one. -/
def compileBody (operation : Operation) (known : List String) (declarations : DeclarationBuffer) :
    Resolved (Option TypeExpr) :=
  match operation.requestBody with
  | none => ⟨none, declarations, []⟩
  | some node =>
      let named :=
        compileNamed known (operation.label ++ " request body")
          (.ofOperation .body operation.key) node declarations
      { named with result := some named.result }

/-- The type of the response; without a schema it is untyped. -/
def compileResponse (operation : Operation) (known : List String)
    (declarations : DeclarationBuffer) : Resolved TypeExpr :=
  match operation.response with
  | none => ⟨.any, declarations, []⟩
  | some node =>
      compileNamed known (operation.label ++ " response") (.ofOperation .response operation.key)
        node declarations

/-- Compiles an operation, given the names of the component schemas. -/
def compile (operation : Operation) (known : List String) : CompiledOperation × List Warning :=
  let query := operation.compileQuery known .empty
  let body := operation.compileBody known query.declarations
  let response := operation.compileResponse known body.declarations
  ({ method :=
      { key := operation.key
        functionName := Path.functionName operation.method operation.path
        method := operation.method
        path := operation.path
        pathArguments := operation.pathArguments
        query := query.result
        body := body.result
        response := response.result
        summary := operation.summary
        description := operation.description
        deprecated := operation.deprecated }
     declarations := response.declarations },
    query.warnings ++ body.warnings ++ response.warnings)

end Operation

end TypedClient
