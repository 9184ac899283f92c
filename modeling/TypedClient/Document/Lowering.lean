import TypedClient.Document.Entry
import TypedClient.MediaType
import TypedClient.Operation.Basic
import TypedClient.Text.Blank
import TypedClient.Warning

/-!
# Lowering operations

An operation entry becomes an operation: its references are followed into the
components, its parameters are merged with those of its path, and its body and
response are reduced to their JSON schemas. Whatever is malformed leaves a warning
and does not concern the rest of the operation.
-/

namespace TypedClient.Document

open Json

/-- The components of a section. -/
def ComponentsEntry.pool (components : ComponentsEntry) : ComponentSection → List (String × Value)
  | .schemas => components.schemas
  | .parameters => components.parameters
  | .requestBodies => components.requestBodies
  | .responses => components.responses

/-- The pointer of a value that is a reference. -/
def reference? (value : Value) : Option String :=
  (value.get? "$ref").bind Value.text?

/-- Follows references through the components of a section, looking at no more
than `looks` values. -/
def followFrom (area : ComponentSection) (pool : List (String × Value)) :
    (looks : Nat) → Value → Except OperationIssue Value
  | 0, _ => .error .chainTooLong
  | looks + 1, value =>
      match reference? value with
      | none => .ok value
      | some pointer =>
          match componentName? area pointer with
          | none => .error (.foreignReference pointer area)
          | some name =>
              match pool.lookup name with
              | none => .error (.danglingReference pointer)
              | some next => followFrom area pool looks next

/-- The value that a value is a reference to, directly or through others. -/
def follow (area : ComponentSection) (pool : List (String × Value)) (value : Value) :
    Except OperationIssue Value :=
  followFrom area pool maxReferenceHops value

def locationOf? : String → Option ParameterLocation
  | "path" => some .path
  | "query" => some .query
  | _ => none

/-- A path parameter is required whatever its entry says. -/
def lowerParameter (components : ComponentsEntry) (value : Value) :
    Except OperationIssue (Option Parameter) := do
  let resolved ← follow .parameters components.parameters value
  match ParameterEntry.ofValue resolved with
  | .error fault => .error (.malformedParameter fault)
  | .ok entry =>
      match locationOf? entry.location with
      | none => return none
      | some location =>
          return some {
            name := entry.name
            location := location
            required := entry.required || location = .path
            schema := entry.schema.map SchemaNode.ofValue }

variable [MediaTypeParser]

/-- The schema of the first JSON media type, if there is a JSON media type. -/
def ContentEntry.firstJson? (entry : ContentEntry) : Option (Option Value) :=
  (entry.content.find? fun (mediaType, _) => isJsonMediaType mediaType).map Prod.snd

/-- The schema of a request body; a body without any content is no body. -/
def lowerRequestBody (components : ComponentsEntry) (value : Value) :
    Option SchemaNode × List OperationIssue :=
  match follow .requestBodies components.requestBodies value with
  | .error issue => (none, [issue])
  | .ok resolved =>
      match ContentEntry.ofRequestBody resolved with
      | .error fault => (some .any, [.malformedBody fault])
      | .ok entry =>
          if entry.content.isEmpty then
            (none, [])
          else
            match entry.firstJson? with
            | some none => (some .any, [])
            | some (some schema) => (some (.ofValue schema), [])
            | none => (some .any, [.noJsonBody (entry.content.map Prod.fst)])

/-- The schema of a response. A response that is not understood has none. -/
def lowerResponse (components : ComponentsEntry) (value : Value) :
    Option SchemaNode × List OperationIssue :=
  match follow .responses components.responses value with
  | .error issue => (none, [issue])
  | .ok resolved =>
      match ContentEntry.ofResponse resolved with
      | .error _ => (none, [])
      | .ok entry => (entry.firstJson?.bind fun schema => schema.map SchemaNode.ofValue, [])

/-- The tags of an operation: trimmed, not empty, each once. -/
def cleanTags (tags : List String) : List String :=
  ((tags.map Text.trim).filter fun tag => !tag.isEmpty).eraseDups

/-- Two parameters are the same if they agree in name and place. -/
def Parameter.identity (parameter : Parameter) : String × ParameterLocation :=
  (parameter.name, parameter.location)

def issueOf? {α : Type} : Except OperationIssue α → Option OperationIssue
  | .ok _ => none
  | .error issue => some issue

def usable? : Except OperationIssue (Option Parameter) → Option Parameter
  | .ok parameter => parameter
  | .error _ => none

/-- The parameters of an operation: those of its path, then its own, which replace
the former where they stand. -/
def mergeParameters (lowered : List (Except OperationIssue (Option Parameter))) : List Parameter :=
  Keyed.putAll Parameter.identity (lowered.filterMap usable?) []

def notBlank (text : String) : Bool :=
  !Text.isBlankText text

/-- What becomes of an operation entry. -/
inductive Outcome where
  | skipped (label : String) (fault : Fault)
  | lowered (operation : Operation) (issues : List OperationIssue)

/-- Lowers an operation entry. The key is given later, when it is known how many
operations come before. -/
def lowerOperation (components : ComponentsEntry) (shared : List Value) (path : String)
    (method : HttpMethod) (entry : OperationEntry) : Outcome :=
  let parameters := (shared ++ entry.parameters).map (lowerParameter components)
  let body :=
    match entry.requestBody with
    | none => (none, [])
    | some value => lowerRequestBody components value
  let response :=
    match entry.responses.lookup "200" with
    | none => (none, [])
    | some value => lowerResponse components value
  .lowered
    { key := 0
      method := method
      path := path
      tags := cleanTags entry.tags
      parameters := mergeParameters parameters
      requestBody := body.1
      response := response.1
      summary := entry.summary.filter notBlank
      description := entry.description.filter notBlank
      deprecated := entry.deprecated }
    (parameters.filterMap issueOf? ++ body.2 ++ response.2)

/-- The parameters that all operations of a path item share. -/
def sharedParameters (item : List (String × Value)) : List Value :=
  ((item.lookup "parameters").bind Value.items?).getD []

/-- The outcome of an entry of a path item, if its key is an HTTP method. -/
def lowerItemEntry (components : ComponentsEntry) (shared : List Value) (path : String)
    (entry : String × Value) : Option Outcome :=
  (HttpMethod.ofName? entry.1).map fun method =>
    match OperationEntry.ofValue entry.2 with
    | .error fault => .skipped (Operation.labelOf method path) fault
    | .ok operation => lowerOperation components shared path method operation

/-- The outcomes of a path item, in document order. An item that is no mapping
has none. -/
def lowerPath (components : ComponentsEntry) (path : String) (item : Value) : List Outcome :=
  match item.entries? with
  | none => []
  | some entries => entries.filterMap (lowerItemEntry components (sharedParameters entries) path)

def Outcome.operation? : Outcome → Option Operation
  | skipped .. => none
  | lowered operation _ => some operation

def Outcome.warnings : Outcome → List Warning
  | skipped label fault => [.operationSkipped label fault]
  | lowered operation issues => issues.map (.operationSpecific operation.label)

/-- The outcomes of all paths, in document order. -/
def outcomes (entry : DocumentEntry) : List Outcome :=
  entry.paths.flatMap fun (path, item) => lowerPath entry.components path item

/-- The operations of a document, each with its position as its key. -/
def operationsOf (outcomes : List Outcome) : List Operation :=
  (outcomes.filterMap Outcome.operation?).mapIdx fun index operation =>
    { operation with key := index }

end TypedClient.Document
