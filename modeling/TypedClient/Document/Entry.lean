import TypedClient.Json.Conversion
import TypedClient.Json.ShapeReader

/-!
# The entries of a document

What a document and its operations look like before references are followed and
schemas are understood. Path items, parameters, bodies and responses are kept as
plain values, so that one of them can be malformed without spoiling the others.
-/

namespace TypedClient.Document

open Json

structure InfoEntry where
  title : String
  version : String
  description : Option String
  deriving DecidableEq, Repr

structure ComponentsEntry where
  schemas : List (String × Value)
  parameters : List (String × Value)
  requestBodies : List (String × Value)
  responses : List (String × Value)

/-- The top level of a document. -/
structure DocumentEntry where
  openapi : Option String
  swagger : Option String
  info : InfoEntry
  paths : List (String × Value)
  components : ComponentsEntry

structure OperationEntry where
  tags : List String
  summary : Option String
  description : Option String
  deprecated : Bool
  parameters : List Value
  requestBody : Option Value
  responses : List (String × Value)

structure ParameterEntry where
  name : String
  location : String
  required : Bool
  schema : Option Value

/-- The content of a body or a response: its media types with their schemas. -/
structure ContentEntry where
  content : List (String × Option Value)

def infoFields : Fields :=
  .field "title" .text .blank <|
  .field "version" .text .blank <|
  .field "description" (.optional .text) .refusedInSequence .none

def componentsFields : Fields :=
  .field "schemas" (.table .value) .blank <|
  .field "parameters" (.table .value) .blank <|
  .field "requestBodies" (.table .value) .blank <|
  .field "responses" (.table .value) .blank .none

def documentFields : Fields :=
  .field "openapi" (.optional .text) .refusedInSequence <|
  .field "swagger" (.optional .text) .refusedInSequence <|
  .field "info" (.record "RawInfo" infoFields) .blank <|
  .field "paths" (.table .value) .blank <|
  .field "components" (.record "RawComponents" componentsFields) .blank .none

def documentShape : Shape :=
  .record "RawDocument" documentFields

def operationFields : Fields :=
  .field "tags" (.list .text) .blank <|
  .field "summary" (.optional .text) .refusedInSequence <|
  .field "description" (.optional .text) .refusedInSequence <|
  .field "deprecated" .flag .blank <|
  .field "parameters" (.list .value) .blank <|
  .field "requestBody" (.optional .value) .refusedInSequence <|
  .field "responses" (.table .value) .blank .none

def operationShape : Shape :=
  .record "RawOperation" operationFields

def parameterFields : Fields :=
  .field "name" .text .refused <|
  .field "in" .text .refused <|
  .field "required" .flag .blank <|
  .field "schema" (.optional .value) .refusedInSequence .none

def parameterShape : Shape :=
  .record "RawParameter" parameterFields

def mediaFields : Fields :=
  .field "schema" (.optional .value) .refusedInSequence .none

def contentFields : Fields :=
  .field "content" (.table (.record "RawMediaType" mediaFields)) .blank .none

def requestBodyShape : Shape :=
  .record "RawRequestBody" contentFields

def responseShape : Shape :=
  .record "RawResponse" contentFields

def InfoEntry.ofCarrier : infoFields.Carrier → InfoEntry
  | (title, version, description, ()) => ⟨title, version, description⟩

def ComponentsEntry.ofCarrier : componentsFields.Carrier → ComponentsEntry
  | (schemas, parameters, requestBodies, responses, ()) =>
      ⟨schemas, parameters, requestBodies, responses⟩

def DocumentEntry.ofCarrier : documentShape.Carrier → DocumentEntry
  | (openapi, swagger, info, paths, components, ()) =>
      ⟨openapi, swagger, .ofCarrier info, paths, .ofCarrier components⟩

def OperationEntry.ofCarrier : operationShape.Carrier → OperationEntry
  | (tags, summary, description, deprecated, parameters, requestBody, responses, ()) =>
      ⟨tags, summary, description, deprecated, parameters, requestBody, responses⟩

def ParameterEntry.ofCarrier : parameterShape.Carrier → ParameterEntry
  | (name, location, required, schema, ()) => ⟨name, location, required, schema⟩

def ContentEntry.ofCarrier : contentFields.Carrier → ContentEntry
  | (content, ()) => ⟨content.map fun (mediaType, (schema, ())) => (mediaType, schema)⟩

/-- Reads an operation from the value of a path item's method. -/
def OperationEntry.ofValue (value : Value) : Except Fault OperationEntry :=
  (operationShape.ofValue value).map .ofCarrier

def ParameterEntry.ofValue (value : Value) : Except Fault ParameterEntry :=
  (parameterShape.ofValue value).map .ofCarrier

def ContentEntry.ofRequestBody (value : Value) : Except Fault ContentEntry :=
  (requestBodyShape.ofValue value).map .ofCarrier

def ContentEntry.ofResponse (value : Value) : Except Fault ContentEntry :=
  (responseShape.ofValue value).map .ofCarrier

end TypedClient.Document
