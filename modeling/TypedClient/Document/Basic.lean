import TypedClient.Document.Lowering
import TypedClient.Text.Split

/-!
# API documents

A document that passed its version check: component schemas and operations in
document order, with the warnings of lowering them.
-/

namespace TypedClient

open Json

structure DocumentInfo where
  title : String
  version : String
  description : Option String
  deriving DecidableEq, Repr

structure ApiDocument where
  info : DocumentInfo
  schemas : List (String × SchemaNode)
  operations : List Operation
  warnings : List Warning

/-- Why a document cannot be used at all. -/
inductive LoadError where
  | json (error : ReadError)
  | yaml
  | swagger (version : String)
  | missingVersion
  | unsupportedVersion (version : String)
  deriving DecidableEq, Repr

namespace LoadError

def message : LoadError → String
  | json error => "invalid JSON document: " ++ error.message
  | yaml => "invalid YAML document"
  | swagger version =>
      "Swagger " ++ version ++ " documents are not supported; convert to OpenAPI 3 first"
  | missingVersion => "document has no `openapi` version field"
  | unsupportedVersion version => "unsupported OpenAPI version " ++ version

end LoadError

namespace ApiDocument

open Document

/-- Whether a version text is that of OpenAPI 3. -/
def isSupportedVersion (version : String) : Bool :=
  Text.beginsWith "3." (Text.trim version)

/-- The document that an entry describes. -/
def ofEntry [MediaTypeParser] (entry : DocumentEntry) : Except LoadError ApiDocument :=
  match entry.swagger, entry.openapi with
  | some version, _ => .error (.swagger version)
  | none, none => .error .missingVersion
  | none, some version =>
      if isSupportedVersion version then
        let results := outcomes entry
        .ok {
          info := ⟨entry.info.title, entry.info.version, entry.info.description⟩
          schemas := entry.components.schemas.map fun (name, schema) =>
            (name, SchemaNode.ofValue schema)
          operations := operationsOf results
          warnings := results.flatMap Outcome.warnings }
      else
        .error (.unsupportedVersion version)

end ApiDocument

end TypedClient
