import TypedClient.Document.Basic
import TypedClient.Yaml.Document

/-!
# Loading documents

The bytes of a document in one of the two formats become a document.
-/

namespace TypedClient.ApiDocument

open Json Document Yaml

/-- Reads the entry of a document. A YAML document has no positions to report once it
is a value. -/
def readEntry (format : DocumentFormat) (bytes : List UInt8) : Except LoadError DocumentEntry :=
  match format with
  | .json => ((documentShape.ofBytes bytes).mapError .json).map .ofCarrier
  | .yaml =>
      match YamlValue.ofBytes? bytes with
      | none => .error .yaml
      | some value =>
          ((value.toJson.bind documentShape.ofValue).mapError fun fault =>
            .json ⟨fault, none⟩).map .ofCarrier

/-- Loads a document. -/
def ofBytes [MediaTypeParser] (format : DocumentFormat) (bytes : List UInt8) :
    Except LoadError ApiDocument := do
  ofEntry (← readEntry format bytes)

end TypedClient.ApiDocument
