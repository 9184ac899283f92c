import TypedClient.Json.Fault
import TypedClient.ComponentReference

/-!
# Warnings

What is wrong with a document without keeping the client from being generated.
The affected item is left out, renamed or typed as `any`.
-/

namespace TypedClient

/-- Why a schema, or a part of it, is typed as `any`. -/
inductive SchemaIssue where
  | unusableProperties
  | foreignReference (pointer : String)
  | danglingReference (pointer : String)
  | selfAlias (name : String)
  deriving DecidableEq, Repr

namespace SchemaIssue

def message : SchemaIssue → String
  | unusableProperties => "object schema has no usable `properties` mapping"
  | foreignReference pointer =>
      "reference '" ++ pointer ++ "' does not point into components.schemas"
  | danglingReference pointer =>
      "reference '" ++ pointer ++ "' does not resolve to a component schema"
  | selfAlias name => "schema '" ++ name ++ "' is an alias of itself"

end SchemaIssue

/-- The number of references that are followed from one component to the next. -/
def maxReferenceHops : Nat := 16

/-- What is wrong with a part of an operation. -/
inductive OperationIssue where
  | foreignReference (pointer : String) (expected : ComponentSection)
  | danglingReference (pointer : String)
  | chainTooLong
  | malformedParameter (fault : Json.Fault)
  | malformedBody (fault : Json.Fault)
  | noJsonBody (mediaTypes : List String)
  deriving DecidableEq, Repr

namespace OperationIssue

def message : OperationIssue → String
  | foreignReference pointer expected =>
      "reference '" ++ pointer ++ "' does not point into components." ++ expected.key
  | danglingReference pointer => "reference '" ++ pointer ++ "' does not resolve"
  | chainTooLong => "reference chain longer than " ++ toString maxReferenceHops
  | malformedParameter fault => "ignored malformed parameter: " ++ fault.message
  | malformedBody fault => "malformed request body typed as any: " ++ fault.message
  | noJsonBody mediaTypes =>
      "request body has no JSON media type (" ++ String.intercalate ", " mediaTypes ++
        "); typed as any"

end OperationIssue

inductive Warning where
  | schemaDegraded (origin : String) (keys : List String) (issue : SchemaIssue)
  | operationSkipped (operation : String) (fault : Json.Fault)
  | operationSpecific (operation : String) (issue : OperationIssue)
  | duplicateFunctionName (tag operation function : String)
  | declarationRenamed (name renamed : String)
  | declarationCollision (tag name : String)
  | tagRenamed (tag className existing renamed : String)
  deriving DecidableEq, Repr

namespace Warning

/-- The place of a degraded schema: its origin, and the property keys that lead to
it from there. -/
def place (origin : String) (keys : List String) : String :=
  if keys.isEmpty then origin
  else origin ++ " (at '" ++ String.intercalate "." keys ++ "')"

def message : Warning → String
  | schemaDegraded origin keys issue =>
      place origin keys ++ ": " ++ issue.message ++ "; typed as any"
  | operationSkipped operation fault =>
      "Skipped operation '" ++ operation ++ "': " ++ fault.message
  | operationSpecific operation issue => "[" ++ operation ++ "] " ++ issue.message
  | duplicateFunctionName tag operation function =>
      "Tag '" ++ tag ++ "': '" ++ operation ++ "' derives function name '" ++ function ++
        "' which is already used; skipped"
  | declarationRenamed name renamed =>
      "Declaration name '" ++ name ++ "' is produced by more than one shape; one is emitted as '" ++
        renamed ++ "'"
  | declarationCollision tag name =>
      "Tag '" ++ tag ++ "': declaration name '" ++ name ++
        "' is produced by more than one shape; kept the first"
  | tagRenamed tag className existing renamed =>
      "Tag '" ++ tag ++ "' maps to class '" ++ className ++ "' already used by tag '" ++
        existing ++ "'; emitted as '" ++ renamed ++ "'"

/-- Whether the warning tells of an item that the client lacks. -/
def isSkippedItem : Warning → Bool
  | operationSkipped .. => true
  | duplicateFunctionName .. => true
  | _ => false

end Warning

end TypedClient
