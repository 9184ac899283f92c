import TypedClient.Declaration.Dependency
import TypedClient.Declaration.Disambiguation
import TypedClient.Schema.Resolution

/-!
# The pool of component declarations

Every component schema is declared once under its own name, together with the
object shapes nested in it. The pool does not depend on the operations, so names
that would be written alike are told apart here for the whole client.
-/

namespace TypedClient

structure DtoRegistry where
  pool : DeclarationBuffer
  renamed : List (DeclarationName × String)

namespace DtoRegistry

variable [Text.Conversions]

/-- How warnings name a component schema. -/
def originOf (schema : String) : String :=
  "schema '" ++ schema ++ "'"

/-- Declares the type that a component schema was resolved to. An interface is
declared already; a schema that is nothing but a reference to itself is untyped. -/
def declareRoot (schema : String) (type : TypeExpr) (progress : Progress) : Progress :=
  let root := DeclarationName.ofSchema schema
  if type = .named root then
    if progress.buffer.contains root then
      progress
    else
      (progress.degrade root (.selfAlias schema)).register ⟨root, .typeAlias .any⟩
  else
    progress.register ⟨root, .typeAlias type⟩

/-- Resolves and declares one component schema. -/
def addSchema (known : List String) (pool : DeclarationBuffer) (schema : String)
    (node : SchemaNode) : Progress :=
  let (type, progress) := node.resolve known (.ofSchema schema) ⟨pool, []⟩
  declareRoot schema type progress

/-- Adds component schemas to a pool, with the warnings of doing so. -/
def addSchemas (known : List String) :
    (schemas : List (String × SchemaNode)) → DeclarationBuffer → DeclarationBuffer × List Warning
  | [], pool => (pool, [])
  | (schema, node) :: rest, pool =>
      let progress := addSchema known pool schema node
      let (pool, warnings) := addSchemas known rest progress.buffer
      (pool, progress.degradations.map (Degradation.warning (originOf schema)) ++ warnings)

def renameWarning? (renamed : DeclarationName × String) : Option Warning :=
  renamed.1.defaultIdentifier?.map fun identifier =>
    .declarationRenamed identifier renamed.2

/-- The registry of the component schemas of a document, with its warnings. -/
def ofSchemas (schemas : List (String × SchemaNode)) : DtoRegistry × List Warning :=
  let (pool, warnings) := addSchemas (schemas.map Prod.fst) schemas .empty
  let renamed := Disambiguation.renamed pool.names
  (⟨pool, renamed⟩, warnings ++ renamed.filterMap renameWarning?)

/-- The reference cycles among the declarations of the pool. -/
def cycles (registry : DtoRegistry) : List (List DeclarationName) :=
  (dependencyGraph registry.pool.declarations).cycles

/-- The declarations of the pool that some names need, in pool order. -/
def prune (registry : DtoRegistry) (roots : List DeclarationName) : List Declaration :=
  neededDeclarations registry.pool.declarations roots

end DtoRegistry

end TypedClient
