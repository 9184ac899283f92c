import TypedClient.Command.Generate
import TypedClient.Command.Table
import TypedClient.Path.Template

/-!
# Listing operations

The operations of a document with the names of the client methods, sorted by their tags
and then by these names.
-/

namespace TypedClient.Command

structure OperationRow where
  function : String
  method : String
  path : String
  tags : String
  deriving DecidableEq, Repr

namespace OperationRow

def ofOperation [Text.Conversions] (defaultTag : String) (operation : Operation) :
    OperationRow where
  function := Path.functionName operation.method operation.path
  method := operation.method.upperName
  path := operation.path
  tags := String.intercalate ", " (operation.effectiveTags defaultTag)

/-- Whether a row may stand above another one. -/
def precedes (first second : OperationRow) : Bool :=
  first.tags < second.tags || (first.tags == second.tags && first.function ≤ second.function)

def cells (row : OperationRow) : List Cell :=
  [.ofText .left row.function, .ofText .right row.method, .ofText .left row.path,
    .ofText .left row.tags]

end OperationRow

variable [Text.Conversions]

/-- The rows of a document. Rows with the same tags and name keep their order. -/
def operationRows (document : ApiDocument) (defaultTag : String) : List OperationRow :=
  (document.operations.map (OperationRow.ofOperation defaultTag)).mergeSort
    OperationRow.precedes

def operationTable (rows : List OperationRow) : Table where
  header := ["FUNCTION", "METHOD", "PATH", "TAGS"].map (Cell.ofText .left)
  rows := rows.map OperationRow.cells

variable [MediaTypeParser] {m : Type → Type} [Monad m]

/-- Prints the operations of the document that is asked for. -/
def listOperations (host : Host m) (arguments : ListArguments) : ExceptT Failure m Unit := do
  let document ← loadDocument host (.ofInput arguments.input)
  let rows := operationRows document (Text.trim arguments.defaultTag)
  host.printLine (operationTable rows).render

end TypedClient.Command
