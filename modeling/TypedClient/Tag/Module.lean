import TypedClient.Declaration.NameTable
import TypedClient.Operation.Compilation
import TypedClient.Tag.Names

/-!
# Tag modules

A tag module collects the methods of the operations that carry a tag, with the
declarations that belong to them. A method name is used once in a module.
-/

namespace TypedClient

structure TagModule where
  tag : String
  names : TagNames
  methods : List ClientMethod
  declarations : DeclarationBuffer
  table : NameTable

namespace TagModule

/-- The module of a tag before any operation is added. -/
def new (tag : String) (names : TagNames) (renamed : List (DeclarationName × String)) :
    TagModule :=
  ⟨tag, names, [], .empty, .ofRenamed renamed⟩

/-- Adds a compiled operation, unless its method name is used already. -/
def absorb? (module : TagModule) (compiled : CompiledOperation) : Option TagModule :=
  (module.table.bind? compiled.method.key compiled.method.functionName).map fun table =>
    { module with
      methods := module.methods ++ [compiled.method]
      declarations := module.declarations.registerAll compiled.declarations.declarations
      table := table }

/-- The names that the declarations and the signatures of a module refer to. -/
def referencedNames (module : TagModule) : List DeclarationName :=
  (module.declarations.declarations.flatMap Declaration.references ++
    module.methods.flatMap ClientMethod.references).eraseDups

end TagModule

end TypedClient
