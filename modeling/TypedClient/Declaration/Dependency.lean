import TypedClient.Declaration.Basic
import TypedClient.Digraph

/-!
# References between declarations

The graph of declared names, with an edge for every reference to another of
them. References to names that are not declared have no edge.
-/

namespace TypedClient

/-- The references of a list of declarations as pairs of names. -/
def referencePairs (declarations : List Declaration) : List (DeclarationName × DeclarationName) :=
  declarations.flatMap fun declaration =>
    declaration.references.map fun reference => (declaration.name, reference)

def dependencyGraph (declarations : List Declaration) : Digraph DeclarationName :=
  .ofLists (declarations.map Declaration.name) (referencePairs declarations)

/-- The declarations that some roots need, in their own order. -/
def neededDeclarations (declarations : List Declaration) (roots : List DeclarationName) :
    List Declaration :=
  let reached := (dependencyGraph declarations).reachable roots
  declarations.filter fun declaration => reached.contains declaration.name

end TypedClient
