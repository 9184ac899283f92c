import TypedClient.Declaration.Dependency
import TypedClient.Proofs.DigraphReachability

/-!
# The declarations that some names need

A name is needed if a chain of references leads to it from the roots. Pruning a
list of declarations keeps exactly those whose names are needed.
-/

namespace TypedClient

open Relation

/-- The names that roots lead to along the references of declarations. A name that
is not declared can be needed, but it leads nowhere. -/
inductive Needed (declarations : List Declaration) (roots : List DeclarationName) :
    DeclarationName → Prop where
  | root {name : DeclarationName} (member : name ∈ roots) : Needed declarations roots name
  | reference {declaration : Declaration} {name : DeclarationName}
      (needed : Needed declarations roots declaration.name)
      (declared : declaration ∈ declarations) (refers : name ∈ declaration.references) :
      Needed declarations roots name

namespace Needed

variable {declarations : List Declaration} {roots : List DeclarationName}
  {name : DeclarationName}

/-- What is needed for needed roots is needed. -/
theorem trans {larger : List Declaration} {others : List DeclarationName}
    (subset : declarations ⊆ larger) (fromOthers : ∀ root ∈ roots, Needed larger others root)
    (needed : Needed declarations roots name) : Needed larger others name := by
  induction needed with
  | root member => exact fromOthers _ member
  | reference _ declared refers ih => exact reference ih (subset declared) refers

theorem mono {larger : List Declaration} {others : List DeclarationName}
    (subset : declarations ⊆ larger) (rootsSubset : roots ⊆ others)
    (needed : Needed declarations roots name) : Needed larger others name :=
  needed.trans subset fun _ member => root (rootsSubset member)

/-- A set of names that holds the roots, and with a declared name all that its
declaration refers to, holds all needed names. -/
theorem mem_of_closed {names : List DeclarationName} (rootsMem : ∀ root ∈ roots, root ∈ names)
    (closed : ∀ declaration ∈ declarations, declaration.name ∈ names →
      ∀ reference ∈ declaration.references, reference ∈ names)
    (needed : Needed declarations roots name) : name ∈ names := by
  induction needed with
  | root member => exact rootsMem _ member
  | reference _ declared refers ih => exact closed _ declared ih _ refers

end Needed

theorem mem_referencePairs {declarations : List Declaration} {source target : DeclarationName} :
    (source, target) ∈ referencePairs declarations ↔
      ∃ declaration ∈ declarations,
        declaration.name = source ∧ target ∈ declaration.references := by
  simp only [referencePairs, List.mem_flatMap, List.mem_map, Prod.mk.injEq]
  constructor
  · rintro ⟨declaration, declared, reference, refers, rfl, rfl⟩
    exact ⟨declaration, declared, rfl, refers⟩
  · rintro ⟨declaration, declared, rfl, refers⟩
    exact ⟨declaration, declared, target, refers, rfl, rfl⟩

/-- A declaration of the first name refers to the second, which is declared too. -/
def ReferenceStep (declarations : List Declaration) (name other : DeclarationName) : Prop :=
  (∃ declaration ∈ declarations, declaration.name = name ∧ other ∈ declaration.references) ∧
    other ∈ declarations.map Declaration.name

/-- The order of the declarations does not matter for their references. -/
theorem referenceStep_congr {declarations others : List Declaration}
    (same : ∀ declaration, declaration ∈ declarations ↔ declaration ∈ others) :
    ReferenceStep declarations = ReferenceStep others := by
  funext name other
  simp only [ReferenceStep, List.mem_map, same]

/-- The dependency graph finds the names that a chain of references leads to from a declared
root. -/
theorem mem_reachable_iff_referenceSteps {declarations : List Declaration}
    {roots : List DeclarationName} {name : DeclarationName} :
    name ∈ (dependencyGraph declarations).reachable roots ↔
      ∃ root ∈ roots, root ∈ declarations.map Declaration.name ∧
        ReflTransGen (ReferenceStep declarations) root name := by
  simp only [dependencyGraph, Digraph.mem_reachable_ofLists, mem_referencePairs]
  rfl

/-- Among declared names the dependency graph finds the needed ones. -/
theorem mem_reachable_dependencyGraph {declarations : List Declaration}
    {roots : List DeclarationName} {name : DeclarationName} :
    name ∈ (dependencyGraph declarations).reachable roots ↔
      name ∈ declarations.map Declaration.name ∧ Needed declarations roots name := by
  rw [dependencyGraph, Digraph.mem_reachable_ofLists]
  constructor
  · rintro ⟨root, member, declared, path⟩
    induction path with
    | refl => exact ⟨declared, .root member⟩
    | tail _ edge ih =>
        obtain ⟨declaration, declarationMem, equal, refers⟩ := mem_referencePairs.mp edge.1
        subst equal
        exact ⟨edge.2, .reference ih.2 declarationMem refers⟩
  · rintro ⟨declared, needed⟩
    induction needed with
    | root member => exact ⟨_, member, declared, .refl⟩
    | @reference declaration _ _ declarationMem refers ih =>
        obtain ⟨root, member, rootDeclared, path⟩ := ih (List.mem_map_of_mem declarationMem)
        have edge := mem_referencePairs.mpr ⟨declaration, declarationMem, rfl, refers⟩
        exact ⟨root, member, rootDeclared, path.tail ⟨edge, declared⟩⟩

theorem mem_neededDeclarations {declarations : List Declaration}
    {roots : List DeclarationName} {declaration : Declaration} :
    declaration ∈ neededDeclarations declarations roots ↔
      declaration ∈ declarations ∧ Needed declarations roots declaration.name := by
  rw [neededDeclarations, List.mem_filter, List.contains_iff_mem,
    mem_reachable_dependencyGraph]
  constructor
  · rintro ⟨member, _, needed⟩
    exact ⟨member, needed⟩
  · rintro ⟨member, needed⟩
    exact ⟨member, List.mem_map_of_mem member, needed⟩

/-- The names on reference cycles are declared. -/
theorem mem_names_of_mem_cycles {declarations : List Declaration}
    {cycle : List DeclarationName} {name : DeclarationName}
    (isCycle : cycle ∈ (dependencyGraph declarations).cycles) (member : name ∈ cycle) :
    name ∈ declarations.map Declaration.name :=
  Digraph.mem_nodes_ofLists.mp (Digraph.mem_nodes_of_mem_cycles isCycle member)

end TypedClient
