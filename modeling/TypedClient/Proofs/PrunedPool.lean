import TypedClient.Proofs.DeclarationReachability
import TypedClient.Schema.Registry

/-!
# What is left of the pool

Pruning keeps the declarations of the pool that the roots lead to, in pool order. What is
kept leads nowhere else, so that pruning for it keeps the same.
-/

namespace TypedClient.DtoRegistry

open Relation

variable {registry : DtoRegistry} {roots others : List DeclarationName}
  {declaration : Declaration} {name : DeclarationName}

/-- The roots in the pool lead to a name by references inside the pool. -/
def LeadTo (registry : DtoRegistry) (roots : List DeclarationName) (name : DeclarationName) :
    Prop :=
  ∃ root ∈ roots, root ∈ registry.pool.names ∧
    ReflTransGen (ReferenceStep registry.pool.declarations) root name

theorem LeadTo.mono (subset : roots ⊆ others) (leads : registry.LeadTo roots name) :
    registry.LeadTo others name := by
  obtain ⟨root, isRoot, declared, path⟩ := leads
  exact ⟨root, subset isRoot, declared, path⟩

theorem LeadTo.root (isRoot : name ∈ roots) (declared : name ∈ registry.pool.names) :
    registry.LeadTo roots name :=
  ⟨name, isRoot, declared, .refl⟩

/-- What is led to by names that are led to is led to. -/
theorem LeadTo.trans (between : ∀ other ∈ others, registry.LeadTo roots other)
    (leads : registry.LeadTo others name) : registry.LeadTo roots name := by
  obtain ⟨other, isOther, -, rest⟩ := leads
  obtain ⟨root, isRoot, declared, path⟩ := between other isOther
  exact ⟨root, isRoot, declared, path.trans rest⟩

theorem mem_prune : declaration ∈ registry.prune roots ↔
    declaration ∈ registry.pool.declarations ∧ registry.LeadTo roots declaration.name := by
  rw [prune, neededDeclarations, List.mem_filter, List.contains_iff_mem,
    mem_reachable_iff_referenceSteps]
  rfl

theorem prune_sublist : (registry.prune roots).Sublist registry.pool.declarations :=
  List.filter_sublist

/-- Pruning keeps the same for roots that lead to the same names of the pool. -/
theorem prune_congr
    (same : ∀ name ∈ registry.pool.names,
      registry.LeadTo roots name ↔ registry.LeadTo others name) :
    registry.prune roots = registry.prune others := by
  refine List.filter_congr fun declaration declared => ?_
  rw [Bool.eq_iff_iff, List.contains_iff_mem, List.contains_iff_mem,
    mem_reachable_iff_referenceSteps, mem_reachable_iff_referenceSteps]
  exact same declaration.name (List.mem_map_of_mem declared)

/-- Pruning keeps exactly the declarations of the pool that a chain of references inside the
pool leads to from a root in the pool, each once and in pool order. Neither the order of the
roots nor their repetitions matter, and pruning for what is kept keeps it. -/
theorem prune_exact (registry : DtoRegistry) (roots : List DeclarationName) :
    (∀ declaration, declaration ∈ registry.prune roots ↔
        declaration ∈ registry.pool.declarations ∧
          ∃ root ∈ roots, root ∈ registry.pool.names ∧
            ReflTransGen (ReferenceStep registry.pool.declarations) root declaration.name) ∧
      (registry.prune roots).Sublist registry.pool.declarations ∧
      ((registry.prune roots).map Declaration.name).Nodup ∧
      (∀ others, (∀ name, name ∈ others ↔ name ∈ roots) →
        registry.prune others = registry.prune roots) ∧
      registry.prune ((registry.prune roots).map Declaration.name) = registry.prune roots := by
  refine ⟨fun _ => mem_prune, prune_sublist, ?_, fun others sameRoots => ?_, ?_⟩
  · exact registry.pool.distinct.sublist (prune_sublist.map Declaration.name)
  · refine prune_congr fun name _ => ⟨LeadTo.mono ?_, LeadTo.mono ?_⟩
    · exact fun root isRoot => (sameRoots root).mp isRoot
    · exact fun root isRoot => (sameRoots root).mpr isRoot
  · refine prune_congr fun name declared => ⟨LeadTo.trans fun kept isKept => ?_, fun leads => ?_⟩
    · obtain ⟨declaration, member, rfl⟩ := List.mem_map.mp isKept
      exact (mem_prune.mp member).2
    · obtain ⟨declaration, inPool, rfl⟩ := List.mem_map.mp declared
      exact .root (List.mem_map_of_mem (mem_prune.mpr ⟨inPool, leads⟩)) declared

end TypedClient.DtoRegistry
