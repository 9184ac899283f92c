import Mathlib.Data.List.Pairwise
import Mathlib.Data.Multiset.MapFold
import TypedClient.Proofs.CycleComponents
import TypedClient.Proofs.IdentifierAssignment
import TypedClient.Proofs.PrunedPool
import TypedClient.Proofs.SchemaIsolation

/-!
# The pool and the order of the component schemas

Where no name of the pool is changed, another order of the component schemas gives the
same declarations in another order. The same of them are kept by pruning, and the cycles
are the same up to their order.
-/

namespace TypedClient

namespace Disambiguation

variable {reserved : List String} {names : List DeclarationName}

/-- Claims of identifiers that are free get what they claim. -/
theorem renamed_foldl_settle {claims : List Claim} {assignment : Assignment}
    (distinct : (claims.map Claim.identifier).Nodup)
    (free : ∀ claim ∈ claims, claim.identifier ∉ assignment.taken) :
    (claims.foldl (Assignment.settle reserved) assignment).renamed = assignment.renamed := by
  induction claims generalizing assignment with
  | nil => rfl
  | cons claim rest ih =>
      rw [List.map_cons, List.nodup_cons] at distinct
      rw [List.forall_mem_cons] at free
      have keeps : assignment.settle reserved claim =
          ⟨claim.identifier :: assignment.taken, assignment.renamed⟩ := by
        rw [Assignment.settle, if_neg (fun taken => free.1 (List.contains_iff_mem.mp taken))]
      rw [List.foldl_cons, keeps]
      refine ih distinct.2 fun other member taken => ?_
      rcases List.mem_cons.mp taken with same | old
      · exact distinct.1 (same ▸ List.mem_map_of_mem member)
      · exact free.2 other member old

/-- Names with different default identifiers keep them. -/
theorem renamed_eq_nil [Text.Conversions]
    (distinct : (names.map DeclarationName.defaultIdentifier?).Nodup) :
    renamed names = [] := by
  have identifiers : (names.filterMap Claim.ofName?).map Claim.identifier =
      (names.map DeclarationName.defaultIdentifier?).filterMap id := by
    rw [List.map_filterMap, List.filterMap_map]
    refine List.filterMap_congr fun name _ => ?_
    simp only [Claim.ofName?, Option.map_map, Function.comp_apply, id]
    exact Option.map_id'
  have claimsPerm : (claimsOf names).Perm (names.filterMap Claim.ofName?) :=
    List.filter_append_perm _ _
  have claimsDistinct : ((claimsOf names).map Claim.identifier).Nodup := by
    rw [(claimsPerm.map Claim.identifier).nodup_iff, identifiers]
    refine distinct.filterMap fun first second identifier isFirst isSecond => ?_
    exact (Option.mem_def.mp isFirst).trans (Option.mem_def.mp isSecond).symm
  exact renamed_foldl_settle claimsDistinct fun _ _ => List.not_mem_nil

end Disambiguation

section Groups

variable {α : Type} {groups others : List (List α)}

/-- Groups that share nothing, none of them empty and each without repetitions. -/
structure AreGroups (groups : List (List α)) : Prop where
  distinct : ∀ group ∈ groups, group.Nodup
  nonempty : ∀ group ∈ groups, group ≠ []
  disjoint : groups.Pairwise List.Disjoint

/-- Two items are in one group. -/
def InOneGroup (groups : List (List α)) (item other : α) : Prop :=
  ∃ group ∈ groups, item ∈ group ∧ other ∈ group

theorem AreGroups.nodup_map_coe (areGroups : AreGroups groups) :
    (groups.map Multiset.ofList).Nodup := by
  refine List.pairwise_map.mpr (areGroups.disjoint.imp_of_mem ?_)
  intro first second isFirst _ apart same
  obtain ⟨item, member⟩ := List.exists_mem_of_ne_nil first (areGroups.nonempty first isFirst)
  exact apart member ((Multiset.coe_eq_coe.mp same).mem_iff.mp member)

theorem AreGroups.eq_of_mem (areGroups : AreGroups groups) {group other : List α} {item : α}
    (isGroup : group ∈ groups) (isOther : other ∈ groups) (member : item ∈ group)
    (otherMember : item ∈ other) : group = other := by
  by_contra different
  have symmetric : Std.Symm (List.Disjoint : List α → List α → Prop) :=
    ⟨fun _ _ apart _ first second => apart second first⟩
  exact areGroups.disjoint.forall isGroup isOther different member otherMember

theorem AreGroups.mem_map_coe (areGroups : AreGroups groups) (areOthers : AreGroups others)
    (same : ∀ item other, InOneGroup groups item other ↔ InOneGroup others item other)
    {group : Multiset α} (isGroup : group ∈ groups.map Multiset.ofList) :
    group ∈ others.map Multiset.ofList := by
  obtain ⟨listed, isListed, rfl⟩ := List.mem_map.mp isGroup
  obtain ⟨item, member⟩ := List.exists_mem_of_ne_nil listed (areGroups.nonempty listed isListed)
  obtain ⟨counterpart, isCounterpart, itemMem, -⟩ :=
    (same item item).mp ⟨listed, isListed, member, member⟩
  refine List.mem_map.mpr ⟨counterpart, isCounterpart, Multiset.coe_eq_coe.mpr ?_⟩
  refine (List.perm_ext_iff_of_nodup (areOthers.distinct counterpart isCounterpart)
    (areGroups.distinct listed isListed)).mpr fun other => ?_
  constructor
  · intro otherMem
    obtain ⟨group, isGroup, first, second⟩ :=
      (same item other).mpr ⟨counterpart, isCounterpart, itemMem, otherMem⟩
    exact areGroups.eq_of_mem isGroup isListed first member ▸ second
  · intro otherMem
    obtain ⟨group, isGroup, first, second⟩ :=
      (same item other).mp ⟨listed, isListed, member, otherMem⟩
    exact areOthers.eq_of_mem isGroup isCounterpart first itemMem ▸ second

/-- Groups are the same up to their order if they put the same items together. -/
theorem AreGroups.perm (areGroups : AreGroups groups) (areOthers : AreGroups others)
    (same : ∀ item other, InOneGroup groups item other ↔ InOneGroup others item other) :
    (groups.map Multiset.ofList).Perm (others.map Multiset.ofList) := by
  refine (List.perm_ext_iff_of_nodup areGroups.nodup_map_coe areOthers.nodup_map_coe).mpr ?_
  exact fun group => ⟨areGroups.mem_map_coe areOthers same,
    areOthers.mem_map_coe areGroups fun item other => (same item other).symm⟩

end Groups

theorem areGroups_cycles (declarations : List Declaration) :
    AreGroups (dependencyGraph declarations).cycles where
  distinct := fun _ isCycle => (isProper_dependencyGraph declarations).distinct.sublist
    (Digraph.cycle_sublist_nodes (isProper_dependencyGraph declarations) isCycle)
  nonempty := fun _ isCycle => Digraph.cycle_ne_nil (isProper_dependencyGraph declarations) isCycle
  disjoint := Digraph.cycles_disjoint (isProper_dependencyGraph declarations)

/-- Reordered declarations have the same cycles up to their order. -/
theorem cycles_dependencyGraph_perm {declarations reordered : List Declaration}
    (perm : reordered.Perm declarations) :
    ((dependencyGraph reordered).cycles.map Multiset.ofList).Perm
      ((dependencyGraph declarations).cycles.map Multiset.ofList) := by
  refine (areGroups_cycles reordered).perm (areGroups_cycles declarations) fun name other => ?_
  have sameSteps := referenceStep_congr fun declaration => perm.mem_iff (a := declaration)
  rw [InOneGroup, InOneGroup, Digraph.exists_mem_cycles_iff (isProper_dependencyGraph _),
    Digraph.exists_mem_cycles_iff (isProper_dependencyGraph _), hasEdge_dependencyGraph,
    hasEdge_dependencyGraph, sameSteps]

namespace DtoRegistry

variable {schemas reordered : List (String × SchemaNode)} {registry other : DtoRegistry}

/-- Pruning a reordered pool keeps the same declarations. -/
theorem prune_perm (perm : registry.pool.declarations.Perm other.pool.declarations)
    (roots : List DeclarationName) : (registry.prune roots).Perm (other.prune roots) := by
  have sameSteps := referenceStep_congr fun declaration => perm.mem_iff (a := declaration)
  have sameNames : ∀ name, name ∈ registry.pool.names ↔ name ∈ other.pool.names := fun name =>
    (perm.map Declaration.name).mem_iff
  have distinct : ∀ registry : DtoRegistry, (registry.prune roots).Nodup := fun registry =>
    registry.pool.distinct.of_map.sublist prune_sublist
  refine (List.perm_ext_iff_of_nodup (distinct registry) (distinct other)).mpr fun declaration => ?_
  simp only [mem_prune, LeadTo, perm.mem_iff, sameSteps, sameNames]

variable [Text.Conversions]

/-- Where the names of the pool have different default identifiers, none is changed. -/
theorem renamed_ofSchemas_eq_nil
    (apart : ((ofSchemas schemas).1.pool.names.map DeclarationName.defaultIdentifier?).Nodup) :
    (ofSchemas schemas).1.renamed = [] :=
  Disambiguation.renamed_eq_nil apart

/-- Another order of the component schemas reorders the pool and its warnings. -/
theorem ofSchemas_perm (distinct : (schemas.map Prod.fst).Nodup) (perm : reordered.Perm schemas)
    (apart : ((ofSchemas schemas).1.pool.names.map DeclarationName.defaultIdentifier?).Nodup) :
    (ofSchemas reordered).1.pool.declarations.Perm (ofSchemas schemas).1.pool.declarations ∧
      (ofSchemas reordered).1.renamed = (ofSchemas schemas).1.renamed ∧
      (ofSchemas reordered).2.Perm (ofSchemas schemas).2 := by
  obtain ⟨declarations, warnings⟩ := addSchemas_perm distinct perm
  have namesPerm : (ofSchemas reordered).1.pool.names.Perm (ofSchemas schemas).1.pool.names :=
    declarations.map Declaration.name
  have noneRenamed := renamed_ofSchemas_eq_nil apart
  have noneReordered : (ofSchemas reordered).1.renamed = [] :=
    renamed_ofSchemas_eq_nil
      ((namesPerm.map DeclarationName.defaultIdentifier?).nodup_iff.mpr apart)
  have warningsEq : ∀ entries : List (String × SchemaNode), (ofSchemas entries).2 =
      (addSchemas (entries.map Prod.fst) entries .empty).2 ++
        (ofSchemas entries).1.renamed.filterMap renameWarning? := fun _ => rfl
  refine ⟨declarations, noneReordered.trans noneRenamed.symm, ?_⟩
  rw [warningsEq, warningsEq, noneRenamed, noneReordered]
  exact warnings.append_right _

end DtoRegistry

end TypedClient
