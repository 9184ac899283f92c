import TypedClient.Proofs.TagModuleContents
import TypedClient.Proofs.WrittenModules

/-!
# Where the warnings of a client come from

Each kind of warning comes from one stage. So the warnings of a kind are those of that
stage, after the ones that came with the document.
-/

namespace TypedClient.ApiDocument

variable [Text.Conversions]

theorem kind_of_mem_collisions {plans : List ModulePlan} {warning : Warning}
    (member : warning ∈ plans.flatMap ModulePlan.collisions) :
    warning.kind = .declarationCollision := by
  obtain ⟨plan, _, isCollision⟩ := List.mem_flatMap.mp member
  obtain ⟨_, _, rfl⟩ := List.mem_map.mp isCollision
  rfl

section Kinds

variable (document : ApiDocument) (options : GenerationOptions)

/-- A kind that does not come from the pool. -/
theorem ofKind_clientWarnings {kind : Warning.Kind} (notDegraded : .schemaDegraded ≠ kind)
    (notRenamed : .declarationRenamed ≠ kind) :
    Warning.ofKind kind (document.clientWarnings options) =
      Warning.ofKind kind document.warnings ++
        Warning.ofKind kind (document.grouping (DtoRegistry.ofSchemas document.schemas).1
          options).warnings ++
        Warning.ofKind kind ((document.plans options).flatMap ModulePlan.collisions) := by
  have noneOfPool : Warning.ofKind kind (DtoRegistry.ofSchemas document.schemas).2 = [] := by
    refine Warning.ofKind_eq_nil fun warning member => ?_
    rcases DtoRegistry.kind_ofSchemas member with isKind | isKind
    · rwa [isKind]
    · rwa [isKind]
  simp only [clientWarnings, Warning.ofKind_append, noneOfPool, List.append_nil]

theorem ofKind_grouping_eq_nil {kind : Warning.Kind} (notDegraded : .schemaDegraded ≠ kind)
    (notTagRenamed : .tagRenamed ≠ kind) (notDuplicate : .duplicateFunctionName ≠ kind) :
    Warning.ofKind kind (document.grouping (DtoRegistry.ofSchemas document.schemas).1
      options).warnings = [] := by
  refine Warning.ofKind_eq_nil fun warning member => ?_
  rcases Grouping.kind_ofOperations member with isKind | isKind | isKind
  · rwa [isKind]
  · rwa [isKind]
  · rwa [isKind]

theorem ofKind_collisions_eq_nil {kind : Warning.Kind}
    (notCollision : .declarationCollision ≠ kind) :
    Warning.ofKind kind ((document.plans options).flatMap ModulePlan.collisions) = [] :=
  Warning.ofKind_eq_nil fun _ member => by rwa [kind_of_mem_collisions member]

theorem skipped_clientWarnings :
    Warning.ofKind .operationSkipped (document.clientWarnings options) =
      Warning.ofKind .operationSkipped document.warnings := by
  rw [ofKind_clientWarnings _ _ (by decide) (by decide),
    ofKind_grouping_eq_nil _ _ (by decide) (by decide) (by decide),
    ofKind_collisions_eq_nil _ _ (by decide), List.append_nil, List.append_nil]

theorem duplicates_clientWarnings :
    Warning.ofKind .duplicateFunctionName (document.clientWarnings options) =
      Warning.ofKind .duplicateFunctionName document.warnings ++
        Warning.ofKind .duplicateFunctionName
          (document.grouping (DtoRegistry.ofSchemas document.schemas).1 options).warnings := by
  rw [ofKind_clientWarnings _ _ (by decide) (by decide),
    ofKind_collisions_eq_nil _ _ (by decide), List.append_nil]

theorem collisions_clientWarnings :
    Warning.ofKind .declarationCollision (document.clientWarnings options) =
      Warning.ofKind .declarationCollision document.warnings ++
        (document.plans options).flatMap ModulePlan.collisions := by
  rw [ofKind_clientWarnings _ _ (by decide) (by decide),
    ofKind_grouping_eq_nil _ _ (by decide) (by decide) (by decide), List.append_nil,
    Warning.ofKind_eq_self fun _ => kind_of_mem_collisions]

end Kinds

end TypedClient.ApiDocument
