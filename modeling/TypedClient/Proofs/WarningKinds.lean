import TypedClient.Generation

/-!
# Which stage gives which warnings

Warnings of different kinds come from different stages: lowering skips operations or
finds fault with a part of one, resolving degrades schemas, the pool renames its
declarations, grouping refuses methods and renames tags, and writing a module leaves
out declarations.
-/

namespace TypedClient

namespace Warning

inductive Kind where
  | schemaDegraded
  | operationSkipped
  | operationSpecific
  | duplicateFunctionName
  | declarationRenamed
  | declarationCollision
  | tagRenamed
  deriving DecidableEq, Repr

def kind : Warning → Kind
  | schemaDegraded .. => .schemaDegraded
  | operationSkipped .. => .operationSkipped
  | operationSpecific .. => .operationSpecific
  | duplicateFunctionName .. => .duplicateFunctionName
  | declarationRenamed .. => .declarationRenamed
  | declarationCollision .. => .declarationCollision
  | tagRenamed .. => .tagRenamed

/-- The warnings of a kind, in order. -/
def ofKind (kind : Kind) (warnings : List Warning) : List Warning :=
  warnings.filter fun warning => warning.kind = kind

variable {kind other : Kind} {warnings : List Warning}

theorem ofKind_append (others : List Warning) :
    ofKind kind (warnings ++ others) = ofKind kind warnings ++ ofKind kind others :=
  List.filter_append ..

theorem ofKind_eq_self (allKind : ∀ warning ∈ warnings, warning.kind = kind) :
    ofKind kind warnings = warnings :=
  List.filter_eq_self.mpr fun warning member => decide_eq_true (allKind warning member)

theorem ofKind_eq_nil (noneKind : ∀ warning ∈ warnings, warning.kind ≠ kind) :
    ofKind kind warnings = [] :=
  List.filter_eq_nil_iff.mpr fun warning member => by simpa using noneKind warning member

end Warning

theorem Degradation.kind_warning {origin : String} {degradations : List Degradation}
    {warning : Warning} (member : warning ∈ degradations.map (Degradation.warning origin)) :
    warning.kind = .schemaDegraded := by
  obtain ⟨_, _, rfl⟩ := List.mem_map.mp member
  rfl

namespace Operation

variable {known : List String} {warning : Warning}

theorem kind_resolveUnder {origin : String} {node : SchemaNode} {name : DeclarationName}
    {before : DeclarationBuffer}
    (member : warning ∈ (resolveUnder known origin node name before).warnings) :
    warning.kind = .schemaDegraded :=
  Degradation.kind_warning member

theorem kind_queryMembers {label : String} {owner : DeclarationName} {parameters : List Parameter}
    {before : DeclarationBuffer}
    (member : warning ∈ (queryMembers known label owner parameters before).warnings) :
    warning.kind = .schemaDegraded := by
  induction parameters generalizing before with
  | nil => exact absurd member List.not_mem_nil
  | cons parameter rest ih =>
      rcases List.mem_append.mp member with first | others
      · unfold resolveParameter at first
        split at first
        · exact absurd first List.not_mem_nil
        · exact kind_resolveUnder first
      · exact ih others

theorem kind_compileNamed {origin : String} {name : DeclarationName} {node : SchemaNode}
    {before : DeclarationBuffer}
    (member : warning ∈ (compileNamed known origin name node before).warnings) :
    warning.kind = .schemaDegraded := by
  have unchanged : (compileNamed known origin name node before).warnings =
      (resolveUnder known origin node name before).warnings := by
    simp only [compileNamed]
    split
    · split <;> rfl
    · rfl
  rw [unchanged] at member
  exact kind_resolveUnder member

/-- Compiling an operation does nothing worse than to degrade a schema. -/
theorem kind_compile [Text.Conversions] {operation : Operation}
    (member : warning ∈ (operation.compile known).2) :
    warning.kind = .schemaDegraded := by
  simp only [compile, List.mem_append] at member
  rcases member with (query | body) | response
  · unfold compileQuery at query
    split at query
    · exact absurd query List.not_mem_nil
    · exact kind_queryMembers query
  · unfold compileBody at body
    split at body
    · exact absurd body List.not_mem_nil
    · exact kind_compileNamed body
  · unfold compileResponse at response
    split at response
    · exact absurd response List.not_mem_nil
    · exact kind_compileNamed response

end Operation

theorem Grouping.kind_namesFor [Text.Conversions] {claims : List (String × String)}
    {tag : String} {warning : Warning} (member : warning ∈ (namesFor claims tag).2) :
    warning.kind = .tagRenamed := by
  simp only [namesFor] at member
  split at member
  · exact absurd member List.not_mem_nil
  · rw [List.mem_singleton.mp member]
    rfl

namespace DtoRegistry

variable {warning : Warning}

theorem kind_addSchemas {known : List String} {schemas : List (String × SchemaNode)}
    {pool : DeclarationBuffer} (member : warning ∈ (addSchemas known schemas pool).2) :
    warning.kind = .schemaDegraded := by
  induction schemas generalizing pool with
  | nil => exact absurd member List.not_mem_nil
  | cons entry rest ih =>
      rcases List.mem_append.mp member with first | others
      · exact Degradation.kind_warning first
      · exact ih others

theorem kind_ofSchemas [Text.Conversions] {schemas : List (String × SchemaNode)}
    (member : warning ∈ (ofSchemas schemas).2) :
    warning.kind = .schemaDegraded ∨ warning.kind = .declarationRenamed := by
  rcases List.mem_append.mp member with degraded | isRenamed
  · exact Or.inl (kind_addSchemas degraded)
  · obtain ⟨entry, _, isWarning⟩ := List.mem_filterMap.mp isRenamed
    obtain ⟨identifier, _, rfl⟩ := Option.map_eq_some_iff.mp isWarning
    exact Or.inr rfl

end DtoRegistry

/-- Lowering an operation entry skips it or finds fault with a part of it. -/
theorem Document.kind_outcome {outcome : Outcome} {warning : Warning}
    (member : warning ∈ outcome.warnings) :
    warning.kind = .operationSkipped ∨ warning.kind = .operationSpecific := by
  cases outcome with
  | skipped label fault =>
      rw [List.mem_singleton.mp member]
      exact Or.inl rfl
  | lowered operation issues =>
      obtain ⟨_, _, rfl⟩ := List.mem_map.mp member
      exact Or.inr rfl

end TypedClient
