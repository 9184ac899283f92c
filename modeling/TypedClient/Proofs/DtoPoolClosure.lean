import TypedClient.Schema.Registry
import TypedClient.Proofs.SchemaResolutionGrowth

/-!
# The pool refers to itself only

Every component schema is declared under its own name, so the references between
the declarations of the pool never leave the pool, whatever the schemas are.
-/

namespace TypedClient

/-- A buffer whose declarations refer to covered names only. -/
def DeclarationBuffer.IsClosed (known : List String) (buffer : DeclarationBuffer) : Prop :=
  ∀ declaration ∈ buffer.declarations, ∀ name ∈ declaration.references,
    buffer.Covers known name

theorem Growth.isClosed {known : List String} {kind : Declaration → Prop}
    {types : List TypeExpr} {before after : DeclarationBuffer} {added : List Declaration}
    (growth : Growth known kind types before added after) (closed : before.IsClosed known) :
    after.IsClosed known := by
  intro declaration member
  rw [growth.extended, List.mem_append] at member
  rcases member with old | new
  · exact fun name refers => growth.covers (closed declaration old name refers)
  · exact growth.addedCovered declaration new

theorem DeclarationBuffer.IsClosed.register {known : List String}
    {buffer : DeclarationBuffer} {declaration : Declaration} (closed : buffer.IsClosed known)
    (covered : ∀ name ∈ declaration.references, buffer.Covers known name) :
    (buffer.register declaration).IsClosed known := by
  have grown : ∀ name, buffer.Covers known name →
      (buffer.register declaration).Covers known name := by
    rintro name (declared | component)
    · exact Or.inl (mem_names_register.mpr (Or.inl declared))
    · exact Or.inr component
  intro other member name refers
  rcases eq_or_mem_of_mem_register member with rfl | old
  · exact grown name (covered name refers)
  · exact grown name (closed other old name refers)

namespace DtoRegistry

/-- What the pool keeps while component schemas are added. -/
structure IsSound (known : List String) (pool : DeclarationBuffer) : Prop where
  closed : pool.IsClosed known
  schemaOwned : ∀ name ∈ pool.names, name.IsSchemaOwned

theorem isSound_empty (known : List String) : IsSound known .empty where
  closed := fun _ member => absurd member List.not_mem_nil
  schemaOwned := fun _ member => absurd member List.not_mem_nil

/-- What the name of a component schema is an alias of, if its schema is no object
shape. -/
def rootTarget (schema : String) (type : TypeExpr) : TypeExpr :=
  if type = .named (.ofSchema schema) then .any else type

/-- The root of an interface is registered already, so registering an alias for it
changes nothing. -/
theorem buffer_declareRoot (schema : String) (type : TypeExpr) (progress : Progress) :
    (declareRoot schema type progress).buffer =
      progress.buffer.register ⟨.ofSchema schema, .typeAlias (rootTarget schema type)⟩ := by
  unfold declareRoot rootTarget
  by_cases selfReference : type = .named (.ofSchema schema)
  · by_cases declared : progress.buffer.contains (.ofSchema schema) = true
    · simp only [if_pos selfReference, if_pos declared]
      exact (DeclarationBuffer.register_of_mem (DeclarationBuffer.contains_iff.mp declared)).symm
    · simp only [if_pos selfReference, if_neg declared]
      rfl
  · simp only [if_neg selfReference]
    rfl

theorem buffer_addSchema (known : List String) (pool : DeclarationBuffer) (schema : String)
    (node : SchemaNode) :
    (addSchema known pool schema node).buffer =
      (node.resolve known (.ofSchema schema) ⟨pool, []⟩).2.buffer.register
        ⟨.ofSchema schema,
          .typeAlias (rootTarget schema (node.typeUnder known (.ofSchema schema)))⟩ := by
  rw [← SchemaNode.fst_resolve node (.ofSchema schema) ⟨pool, []⟩, ← buffer_declareRoot]
  rfl

theorem mem_names_addSchema {known : List String} {pool : DeclarationBuffer} {schema : String}
    {node : SchemaNode} {name : DeclarationName} (member : name ∈ pool.names) :
    name ∈ (addSchema known pool schema node).buffer.names := by
  obtain ⟨added, growth⟩ := @SchemaNode.resolve_growth known node (.ofSchema schema) ⟨pool, []⟩
  rw [buffer_addSchema, DeclarationBuffer.mem_names_register, growth.names_eq]
  exact Or.inl (List.mem_append_left _ member)

theorem root_mem_names_addSchema (known : List String) (pool : DeclarationBuffer)
    (schema : String) (node : SchemaNode) :
    .ofSchema schema ∈ (addSchema known pool schema node).buffer.names := by
  rw [buffer_addSchema, DeclarationBuffer.mem_names_register]
  exact Or.inr rfl

theorem IsSound.addSchema {known : List String} {pool : DeclarationBuffer}
    (sound : IsSound known pool) (schema : String) (node : SchemaNode) :
    IsSound known (addSchema known pool schema node).buffer := by
  obtain ⟨added, growth⟩ := @SchemaNode.resolve_growth known node (.ofSchema schema) ⟨pool, []⟩
  rw [buffer_addSchema]
  constructor
  · refine (growth.isClosed sound.closed).register fun name refers => ?_
    apply growth.typesCovered name
    -- an alias that is not `any` refers to what the type refers to
    unfold rootTarget at refers
    split at refers
    · exact absurd refers (by simp [Declaration.references, DeclarationBody.types, namesIn,
        TypeExpr.name?])
    · exact refers
  · intro name member
    rcases DeclarationBuffer.mem_names_register.mp member with old | rfl
    · exact growth.forall_names sound.schemaOwned
        (fun _ shape => ⟨schema, shape.1.1.2.1⟩) name old
    · exact ⟨schema, rfl⟩

theorem addSchemas_cons (known : List String) (schema : String) (node : SchemaNode)
    (rest : List (String × SchemaNode)) (pool : DeclarationBuffer) :
    (addSchemas known ((schema, node) :: rest) pool).1 =
      (addSchemas known rest (addSchema known pool schema node).buffer).1 :=
  rfl

theorem IsSound.addSchemas {known : List String} {pool : DeclarationBuffer}
    (sound : IsSound known pool) (schemas : List (String × SchemaNode)) :
    IsSound known (addSchemas known schemas pool).1 := by
  induction schemas generalizing pool with
  | nil => exact sound
  | cons entry rest ih => exact ih (sound.addSchema entry.1 entry.2)

/-- What is declared stays declared, and every added schema has its root. -/
theorem mem_names_addSchemas {known : List String} {schemas : List (String × SchemaNode)}
    {pool : DeclarationBuffer} {name : DeclarationName}
    (member : name ∈ pool.names ∨ ∃ schema ∈ schemas.map Prod.fst, name = .ofSchema schema) :
    name ∈ (addSchemas known schemas pool).1.names := by
  induction schemas generalizing pool with
  | nil =>
      rcases member with old | ⟨schema, inEmpty, _⟩
      · exact old
      · exact absurd inEmpty List.not_mem_nil
  | cons entry rest ih =>
      rw [addSchemas_cons]
      apply ih
      rcases member with old | ⟨schema, schemaMem, rfl⟩
      · exact Or.inl (mem_names_addSchema old)
      · rcases List.mem_cons.mp schemaMem with rfl | later
        · exact Or.inl (root_mem_names_addSchema known pool entry.1 entry.2)
        · exact Or.inr ⟨schema, later, rfl⟩

/-- The names of the pool are of the family of components. -/
theorem family_of_mem_addSchemas {known : List String} {schemas : List (String × SchemaNode)}
    {pool : DeclarationBuffer} (ofFamily : ∀ name ∈ pool.names, name.family = .dto) :
    ∀ name ∈ (addSchemas known schemas pool).1.names, name.family = .dto := by
  induction schemas generalizing pool with
  | nil => exact ofFamily
  | cons entry rest ih =>
      rw [addSchemas_cons]
      refine ih fun name member => ?_
      rw [buffer_addSchema] at member
      obtain ⟨added, growth⟩ :=
        @SchemaNode.resolve_growth known entry.2 (.ofSchema entry.1) ⟨pool, []⟩
      rcases DeclarationBuffer.mem_names_register.mp member with old | rfl
      · exact growth.forall_names ofFamily (fun _ shape => shape.1.1.1) name old
      · rfl

variable [Text.Conversions]

theorem isSound_ofSchemas (schemas : List (String × SchemaNode)) :
    IsSound (schemas.map Prod.fst) (ofSchemas schemas).1.pool :=
  (isSound_empty _).addSchemas schemas

theorem family_of_mem_ofSchemas {schemas : List (String × SchemaNode)} {name : DeclarationName}
    (member : name ∈ (ofSchemas schemas).1.pool.names) : name.family = .dto :=
  family_of_mem_addSchemas (fun _ declared => absurd declared List.not_mem_nil) name member

theorem root_mem_names_ofSchemas {schemas : List (String × SchemaNode)} {schema : String}
    (known : schema ∈ schemas.map Prod.fst) :
    .ofSchema schema ∈ (ofSchemas schemas).1.pool.names :=
  mem_names_addSchemas (Or.inr ⟨schema, known, rfl⟩)

/-- What a declaration of the pool refers to is declared in the pool. -/
theorem references_mem_names_ofSchemas {schemas : List (String × SchemaNode)}
    {declaration : Declaration} {name : DeclarationName}
    (declared : declaration ∈ (ofSchemas schemas).1.pool.declarations)
    (refers : name ∈ declaration.references) : name ∈ (ofSchemas schemas).1.pool.names := by
  rcases (isSound_ofSchemas schemas).closed declaration declared name refers with
    member | ⟨schema, known, rfl⟩
  · exact member
  · exact root_mem_names_ofSchemas known

end DtoRegistry

end TypedClient
