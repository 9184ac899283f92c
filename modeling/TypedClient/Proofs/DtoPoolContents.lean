import TypedClient.Proofs.DtoPoolClosure
import TypedClient.Proofs.SchemaShapes

/-!
# What the pool holds

Every component schema has one declaration under its own name, after one interface
for each object shape nested in it; the pool holds nothing else. Names of different
schemas never meet, so no shape is lost to another, and every declared component has
the outline of its schema.
-/

namespace TypedClient.DtoRegistry

/-- The outline of a component schema. One that is nothing but a reference to itself
is untyped. -/
def rootOutline (known : List String) (schema : String) : SchemaNode → Outline
  | .reference pointer =>
      if schemaName? pointer = some schema then .any
      else SchemaNode.referenceOutline known pointer
  | node => node.outline known

/-- The declaration of a component schema: an interface if it is an object shape, and
an alias for its type otherwise. -/
def rootDeclaration (known : List String) (schema : String) : SchemaNode → Declaration
  | .object (some members) required =>
      ObjectShape.declaration known ⟨.ofSchema schema, members, required⟩
  | node =>
      ⟨.ofSchema schema, .typeAlias (rootTarget schema (node.typeUnder known (.ofSchema schema)))⟩

/-- The declarations of a component schema, the nested shapes first. -/
def schemaDeclarations (known : List String) (entry : String × SchemaNode) : List Declaration :=
  (entry.2.nestedShapes (.ofSchema entry.1)).map (ObjectShape.declaration known) ++
    [rootDeclaration known entry.1 entry.2]

variable {known : List String} {pool : DeclarationBuffer}

theorem name_rootDeclaration (schema : String) (node : SchemaNode) :
    (rootDeclaration known schema node).name = .ofSchema schema := by
  unfold rootDeclaration
  split <;> rfl

theorem rootDeclaration_eq_alias {schema : String} {node : SchemaNode}
    (noShape : ∀ members required, node ≠ .object (some members) required) :
    rootDeclaration known schema node = ⟨.ofSchema schema,
      .typeAlias (rootTarget schema (node.typeUnder known (.ofSchema schema)))⟩ := by
  cases node with
  | object members required =>
      cases members with
      | none => rfl
      | some members => exact absurd rfl (noShape members required)
  | _ => rfl

/-- Everything that a component schema declares is below its name. -/
theorem isBelow_of_mem_schemaDeclarations {schema : String} {node : SchemaNode}
    {declaration : Declaration} (member : declaration ∈ schemaDeclarations known (schema, node)) :
    declaration.name.IsBelow (.ofSchema schema) := by
  rcases List.mem_append.mp member with nested | root
  · obtain ⟨shape, shapeMem, rfl⟩ := List.mem_map.mp nested
    exact SchemaNode.isBelow_of_mem_nestedShapes shapeMem
  · rw [List.mem_singleton.mp root, name_rootDeclaration]
    exact .refl _

/-- Where nothing is declared below its name, a component schema declares its nested
shapes and its root. -/
theorem declarations_addSchema {schema : String} {node : SchemaNode}
    (keysDistinct : node.KeysDistinct) (fresh : pool.IsFreshBelow (.ofSchema schema)) :
    (addSchema known pool schema node).buffer.declarations =
      pool.declarations ++ schemaDeclarations known (schema, node) := by
  have resolved := @SchemaNode.declarations_resolve known node keysDistinct (.ofSchema schema)
    ⟨pool, []⟩ fresh
  rw [buffer_addSchema]
  by_cases isShape : ∃ members required, node = .object (some members) required
  · obtain ⟨members, required, rfl⟩ := isShape
    -- the root is among the resolved shapes, so that its alias is left out
    have registered : DeclarationName.ofSchema schema ∈
        ((SchemaNode.object (some members) required).resolve known (.ofSchema schema)
          ⟨pool, []⟩).2.buffer.names := by
      rw [DeclarationBuffer.mem_names_of_shapes resolved]
      exact Or.inr ⟨_, List.mem_append_right _ (List.mem_singleton_self _), rfl⟩
    rw [DeclarationBuffer.register_of_mem registered, resolved]
    simp only [schemaDeclarations, SchemaNode.shapesUnder, SchemaNode.nestedShapes,
      rootDeclaration, List.map_append, List.map_cons, List.map_nil]
  · have noShape : ∀ members required, node ≠ .object (some members) required :=
      fun members required isObject => isShape ⟨members, required, isObject⟩
    rw [SchemaNode.shapesUnder_eq_nestedShapes noShape] at resolved
    have unregistered : DeclarationName.ofSchema schema ∉
        (node.resolve known (.ofSchema schema) ⟨pool, []⟩).2.buffer.names := by
      rw [DeclarationBuffer.mem_names_of_shapes resolved]
      rintro (old | ⟨shape, shapeMem, isRoot⟩)
      · exact fresh.not_mem old
      · exact SchemaNode.ne_of_mem_nestedShapes rfl shapeMem isRoot
    rw [DeclarationBuffer.declarations_register_of_not_mem unregistered, resolved,
      schemaDeclarations, rootDeclaration_eq_alias noShape, List.append_assoc]

/-- Component schemas of different names add their declarations one after the other. -/
theorem declarations_addSchemas {schemas : List (String × SchemaNode)}
    (distinct : (schemas.map Prod.fst).Nodup)
    (keysDistinct : ∀ entry ∈ schemas, entry.2.KeysDistinct)
    (fresh : ∀ schema ∈ schemas.map Prod.fst, pool.IsFreshBelow (.ofSchema schema)) :
    (addSchemas known schemas pool).1.declarations =
      pool.declarations ++ schemas.flatMap (schemaDeclarations known) := by
  induction schemas generalizing pool with
  | nil => exact (List.append_nil _).symm
  | cons entry rest ih =>
      obtain ⟨schema, node⟩ := entry
      rw [List.map_cons, List.nodup_cons] at distinct
      have first := @declarations_addSchema known pool schema node
        (keysDistinct _ List.mem_cons_self) (fresh schema List.mem_cons_self)
      have freshRest : ∀ other ∈ rest.map Prod.fst,
          (addSchema known pool schema node).buffer.IsFreshBelow (.ofSchema other) := by
        intro other otherMem name declared below
        rcases (DeclarationBuffer.mem_names_of_extended first).mp declared with
          old | ⟨declaration, new, rfl⟩
        · exact fresh other (List.mem_cons_of_mem _ otherMem) name old below
        · -- a name has one owner
          have owners := (isBelow_of_mem_schemaDeclarations new).2.1.symm.trans below.2.1
          exact distinct.1 (NameOwner.schema.inj owners ▸ otherMem)
      have others := ih distinct.2
        (fun entry member => keysDistinct entry (List.mem_cons_of_mem _ member)) freshRest
      rw [addSchemas_cons, others, first, List.flatMap_cons, List.append_assoc]

theorem rootTarget_reference_self {schema pointer : String}
    (selfReference : schemaName? pointer = some schema) (name : DeclarationName) :
    rootTarget schema ((SchemaNode.reference pointer).typeUnder known name) = .any := by
  rw [SchemaNode.typeUnder_reference, selfReference, rootTarget]
  by_cases isKnown : schema ∈ known <;> simp [isKnown]

theorem rootTarget_reference_other {schema pointer : String}
    (different : schemaName? pointer ≠ some schema) (name : DeclarationName) :
    rootTarget schema ((SchemaNode.reference pointer).typeUnder known name) =
      (SchemaNode.reference pointer).typeUnder known name := by
  rw [rootTarget, if_neg]
  rw [SchemaNode.typeUnder_reference]
  cases target : schemaName? pointer with
  | none => simp
  | some other =>
      have differs : other ≠ schema := fun same => different (target.trans (congrArg some same))
      by_cases isKnown : other ∈ known <;> simp [isKnown, DeclarationName.ofSchema, differs]

/-- Where the shapes of a component schema are declared, its declaration has its
outline. -/
theorem unfolds_rootDeclaration {declarations : List Declaration} (schema : String)
    (node : SchemaNode)
    (declared : ∀ declaration ∈ schemaDeclarations known (schema, node),
      declaration ∈ declarations) :
    Unfolds declarations (rootDeclaration known schema node).body
      (rootOutline known schema node) := by
  have nested : ∀ shape ∈ node.nestedShapes (.ofSchema schema),
      shape.declaration known ∈ declarations := fun shape member =>
    declared _ (List.mem_append_left _ (List.mem_map_of_mem member))
  match node with
  | .primitive kind => exact .primitive kind
  | .any | .object none _ => exact .any
  | .array item =>
      have items := SchemaNode.unfolds_typeUnder item
        (SchemaNode.child_ne_ofSchema (.ofSchema schema) SchemaNode.itemKey) nested
      exact .array items
  | .object (some members) required =>
      exact SchemaNode.unfolds_propertiesUnder members required _ nested
  | .reference pointer =>
      simp only [rootDeclaration, rootOutline]
      by_cases selfReference : schemaName? pointer = some schema
      · rw [if_pos selfReference, rootTarget_reference_self selfReference]
        exact .any
      · rw [if_neg selfReference, rootTarget_reference_other selfReference]
        exact SchemaNode.unfolds_reference pointer _

theorem declarations_ofSchemas [Text.Conversions] {schemas : List (String × SchemaNode)}
    (distinct : (schemas.map Prod.fst).Nodup)
    (keysDistinct : ∀ entry ∈ schemas, entry.2.KeysDistinct) :
    (ofSchemas schemas).1.pool.declarations =
      schemas.flatMap (schemaDeclarations (schemas.map Prod.fst)) :=
  declarations_addSchemas distinct keysDistinct fun _ _ _ declared =>
    absurd declared List.not_mem_nil

/-- The pool of a map of component schemas is the list of their declarations, and a
component has the outline of its schema and no other. -/
theorem ofSchemas_faithful [Text.Conversions] (schemas : List (String × SchemaNode))
    (distinct : (schemas.map Prod.fst).Nodup)
    (keysDistinct : ∀ entry ∈ schemas, entry.2.KeysDistinct) :
    (ofSchemas schemas).1.pool.declarations =
        schemas.flatMap (schemaDeclarations (schemas.map Prod.fst)) ∧
      ∀ entry ∈ schemas, ∀ outline,
        (∃ body, ⟨.ofSchema entry.1, body⟩ ∈ (ofSchemas schemas).1.pool.declarations ∧
            Unfolds (ofSchemas schemas).1.pool.declarations body outline) ↔
          outline = rootOutline (schemas.map Prod.fst) entry.1 entry.2 := by
  have listed := declarations_ofSchemas distinct keysDistinct
  refine ⟨listed, ?_⟩
  rintro ⟨schema, node⟩ member outline
  have inPool : ∀ declaration ∈ schemaDeclarations (schemas.map Prod.fst) (schema, node),
      declaration ∈ (ofSchemas schemas).1.pool.declarations := by
    intro declaration declared
    rw [listed]
    exact List.mem_flatMap.mpr ⟨_, member, declared⟩
  have rootInPool : ⟨.ofSchema schema, (rootDeclaration (schemas.map Prod.fst) schema node).body⟩ ∈
      (ofSchemas schemas).1.pool.declarations := by
    rw [← @name_rootDeclaration (schemas.map Prod.fst) schema node]
    exact inPool _ (List.mem_append_right _ (List.mem_singleton_self _))
  have rootUnfolds := unfolds_rootDeclaration schema node inPool
  have poolDistinct := (ofSchemas schemas).1.pool.distinct
  constructor
  · rintro ⟨body, declared, unfolds⟩
    rw [body_unique poolDistinct declared rootInPool] at unfolds
    exact unfolds.unique poolDistinct rootUnfolds
  · rintro rfl
    exact ⟨_, rootInPool, rootUnfolds⟩

section Sample

attribute [local instance] Text.Conversions.unchanged

/-- Components that are an object, an array of arrays and a reference to itself. -/
def sampleSchemas : List (String × SchemaNode) :=
  [("Order", .object (some [
      ("lines", .array (.object (some [("sku", .primitive .text)]) ["sku"])),
      ("next", .reference "#/components/schemas/Order")]) ["lines"]),
    ("Matrix", .array (.array (.object (some [("cell", .any)]) []))),
    ("Loop", .reference "#/components/schemas/Loop")]

theorem names_ofSchemas_sample :
    (sampleSchemas.map Prod.fst).Nodup ∧ (∀ entry ∈ sampleSchemas, entry.2.KeysDistinct) ∧
      (ofSchemas sampleSchemas).1.pool.names =
        [(DeclarationName.ofSchema "Order").child "lines", .ofSchema "Order",
          (DeclarationName.ofSchema "Matrix").child "item", .ofSchema "Matrix",
          .ofSchema "Loop"] := by
  have distinct : (sampleSchemas.map Prod.fst).Nodup := by decide
  have keysDistinct : ∀ entry ∈ sampleSchemas, entry.2.KeysDistinct := by
    simp [sampleSchemas, SchemaNode.KeysDistinct, SchemaNode.MembersKeysDistinct]
  refine ⟨distinct, keysDistinct, ?_⟩
  rw [DeclarationBuffer.names, (ofSchemas_faithful sampleSchemas distinct keysDistinct).1]
  rfl

end Sample

end TypedClient.DtoRegistry
