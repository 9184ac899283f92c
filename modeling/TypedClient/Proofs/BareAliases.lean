import Mathlib.Data.Fintype.Card
import Mathlib.Data.Set.Finite.List
import TypedClient.Proofs.DtoPoolContents

/-!
# Chains of aliases

A component that is nothing but a reference becomes an alias of another component.
Following aliases ends at an interface or at a type that is no name, unless the
references run in a circle of different components. A component that refers to itself
is caught and made untyped; a longer circle is not.
-/

namespace TypedClient

open Relation

/-- The declaration of a name is an alias of another name, without array layers. -/
def IsBareAlias (declarations : List Declaration) (name target : DeclarationName) : Prop :=
  ⟨name, .typeAlias (.named target)⟩ ∈ declarations

/-- Following bare aliases from a name ends. -/
inductive Settles (declarations : List Declaration) : DeclarationName → Prop where
  | shape {name : DeclarationName} {properties : List Property}
      (declared : ⟨name, .interface properties⟩ ∈ declarations) : Settles declarations name
  | type {name : DeclarationName} {type : TypeExpr}
      (declared : ⟨name, .typeAlias type⟩ ∈ declarations)
      (unnamed : ∀ other, type ≠ .named other) : Settles declarations name
  | follow {name target : DeclarationName} (isAlias : IsBareAlias declarations name target)
      (settles : Settles declarations target) : Settles declarations name

theorem DeclarationBuffer.settles_or_isBareAlias {buffer : DeclarationBuffer}
    {name : DeclarationName} (declared : name ∈ buffer.names) :
    Settles buffer.declarations name ∨ ∃ target, IsBareAlias buffer.declarations name target := by
  obtain ⟨⟨name, body⟩, member, rfl⟩ := mem_names.mp declared
  cases body with
  | interface properties => exact Or.inl (.shape member)
  | typeAlias type =>
      cases type with
      | named target => exact Or.inr ⟨target, member⟩
      | _ => exact Or.inl (.type member (by simp))

namespace DtoRegistry

/-- A component is nothing but a reference to another one. -/
def RefersTo (schemas : List (String × SchemaNode)) (schema other : String) : Prop :=
  ∃ pointer, (schema, .reference pointer) ∈ schemas ∧ schemaName? pointer = some other ∧
    other ∈ schemas.map Prod.fst ∧ other ≠ schema

/-- References lead from a component into a circle. -/
def LeadsToCircle (schemas : List (String × SchemaNode)) (schema : String) : Prop :=
  ∃ other, ReflTransGen (RefersTo schemas) schema other ∧ TransGen (RefersTo schemas) other other

variable {schemas : List (String × SchemaNode)} {schema other : String}

theorem RefersTo.isKnown (refers : RefersTo schemas schema other) :
    other ∈ schemas.map Prod.fst := by
  obtain ⟨-, -, -, isKnown, -⟩ := refers
  exact isKnown

theorem RefersTo.unique (distinct : (schemas.map Prod.fst).Nodup) {next : String}
    (refers : RefersTo schemas schema other) (refersToo : RefersTo schemas schema next) :
    other = next := by
  obtain ⟨pointer, member, isOther, -, -⟩ := refers
  obtain ⟨pointerToo, memberToo, isNext, -, -⟩ := refersToo
  have same := List.inj_on_of_nodup_map distinct member memberToo rfl
  obtain rfl : pointer = pointerToo := by simpa using same
  exact Option.some.inj (isOther.symm.trans isNext)

theorem LeadsToCircle.exists_refersTo (circle : LeadsToCircle schemas schema) :
    ∃ next, RefersTo schemas schema next := by
  obtain ⟨other, path, cycle⟩ := circle
  rcases ReflTransGen.cases_head path with rfl | ⟨next, refers, -⟩
  · obtain ⟨next, refers, -⟩ := TransGen.head'_iff.mp cycle
    exact ⟨next, refers⟩
  · exact ⟨next, refers⟩

theorem LeadsToCircle.next (distinct : (schemas.map Prod.fst).Nodup)
    (circle : LeadsToCircle schemas schema) (refers : RefersTo schemas schema other) :
    LeadsToCircle schemas other := by
  obtain ⟨last, path, cycle⟩ := circle
  rcases ReflTransGen.cases_head path with rfl | ⟨next, refersToo, rest⟩
  · -- the component is on the circle, so the circle starts as well from the next one
    obtain ⟨next, refersToo, rest⟩ := TransGen.head'_iff.mp cycle
    obtain rfl := refers.unique distinct refersToo
    exact ⟨other, .refl, TransGen.tail' rest refers⟩
  · obtain rfl := refers.unique distinct refersToo
    exact ⟨last, rest, cycle⟩

theorem body_rootDeclaration_eq_named_iff {known : List String} {node : SchemaNode}
    {target : DeclarationName} :
    (rootDeclaration known schema node).body = .typeAlias (.named target) ↔
      ∃ pointer other, node = .reference pointer ∧ schemaName? pointer = some other ∧
        other ∈ known ∧ other ≠ schema ∧ target = .ofSchema other := by
  cases node with
  | primitive _ | any | array _ =>
      simp [rootDeclaration, rootTarget, SchemaNode.typeUnder]
  | object members _ =>
      cases members <;>
        simp [rootDeclaration, rootTarget, SchemaNode.typeUnder, ObjectShape.declaration]
  | reference pointer =>
      simp only [rootDeclaration, SchemaNode.reference.injEq, exists_and_left, exists_eq_left']
      by_cases selfReference : schemaName? pointer = some schema
      · rw [rootTarget_reference_self selfReference]
        simp [selfReference]
      · rw [rootTarget_reference_other selfReference, SchemaNode.typeUnder_reference]
        cases referred : schemaName? pointer with
        | none => simp
        | some other =>
            have different : other ≠ schema := by simpa [referred] using selfReference
            by_cases isKnown : other ∈ known
            · simp [isKnown, different, eq_comm (a := target)]
            · simp [isKnown]

/-- The components on the way of the references from a component. -/
def ahead (schemas : List (String × SchemaNode)) (schema : String) : Set String :=
  {item | item ∈ schemas.map Prod.fst ∧ ReflTransGen (RefersTo schemas) schema item}

/-- Of finitely many components, none comes again without a circle. -/
theorem wellFounded_ahead (noCircle : ¬ LeadsToCircle schemas schema) :
    WellFounded fun later earlier : ahead schemas schema =>
      TransGen (RefersTo schemas) earlier.1 later.1 := by
  have finite : (ahead schemas schema).Finite :=
    (List.finite_toSet (schemas.map Prod.fst)).subset fun _ member => member.1
  have finiteType : Finite (ahead schemas schema) := finite.to_subtype
  have transitive : IsTrans (ahead schemas schema) fun later earlier =>
      TransGen (RefersTo schemas) earlier.1 later.1 :=
    ⟨fun _ _ _ first second => second.trans first⟩
  have irreflexive : Std.Irrefl fun later earlier : ahead schemas schema =>
      TransGen (RefersTo schemas) earlier.1 later.1 :=
    ⟨fun item cycle => noCircle ⟨item.1, item.2.2, cycle⟩⟩
  exact Finite.wellFounded_of_trans_of_irrefl _

section Pool

variable [Text.Conversions]

/-- The bare aliases of the pool are the references between its components. -/
theorem isBareAlias_iff (distinct : (schemas.map Prod.fst).Nodup)
    (keysDistinct : ∀ entry ∈ schemas, entry.2.KeysDistinct) {name target : DeclarationName} :
    IsBareAlias (ofSchemas schemas).1.pool.declarations name target ↔
      ∃ schema other, name = .ofSchema schema ∧ target = .ofSchema other ∧
        RefersTo schemas schema other := by
  rw [IsBareAlias, declarations_ofSchemas distinct keysDistinct, List.mem_flatMap]
  constructor
  · rintro ⟨⟨schema, node⟩, member, declared⟩
    rcases List.mem_append.mp declared with nested | root
    · -- nested shapes are interfaces
      obtain ⟨shape, -, isAlias⟩ := List.mem_map.mp nested
      simp [ObjectShape.declaration] at isAlias
    · have isRoot := List.mem_singleton.mp root
      have isAlias := (congrArg Declaration.body isRoot).symm
      obtain ⟨pointer, other, rfl, referred, isKnown, different, rfl⟩ :=
        body_rootDeclaration_eq_named_iff.mp isAlias
      have isName := congrArg Declaration.name isRoot
      rw [name_rootDeclaration] at isName
      exact ⟨schema, other, isName, rfl, pointer, member, referred, isKnown, different⟩
  · rintro ⟨schema, other, rfl, rfl, pointer, member, referred, isKnown, different⟩
    refine ⟨_, member, List.mem_append_right _ (List.mem_singleton.mpr ?_)⟩
    have isAlias := body_rootDeclaration_eq_named_iff.mpr
      ⟨pointer, other, rfl, referred, isKnown, different, rfl⟩
    rw [← isAlias, ← @name_rootDeclaration (schemas.map Prod.fst) schema (.reference pointer)]

theorem not_leadsToCircle_of_settles (distinct : (schemas.map Prod.fst).Nodup)
    (keysDistinct : ∀ entry ∈ schemas, entry.2.KeysDistinct) {name : DeclarationName}
    (settles : Settles (ofSchemas schemas).1.pool.declarations name)
    (isRoot : name = .ofSchema schema) : ¬ LeadsToCircle schemas schema := by
  intro circle
  obtain ⟨next, refers⟩ := circle.exists_refersTo
  have aliased := (isBareAlias_iff distinct keysDistinct).mpr ⟨schema, next, isRoot, rfl, refers⟩
  have poolDistinct := (ofSchemas schemas).1.pool.distinct
  induction settles generalizing schema next with
  | shape declared => cases body_unique poolDistinct declared aliased
  | type declared unnamed =>
      have same := body_unique poolDistinct declared aliased
      exact unnamed (.ofSchema next) (DeclarationBody.typeAlias.inj same)
  | follow isAlias _ ih =>
      cases body_unique poolDistinct isAlias aliased
      have circleAhead := circle.next distinct refers
      obtain ⟨later, refersOn⟩ := circleAhead.exists_refersTo
      exact ih rfl circleAhead later refersOn
        ((isBareAlias_iff distinct keysDistinct).mpr ⟨next, later, rfl, rfl, refersOn⟩)

theorem settles_of_not_leadsToCircle (distinct : (schemas.map Prod.fst).Nodup)
    (keysDistinct : ∀ entry ∈ schemas, entry.2.KeysDistinct)
    (isKnown : schema ∈ schemas.map Prod.fst) (noCircle : ¬ LeadsToCircle schemas schema) :
    Settles (ofSchemas schemas).1.pool.declarations (.ofSchema schema) := by
  suffices allSettle : ∀ item : ahead schemas schema,
      Settles (ofSchemas schemas).1.pool.declarations (.ofSchema item.1) from
    allSettle ⟨schema, isKnown, .refl⟩
  intro item
  induction item using (wellFounded_ahead noCircle).induction with
  | _ item ih =>
      rcases DeclarationBuffer.settles_or_isBareAlias (root_mem_names_ofSchemas item.2.1) with
        settled | ⟨target, isAlias⟩
      · exact settled
      · obtain ⟨current, next, isCurrent, rfl, refers⟩ :=
          (isBareAlias_iff distinct keysDistinct).mp isAlias
        have same : current = item.1 := by simpa [DeclarationName.ofSchema] using isCurrent.symm
        rw [same] at refers
        have nextIsKnown : next ∈ schemas.map Prod.fst := refers.isKnown
        have settled := ih ⟨next, nextIsKnown, item.2.2.tail refers⟩ (.single refers)
        exact .follow isAlias settled

/-- A declared name settles exactly if the references of its component do not run into a
circle. So the pool is free of circles of aliases if the references between different
components are. -/
theorem settles_ofSchemas_iff (schemas : List (String × SchemaNode))
    (distinct : (schemas.map Prod.fst).Nodup)
    (keysDistinct : ∀ entry ∈ schemas, entry.2.KeysDistinct) :
    ∀ name ∈ (ofSchemas schemas).1.pool.names,
      Settles (ofSchemas schemas).1.pool.declarations name ↔
        ∀ schema, name = .ofSchema schema → ¬ LeadsToCircle schemas schema := by
  intro name declared
  constructor
  · exact fun settles schema isRoot =>
      not_leadsToCircle_of_settles distinct keysDistinct settles isRoot
  · intro noCircle
    rcases DeclarationBuffer.settles_or_isBareAlias declared with settled | ⟨target, isAlias⟩
    · exact settled
    · obtain ⟨schema, next, rfl, -, refers⟩ :=
        (isBareAlias_iff distinct keysDistinct).mp isAlias
      obtain ⟨pointer, member, -⟩ := refers
      exact settles_of_not_leadsToCircle distinct keysDistinct (List.mem_map_of_mem member)
        (noCircle schema rfl)

end Pool

section Samples

attribute [local instance] Text.Conversions.unchanged

/-- A component that leads to a type over another one, and one that leads into a circle
of two. -/
def aliasSchemas : List (String × SchemaNode) :=
  [("Id", .reference "#/components/schemas/Key"), ("Key", .reference "#/components/schemas/Code"),
    ("Code", .primitive .text), ("Loop", .reference "#/components/schemas/Loop"),
    ("Ping", .reference "#/components/schemas/Pong"),
    ("Pong", .reference "#/components/schemas/Ping")]

theorem settles_ofSchemas_iff_aliasSchemas :
    (aliasSchemas.map Prod.fst).Nodup ∧ (∀ entry ∈ aliasSchemas, entry.2.KeysDistinct) ∧
      .ofSchema "Id" ∈ (ofSchemas aliasSchemas).1.pool.names ∧
      Settles (ofSchemas aliasSchemas).1.pool.declarations (.ofSchema "Id") := by
  have distinct : (aliasSchemas.map Prod.fst).Nodup := by decide
  have keysDistinct : ∀ entry ∈ aliasSchemas, entry.2.KeysDistinct := by
    simp [aliasSchemas, SchemaNode.KeysDistinct]
  have declared : .ofSchema "Id" ∈ (ofSchemas aliasSchemas).1.pool.names :=
    root_mem_names_ofSchemas (by decide)
  refine ⟨distinct, keysDistinct, declared, ?_⟩
  refine (settles_ofSchemas_iff aliasSchemas distinct keysDistinct _ declared).mpr ?_
  rintro schema isId circle
  obtain rfl : "Id" = schema := by simpa [DeclarationName.ofSchema] using isId
  have key : RefersTo aliasSchemas "Id" "Key" :=
    ⟨"#/components/schemas/Key", by simp [aliasSchemas], by decide, by decide, by decide⟩
  have code : RefersTo aliasSchemas "Key" "Code" :=
    ⟨"#/components/schemas/Code", by simp [aliasSchemas], by decide, by decide, by decide⟩
  obtain ⟨next, pointer, isReference, -⟩ :=
    ((circle.next distinct key).next distinct code).exists_refersTo
  simp [aliasSchemas] at isReference

theorem not_settles_aliasSchemas :
    ¬ ∀ name ∈ (ofSchemas aliasSchemas).1.pool.names,
      Settles (ofSchemas aliasSchemas).1.pool.declarations name := by
  intro allSettle
  have distinct : (aliasSchemas.map Prod.fst).Nodup := by decide
  have keysDistinct : ∀ entry ∈ aliasSchemas, entry.2.KeysDistinct := by
    simp [aliasSchemas, SchemaNode.KeysDistinct]
  have ping : RefersTo aliasSchemas "Ping" "Pong" :=
    ⟨"#/components/schemas/Pong", by simp [aliasSchemas], by decide, by decide, by decide⟩
  have pong : RefersTo aliasSchemas "Pong" "Ping" :=
    ⟨"#/components/schemas/Ping", by simp [aliasSchemas], by decide, by decide, by decide⟩
  have settles := allSettle (.ofSchema "Ping") (root_mem_names_ofSchemas (by decide))
  exact not_leadsToCircle_of_settles distinct keysDistinct settles rfl
    ⟨"Ping", .refl, .tail (.single ping) pong⟩

end Samples

end DtoRegistry

end TypedClient
