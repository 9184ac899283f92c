import TypedClient.Proofs.RenderingTotality

/-!
# Other names for the same text

Types, declarations and methods with other names in the place of their own are written
with the same text, if a table writes the other names as another table writes their own.
-/

namespace TypedClient

section Substitution

variable (change : DeclarationName → DeclarationName)

def TypeExpr.mapNames : TypeExpr → TypeExpr
  | primitive kind => primitive kind
  | any => any
  | array item => array item.mapNames
  | named name => named (change name)

def Property.mapNames (property : Property) : Property :=
  { property with type := property.type.mapNames change }

def DeclarationBody.mapNames : DeclarationBody → DeclarationBody
  | interface properties => interface (properties.map (Property.mapNames change))
  | typeAlias target => typeAlias (target.mapNames change)

def Declaration.mapNames (declaration : Declaration) : Declaration :=
  ⟨change declaration.name, declaration.body.mapNames change⟩

def PathArgument.mapNames (argument : PathArgument) : PathArgument :=
  { argument with type := argument.type.mapNames change }

def ClientMethod.mapNames (method : ClientMethod) : ClientMethod :=
  { method with
    pathArguments := method.pathArguments.map (PathArgument.mapNames change)
    query := method.query.map (TypeExpr.mapNames change)
    body := method.body.map (TypeExpr.mapNames change)
    response := method.response.mapNames change }

end Substitution

variable {change : DeclarationName → DeclarationName}

theorem TypeExpr.name?_mapNames (type : TypeExpr) :
    (type.mapNames change).name? = type.name?.map change := by
  induction type with
  | array item ih => exact ih
  | _ => rfl

theorem DeclarationBody.types_mapNames (body : DeclarationBody) :
    (body.mapNames change).types = body.types.map (TypeExpr.mapNames change) := by
  cases body with
  | interface properties =>
      simp only [mapNames, types, List.map_map]
      rfl
  | typeAlias target => rfl

theorem ClientMethod.types_mapNames (method : ClientMethod) :
    (method.mapNames change).types = method.types.map (TypeExpr.mapNames change) := by
  simp only [types, mapNames, List.map_append, List.map_map, Option.toList_map, List.map_cons,
    List.map_nil]
  rfl

theorem mem_namesIn_map {types : List TypeExpr} {name : DeclarationName} :
    name ∈ namesIn (types.map (TypeExpr.mapNames change)) ↔
      ∃ own ∈ namesIn types, change own = name := by
  simp only [mem_namesIn, List.mem_map]
  constructor
  · rintro ⟨_, ⟨type, member, rfl⟩, hasName⟩
    rw [TypeExpr.name?_mapNames] at hasName
    obtain ⟨own, ownName, rfl⟩ := Option.map_eq_some_iff.mp hasName
    exact ⟨own, ⟨type, member, ownName⟩, rfl⟩
  · rintro ⟨own, ⟨type, member, ownName⟩, rfl⟩
    exact ⟨_, ⟨type, member, rfl⟩, by rw [TypeExpr.name?_mapNames, ownName]; rfl⟩

theorem Declaration.mem_references_mapNames {declaration : Declaration} {name : DeclarationName} :
    name ∈ (declaration.mapNames change).references ↔
      ∃ own ∈ declaration.references, change own = name := by
  rw [references, mapNames, DeclarationBody.types_mapNames]
  exact mem_namesIn_map

theorem ClientMethod.mem_references_mapNames {method : ClientMethod} {name : DeclarationName} :
    name ∈ (method.mapNames change).references ↔ ∃ own ∈ method.references, change own = name := by
  rw [references, types_mapNames]
  exact mem_namesIn_map

theorem TypeExpr.mapNames_eq_self {type : TypeExpr}
    (stays : ∀ name, type.name? = some name → change name = name) :
    type.mapNames change = type := by
  induction type with
  | array item ih => exact congrArg array (ih stays)
  | named name => exact congrArg named (stays name rfl)
  | _ => rfl

theorem map_mapNames_eq_self {types : List TypeExpr}
    (stay : ∀ name ∈ namesIn types, change name = name) :
    ∀ type ∈ types, type.mapNames change = type := fun type member =>
  TypeExpr.mapNames_eq_self fun name hasName => stay name (mem_namesIn.mpr ⟨type, member, hasName⟩)

theorem Declaration.mapNames_eq_self {declaration : Declaration}
    (nameStays : change declaration.name = declaration.name)
    (referencesStay : ∀ name ∈ declaration.references, change name = name) :
    declaration.mapNames change = declaration := by
  have typesStay := map_mapNames_eq_self referencesStay
  obtain ⟨name, body⟩ := declaration
  have bodyStays : body.mapNames change = body := by
    cases body with
    | typeAlias target =>
        exact congrArg DeclarationBody.typeAlias (typesStay target (List.mem_singleton_self _))
    | interface properties =>
        have each : ∀ property ∈ properties, property.mapNames change = property :=
          fun property member => by
            rw [Property.mapNames, typesStay property.type (List.mem_map_of_mem member)]
        exact congrArg DeclarationBody.interface
          ((List.map_congr_left each).trans (List.map_id properties))
  rw [mapNames, nameStays, bodyStays]

theorem mapM_map_congr {ε α β γ : Type} {function : α → β} {other : β → Except ε γ}
    {original : α → Except ε γ} {items : List α}
    (same : ∀ item ∈ items, other (function item) = original item) :
    (items.map function).mapM other = items.mapM original := by
  induction items with
  | nil => rfl
  | cons item rest ih =>
      rw [List.map_cons, List.mapM_cons, List.mapM_cons, same item List.mem_cons_self,
        ih fun later member => same later (List.mem_cons_of_mem _ member)]

section Writing

variable [Text.Conversions] {table other : NameTable}

theorem TypeExpr.render_mapNames {type : TypeExpr}
    (same : ∀ name, type.name? = some name → (change name).render other = name.render table) :
    (type.mapNames change).render other = type.render table := by
  induction type with
  | array item ih => rw [mapNames, render, render, ih same]
  | named name => exact same name rfl
  | _ => rfl

theorem render_mapNames_of_namesIn {types : List TypeExpr}
    (same : ∀ name ∈ namesIn types, (change name).render other = name.render table) :
    ∀ type ∈ types, (type.mapNames change).render other = type.render table := fun type member =>
  TypeExpr.render_mapNames fun name hasName => same name (mem_namesIn.mpr ⟨type, member, hasName⟩)

theorem Declaration.render_mapNames {declaration : Declaration}
    (sameName : (change declaration.name).render other = declaration.name.render table)
    (same : ∀ name ∈ declaration.references, (change name).render other = name.render table) :
    (declaration.mapNames change).render other = declaration.render table := by
  have typesSame := render_mapNames_of_namesIn same
  obtain ⟨name, body⟩ := declaration
  cases body with
  | typeAlias target =>
      simp only [render, mapNames, DeclarationBody.mapNames, sameName,
        typesSame target (List.mem_singleton_self _)]
  | interface properties =>
      have propertiesSame : ∀ property ∈ properties,
          Property.render other (property.mapNames change) = Property.render table property := by
        intro property member
        rw [Property.render, Property.render, Property.mapNames,
          typesSame property.type (List.mem_map_of_mem member)]
      simp only [render, mapNames, DeclarationBody.mapNames, sameName,
        mapM_map_congr propertiesSame]

theorem ClientMethod.render_mapNames {method : ClientMethod}
    (same : ∀ name ∈ method.references, (change name).render other = name.render table) :
    (method.mapNames change).render other = method.render table := by
  have typesSame := render_mapNames_of_namesIn same
  have arguments : (method.mapNames change).typedArguments =
      method.typedArguments.map fun argument => (argument.1, argument.2.mapNames change) := by
    simp only [typedArguments, mapNames, List.map_append, List.map_map, Option.toList_map]
    rfl
  have argumentsSame : ∀ argument ∈ method.typedArguments,
      typedArgument other argument.1 (argument.2.mapNames change) =
        typedArgument table argument.1 argument.2 := by
    intro argument member
    have typeMem : argument.2 ∈ method.types := mem_types_of_mem_typedArguments member
    rw [typedArgument, typedArgument, typesSame argument.2 typeMem]
  have lists : (method.mapNames change).argumentList other = method.argumentList table := by
    rw [argumentList, argumentList, arguments, mapM_map_congr argumentsSame]
  have responses : (method.mapNames change).response.render other = method.response.render table :=
    typesSame method.response (by simp [types])
  have fields : (method.mapNames change).requestFields = method.requestFields := by
    simp only [requestFields, mapNames, Option.isSome_map]
  simp only [render, lists, responses, fields]
  rfl

/-- Tables that write the names of a declaration alike write the declaration alike. -/
theorem Declaration.render_congr {declaration : Declaration}
    (sameName : declaration.name.render other = declaration.name.render table)
    (same : ∀ name ∈ declaration.references, name.render other = name.render table) :
    declaration.render other = declaration.render table := by
  have stays : declaration.mapNames id = declaration := mapNames_eq_self rfl fun _ _ => rfl
  have rendered := @Declaration.render_mapNames id _ table other declaration sameName same
  rwa [stays] at rendered

theorem ClientMethod.render_congr {method : ClientMethod}
    (same : ∀ name ∈ method.references, name.render other = name.render table) :
    method.render other = method.render table := by
  have typeStays : TypeExpr.mapNames id = id :=
    funext fun type => TypeExpr.mapNames_eq_self fun _ _ => rfl
  have argumentStays : PathArgument.mapNames id = id :=
    funext fun argument => by rw [PathArgument.mapNames, typeStays]; rfl
  have stays : method.mapNames id = method := by simp [mapNames, typeStays, argumentStays]
  have rendered := @ClientMethod.render_mapNames id _ table other method same
  rwa [stays] at rendered

theorem declarationBlocks_mapNames {tag : String} {seen : List String}
    {declarations : List Declaration}
    (sameNames : ∀ declaration ∈ declarations,
      (change declaration.name).render other = declaration.name.render table)
    (same : ∀ declaration ∈ declarations, ∀ name ∈ declaration.references,
      (change name).render other = name.render table) :
    declarationBlocks other tag seen (declarations.map (Declaration.mapNames change)) =
      declarationBlocks table tag seen declarations := by
  induction declarations generalizing seen with
  | nil => rfl
  | cons declaration rest ih =>
      have sameName := sameNames declaration List.mem_cons_self
      have first := Declaration.render_mapNames sameName (same declaration List.mem_cons_self)
      have others := fun seen => @ih seen
        (fun later member => sameNames later (List.mem_cons_of_mem _ member))
        fun later member => same later (List.mem_cons_of_mem _ member)
      have sameRender : (declaration.mapNames change).name.render other =
          declaration.name.render table := sameName
      simp only [List.map_cons, declarationBlocks, sameRender, first, others]

end Writing

end TypedClient
