import TypedClient.Render.Module
import TypedClient.Proofs.Attempts
import TypedClient.Proofs.DeclarationBufferGrowth

/-!
# Names that can be written

Writing fails on one kind of name only: that of an operation without a method name
in the table. Whatever mentions no such name can be written, from a single type up
to a whole module.
-/

namespace TypedClient

namespace NameTable

/-- A name owned by a schema, or by an operation with a method name in the table. -/
def CanRender (table : NameTable) (name : DeclarationName) : Prop :=
  ∀ key, name.owner = .operation key → ∃ function, table.function? key = some function

theorem canRender_of_schema {table : NameTable} {name : DeclarationName} {schema : String}
    (owner : name.owner = .schema schema) : table.CanRender name := by
  intro key isOperation
  rw [owner] at isOperation
  contradiction

theorem canRender_of_function {table : NameTable} {name : DeclarationName} {key : Nat}
    {function : String} (owner : name.owner = .operation key)
    (bound : table.function? key = some function) : table.CanRender name := by
  intro other isOperation
  rw [owner] at isOperation
  exact ⟨function, NameOwner.operation.inj isOperation ▸ bound⟩

end NameTable

theorem ClientMethod.mem_types_of_mem_typedArguments {method : ClientMethod}
    {argument : String × TypeExpr} (member : argument ∈ method.typedArguments) :
    argument.2 ∈ method.types := by
  simp only [typedArguments, List.mem_append, List.mem_map] at member
  simp only [types, List.mem_append, List.mem_map]
  rcases member with (⟨part, partMem, rfl⟩ | ⟨part, partMem, rfl⟩) | ⟨part, partMem, rfl⟩
  · exact Or.inl (Or.inl (Or.inl ⟨part, partMem, rfl⟩))
  · exact Or.inl (Or.inl (Or.inr partMem))
  · exact Or.inl (Or.inr partMem)

variable [Text.Conversions] {table : NameTable}

theorem DeclarationName.exists_render_eq_ok {name : DeclarationName}
    (canRender : table.CanRender name) : ∃ text, name.render table = .ok text := by
  unfold render
  cases table.renamed.lookup name with
  | some identifier => exact ⟨identifier, rfl⟩
  | none =>
      cases ownerEq : name.owner with
      | schema schema => exact ⟨_, rfl⟩
      | operation key =>
          obtain ⟨function, bound⟩ := canRender key ownerEq
          exact ⟨_, by simp only [bound]; rfl⟩

theorem TypeExpr.exists_render_eq_ok {type : TypeExpr}
    (canRender : ∀ name, type.name? = some name → table.CanRender name) :
    ∃ text, type.render table = .ok text := by
  induction type with
  | primitive kind => exact ⟨_, rfl⟩
  | any => exact ⟨_, rfl⟩
  | array item ih =>
      obtain ⟨text, rendered⟩ := ih canRender
      exact ⟨text ++ "[]", by rw [render, rendered]; rfl⟩
  | named name => exact DeclarationName.exists_render_eq_ok (canRender name rfl)

/-- A list of types whose names can be written. -/
theorem exists_render_of_namesIn {types : List TypeExpr}
    (canRender : ∀ name ∈ namesIn types, table.CanRender name) :
    ∀ type ∈ types, ∃ text, type.render table = .ok text := by
  intro type member
  exact TypeExpr.exists_render_eq_ok fun name hasName =>
    canRender name (mem_namesIn.mpr ⟨type, member, hasName⟩)

theorem Declaration.exists_render_eq_ok {declaration : Declaration}
    (nameCanRender : table.CanRender declaration.name)
    (referencesCanRender : ∀ name ∈ declaration.references, table.CanRender name) :
    ∃ text, declaration.render table = .ok text := by
  obtain ⟨name, body⟩ := declaration
  obtain ⟨text, nameText⟩ := DeclarationName.exists_render_eq_ok nameCanRender
  have typesRender := exists_render_of_namesIn referencesCanRender
  simp only [render, nameText]
  cases body with
  | typeAlias target =>
      obtain ⟨targetText, rendered⟩ := typesRender target (List.mem_singleton_self _)
      exact ⟨_, by simp only [rendered]; rfl⟩
  | interface properties =>
      have propertiesRender : ∀ property ∈ properties,
          ∃ line, Property.render table property = .ok line := by
        intro property member
        obtain ⟨typeText, rendered⟩ := typesRender property.type (List.mem_map_of_mem member)
        exact ⟨_, by rw [Property.render, rendered]; rfl⟩
      obtain ⟨members, rendered, _⟩ := exists_mapM_eq_ok propertiesRender
      exact ⟨_, by simp only [rendered]; rfl⟩

theorem ClientMethod.exists_render_eq_ok {method : ClientMethod}
    (canRender : ∀ name ∈ method.references, table.CanRender name) :
    ∃ text, method.render table = .ok text := by
  have typesRender := exists_render_of_namesIn canRender
  have argumentsRender : ∀ argument ∈ method.typedArguments,
      ∃ text, typedArgument table argument.1 argument.2 = .ok text := by
    intro argument member
    obtain ⟨text, rendered⟩ :=
      typesRender argument.2 (mem_types_of_mem_typedArguments member)
    exact ⟨_, by rw [typedArgument, rendered]; rfl⟩
  obtain ⟨arguments, argumentsEq, _⟩ := exists_mapM_eq_ok argumentsRender
  obtain ⟨list, listRendered⟩ : ∃ list, method.argumentList table = .ok list :=
    ⟨_, by rw [argumentList, argumentsEq]; rfl⟩
  obtain ⟨response, responseEq⟩ := typesRender method.response (by simp [types])
  exact ⟨_, by simp only [render, listRendered, responseEq]; rfl⟩

theorem exists_declarationBlocks_eq_ok {tag : String} {seen : List String}
    {declarations : List Declaration}
    (canRender : ∀ declaration ∈ declarations, table.CanRender declaration.name ∧
      ∀ name ∈ declaration.references, table.CanRender name) :
    ∃ blocks, (declarationBlocks table tag seen declarations).1 = .ok blocks := by
  induction declarations generalizing seen with
  | nil => exact ⟨[], rfl⟩
  | cons declaration rest ih =>
      obtain ⟨nameCanRender, referencesCanRender⟩ := canRender declaration List.mem_cons_self
      have restCanRender := fun other member =>
        canRender other (List.mem_cons_of_mem declaration member)
      obtain ⟨name, nameText⟩ := DeclarationName.exists_render_eq_ok nameCanRender
      simp only [declarationBlocks, nameText]
      split
      · exact ih restCanRender
      · obtain ⟨block, rendered⟩ :=
          Declaration.exists_render_eq_ok nameCanRender referencesCanRender
        obtain ⟨blocks, others⟩ := @ih (name :: seen) restCanRender
        exact ⟨block :: blocks, by simp only [rendered, others]; rfl⟩

theorem TagModule.exists_render_eq_ok {module : TagModule} {dtos : List Declaration}
    (context : ModuleContext)
    (declarationsCanRender : ∀ declaration ∈ dtos ++ module.declarations.declarations,
      module.table.CanRender declaration.name ∧
        ∀ name ∈ declaration.references, module.table.CanRender name)
    (methodsCanRender : ∀ method ∈ module.methods, ∀ name ∈ method.references,
      module.table.CanRender name) :
    ∃ code, (module.render dtos context).1 = .ok code := by
  obtain ⟨blocks, blocksEq⟩ :=
    @exists_declarationBlocks_eq_ok _ module.table module.tag [] _ declarationsCanRender
  obtain ⟨methods, methodsEq, _⟩ := exists_mapM_eq_ok fun method member =>
    ClientMethod.exists_render_eq_ok (methodsCanRender method member)
  exact ⟨_, by simp only [render, blocksEq, methodsEq]; rfl⟩

end TypedClient
