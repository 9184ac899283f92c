import TypedClient.Proofs.KeyRenaming
import TypedClient.Proofs.WrittenModules

/-!
# Keys leave no trace in the text

The text of a module has the method names of its operations in the place of their keys.
So a module with renumbered operations is the same text, takes the same declarations from
the pool and leaves out the same ones.
-/

namespace TypedClient

variable (renumber : Equiv.Perm Nat)

def NameTable.rekey (table : NameTable) : NameTable :=
  { table with functions := table.functions.map fun binding => (renumber binding.1, binding.2) }

/-- The module with renumbered operations, under some names. -/
def TagModule.rekey (names : TagNames) (module : TagModule) : TagModule :=
  ⟨module.tag, names, module.methods.map (ClientMethod.rekey renumber),
    module.declarations.rekey renumber, module.table.rekey renumber⟩

theorem NameTable.function?_rekey (table : NameTable) (key : Nat) :
    (table.rekey renumber).function? (renumber key) = table.function? key := by
  obtain ⟨functions, renamed⟩ := table
  simp only [function?, rekey]
  induction functions with
  | nil => rfl
  | cons binding rest ih =>
      obtain ⟨other, function⟩ := binding
      have sameKey : (renumber key == renumber other) = (key == other) := by
        rw [Bool.eq_iff_iff, beq_iff_eq, beq_iff_eq, renumber.injective.eq_iff]
      simp only [List.map_cons, List.lookup_cons, sameKey, ih]

/-- A table that renames no names of operations. -/
def NameTable.RenamesSchemas (table : NameTable) : Prop :=
  ∀ name : DeclarationName, ∀ key, name.owner = .operation key → table.renamed.lookup name = none

variable {renumber}

theorem TagModule.mem_referencedNames_rekey {module : TagModule} {names : TagNames}
    {name : DeclarationName} :
    name ∈ (module.rekey renumber names).referencedNames ↔
      ∃ own ∈ module.referencedNames, own.rekey renumber = name := by
  simp only [mem_referencedNames, signatureNames, rekey,
    DeclarationBuffer.declarations_rekey, List.mem_flatMap, List.mem_map]
  constructor
  · rintro (⟨_, ⟨declaration, declared, rfl⟩, refers⟩ | ⟨_, ⟨method, methodMem, rfl⟩, refers⟩)
    · obtain ⟨own, ownRefers, rfl⟩ := Declaration.mem_references_mapNames.mp refers
      exact ⟨own, Or.inl ⟨declaration, declared, ownRefers⟩, rfl⟩
    · obtain ⟨own, ownRefers, rfl⟩ := ClientMethod.mem_references_mapNames.mp refers
      exact ⟨own, Or.inr ⟨method, methodMem, ownRefers⟩, rfl⟩
  · rintro ⟨own, ⟨declaration, declared, refers⟩ | ⟨method, methodMem, refers⟩, rfl⟩
    · exact Or.inl ⟨_, ⟨declaration, declared, rfl⟩,
        Declaration.mem_references_mapNames.mpr ⟨own, refers, rfl⟩⟩
    · exact Or.inr ⟨_, ⟨method, methodMem, rfl⟩,
        ClientMethod.mem_references_mapNames.mpr ⟨own, refers, rfl⟩⟩

variable [Text.Conversions] (renumber)

/-- The renumbered name is written with the renumbered table as the name with the table. -/
theorem DeclarationName.render_rekey {table : NameTable} (renames : table.RenamesSchemas)
    {name : DeclarationName} (canRender : table.CanRender name) :
    (name.rekey renumber).render (table.rekey renumber) = name.render table := by
  obtain ⟨family, owner, keys⟩ := name
  cases owner with
  | schema schema => rfl
  | operation key =>
      obtain ⟨function, bound⟩ := canRender key rfl
      have rekeyedBound := (table.function?_rekey renumber key).trans bound
      have unlisted := renames ⟨family, .operation key, keys⟩ key rfl
      have rekeyedUnlisted := renames ⟨family, .operation (renumber key), keys⟩ _ rfl
      simp only [render, rekey, NameOwner.rekey, unlisted, bound, rekeyedBound]
      rw [show (table.rekey renumber).renamed = table.renamed from rfl, rekeyedUnlisted]
      rfl

section Writing

variable {table : NameTable}

theorem ClientMethod.render_rekey (renames : table.RenamesSchemas) {method : ClientMethod}
    (canRender : ∀ name ∈ method.references, table.CanRender name) :
    (method.rekey renumber).render (table.rekey renumber) = method.render table :=
  ClientMethod.render_mapNames fun name refers =>
    DeclarationName.render_rekey renumber renames (canRender name refers)

theorem Declaration.render_rekey (renames : table.RenamesSchemas) {declaration : Declaration}
    (canRender : table.CanRender declaration.name ∧
      ∀ name ∈ declaration.references, table.CanRender name) :
    (declaration.rekey renumber).render (table.rekey renumber) = declaration.render table :=
  Declaration.render_mapNames (DeclarationName.render_rekey renumber renames canRender.1)
    fun name refers => DeclarationName.render_rekey renumber renames (canRender.2 name refers)

theorem declarationBlocks_rekey (renames : table.RenamesSchemas) (tag : String)
    {declarations : List Declaration}
    (canRender : ∀ declaration ∈ declarations, table.CanRender declaration.name ∧
      ∀ name ∈ declaration.references, table.CanRender name) :
    declarationBlocks (table.rekey renumber) tag []
        (declarations.map (Declaration.rekey renumber)) =
      declarationBlocks table tag [] declarations :=
  declarationBlocks_mapNames
    (fun declaration member =>
      DeclarationName.render_rekey renumber renames (canRender declaration member).1)
    fun declaration member name refers =>
      DeclarationName.render_rekey renumber renames ((canRender declaration member).2 name refers)

end Writing

/-- Two plans of a tag that differ in the keys of operations and the names of the tag
alone. -/
structure ModulePlan.IsAlike (plan other : ModulePlan) : Prop where
  tag_eq : other.module.tag = plan.module.tag
  dtos_eq : other.dtos = plan.dtos
  renumbered : ∃ renumber : Equiv.Perm Nat,
    other.module.methods = plan.module.methods.map (ClientMethod.rekey renumber) ∧
    other.module.declarations.declarations =
      plan.module.declarations.declarations.map (Declaration.rekey renumber)
  methodTexts : ∃ texts,
    plan.module.methods.mapM (ClientMethod.render plan.module.table) = .ok texts ∧
      other.module.methods.mapM (ClientMethod.render other.module.table) = .ok texts
  declarationTexts : ∃ texts,
    plan.declarations.mapM (Declaration.render plan.module.table) = .ok texts ∧
      other.declarations.mapM (Declaration.render other.module.table) = .ok texts
  /-- The declarations that are written, with a warning for each of the others. -/
  blocks : ∃ blocks warnings,
    declarationBlocks plan.module.table plan.module.tag [] plan.declarations =
        (.ok blocks, warnings) ∧
      declarationBlocks other.module.table other.module.tag [] other.declarations =
        (.ok blocks, warnings)
  code : other.module.names = plan.module.names → ∀ context, ∃ result,
    plan.generate context = .ok result ∧ other.generate context = .ok result

namespace DtoRegistry

variable {schemas : List (String × SchemaNode)} {module : TagModule} {names : TagNames}

theorem rekey_of_mem_pool {name : DeclarationName}
    (declared : name ∈ (ofSchemas schemas).1.pool.names) : name.rekey renumber = name :=
  DeclarationName.rekey_of_schemaOwned ((isSound_ofSchemas schemas).schemaOwned name declared)

/-- What the pool needs for some roots, it needs for the renumbered ones. -/
theorem needed_rekey {roots : List DeclarationName} (others : List DeclarationName)
    (rootsMem : ∀ root ∈ roots, root.rekey renumber ∈ others) {name : DeclarationName}
    (needed : Needed (ofSchemas schemas).1.pool.declarations roots name) :
    Needed (ofSchemas schemas).1.pool.declarations others (name.rekey renumber) := by
  induction needed with
  | root member => exact .root (rootsMem _ member)
  | reference _ declared refers ih =>
      rw [rekey_of_mem_pool renumber (DeclarationBuffer.name_mem_names declared)] at ih
      rw [rekey_of_mem_pool renumber (references_mem_names_ofSchemas declared refers)]
      exact .reference ih declared refers

theorem dtos_plan_rekey :
    ((ofSchemas schemas).1.plan (module.rekey renumber names)).dtos =
      ((ofSchemas schemas).1.plan module).dtos := by
  refine List.filter_congr fun declaration declared => ?_
  have name_mem := DeclarationBuffer.name_mem_names declared
  rw [Bool.eq_iff_iff, List.contains_iff_mem, List.contains_iff_mem,
    mem_reachable_dependencyGraph, mem_reachable_dependencyGraph]
  -- names of the pool stay, so what is needed there can be carried forth and back
  refine and_congr_right fun _ => ⟨fun needed => ?_, fun needed => ?_⟩
  · have back := needed_rekey renumber.symm module.referencedNames
      (fun root member => ?_) needed
    · rwa [rekey_of_mem_pool _ name_mem] at back
    · obtain ⟨own, ownMem, rfl⟩ := TagModule.mem_referencedNames_rekey.mp member
      rwa [DeclarationName.rekey_symm_rekey]
  · have there := needed_rekey renumber (module.rekey renumber names).referencedNames
      (fun root member => TagModule.mem_referencedNames_rekey.mpr ⟨root, member, rfl⟩) needed
    rwa [rekey_of_mem_pool _ name_mem] at there

theorem declarations_plan_rekey (names : TagNames) :
    ((ofSchemas schemas).1.plan (module.rekey renumber names)).declarations =
      ((ofSchemas schemas).1.plan module).declarations.map (Declaration.rekey renumber) := by
  have dtosStay : ((ofSchemas schemas).1.plan module).dtos.map (Declaration.rekey renumber) =
      ((ofSchemas schemas).1.plan module).dtos := by
    refine (List.map_congr_left fun declaration member => ?_).trans (List.map_id _)
    have inPool := (mem_dtos_plan.mp member).1
    exact Declaration.mapNames_eq_self
      (rekey_of_mem_pool renumber (DeclarationBuffer.name_mem_names inPool))
      fun name refers => rekey_of_mem_pool renumber (references_mem_names_ofSchemas inPool refers)
  rw [ModulePlan.declarations, ModulePlan.declarations, dtos_plan_rekey, List.map_append,
    dtosStay]
  rfl

/-- Renumbering the operations of a module changes no text. -/
theorem isAlike_plan_rekey (sound : module.IsSound (schemas.map Prod.fst))
    (renames : module.table.RenamesSchemas) :
    ((ofSchemas schemas).1.plan module).IsAlike
      ((ofSchemas schemas).1.plan (module.rekey renumber names)) := by
  have canRender := canRender_plan sound
  obtain ⟨methods, methodsEq, -⟩ := exists_mapM_eq_ok fun method member =>
    ClientMethod.exists_render_eq_ok (canRender.methods method member)
  have otherMethodsEq := (mapM_map_congr fun method member =>
    ClientMethod.render_rekey renumber renames (canRender.methods method member)).trans methodsEq
  obtain ⟨declarations, declarationsEq, -⟩ := exists_mapM_eq_ok fun declaration member =>
    Declaration.exists_render_eq_ok (canRender.declarations declaration member).1
      (canRender.declarations declaration member).2
  have otherDeclarationsEq := (mapM_map_congr fun declaration member =>
    Declaration.render_rekey renumber renames
      (canRender.declarations declaration member)).trans declarationsEq
  obtain ⟨blocks, -, blocksEq⟩ :=
    @exists_declarationBlocks_eq _ module.table module.tag [] _ canRender.declarations
  have otherBlocksEq := (declarationBlocks_rekey renumber renames module.tag
    canRender.declarations).trans blocksEq
  rw [← declarations_plan_rekey renumber names] at otherDeclarationsEq otherBlocksEq
  refine
    { tag_eq := rfl
      dtos_eq := dtos_plan_rekey renumber
      renumbered := ⟨renumber, rfl, rfl⟩
      methodTexts := ⟨methods, methodsEq, otherMethodsEq⟩
      declarationTexts := ⟨declarations, declarationsEq, otherDeclarationsEq⟩
      blocks := ⟨blocks, _, blocksEq, otherBlocksEq⟩
      code := fun sameNames context =>
        ⟨_, ModulePlan.generate_eq_ok blocksEq methodsEq context, ?_⟩ }
  obtain rfl : names = module.names := sameNames
  exact ModulePlan.generate_eq_ok otherBlocksEq otherMethodsEq context

end DtoRegistry

end TypedClient
