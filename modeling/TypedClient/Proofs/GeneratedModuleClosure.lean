import TypedClient.Generation
import TypedClient.Proofs.TagModuleGrowth

/-!
# Generated modules are self-contained

Generating a client never fails, and the module of a tag declares exactly the names
that are needed for the signatures of its methods. A name that is referred to is
never left undeclared, and nothing is declared in vain.
-/

namespace TypedClient

namespace ModulePlan

/-- All declarations of a module: those it takes from the pool, then its own. -/
def declarations (plan : ModulePlan) : List Declaration :=
  plan.dtos ++ plan.module.declarations.declarations

/-- The names that a module declares. -/
def names (plan : ModulePlan) : List DeclarationName :=
  plan.declarations.map Declaration.name

/-- The module declares exactly what its signatures need. -/
def IsSelfContained (plan : ModulePlan) : Prop :=
  ∀ name, name ∈ plan.names ↔ Needed plan.declarations plan.module.signatureNames name

/-- A plan in which every name can be written. -/
structure CanRender (plan : ModulePlan) : Prop where
  declarations : ∀ declaration ∈ plan.declarations,
    plan.module.table.CanRender declaration.name ∧
      ∀ name ∈ declaration.references, plan.module.table.CanRender name
  methods : ∀ method ∈ plan.module.methods, ∀ name ∈ method.references,
    plan.module.table.CanRender name

end ModulePlan

theorem TagModule.mem_referencedNames {module : TagModule} {name : DeclarationName} :
    name ∈ module.referencedNames ↔
      (∃ declaration ∈ module.declarations.declarations, name ∈ declaration.references) ∨
        name ∈ module.signatureNames := by
  simp [referencedNames, signatureNames]

namespace DtoRegistry

variable [Text.Conversions] {schemas : List (String × SchemaNode)} {module : TagModule}

theorem mem_dtos_plan {declaration : Declaration} :
    declaration ∈ ((ofSchemas schemas).1.plan module).dtos ↔
      declaration ∈ (ofSchemas schemas).1.pool.declarations ∧
        Needed (ofSchemas schemas).1.pool.declarations module.referencedNames
          declaration.name :=
  mem_neededDeclarations

/-- What a sound module needs of the pool is needed for its signatures. -/
theorem needed_of_needed_pool (sound : module.IsSound (schemas.map Prod.fst))
    {name : DeclarationName}
    (needed : Needed (ofSchemas schemas).1.pool.declarations module.referencedNames name) :
    Needed ((ofSchemas schemas).1.plan module).declarations module.signatureNames name := by
  induction needed with
  | root member =>
      rcases TagModule.mem_referencedNames.mp member with ⟨declaration, own, refers⟩ | signature
      · have ownNeeded := sound.needed declaration.name (DeclarationBuffer.name_mem_names own)
        exact .reference (ownNeeded.mono (List.subset_append_right _ _) (List.Subset.refl _))
          (List.mem_append_right _ own) refers
      · exact .root signature
  | reference poolNeeded declared refers ih =>
      have inlined := mem_dtos_plan.mpr ⟨declared, poolNeeded⟩
      exact .reference ih (List.mem_append_left _ inlined) refers

theorem names_plan_iff {name : DeclarationName} :
    name ∈ ((ofSchemas schemas).1.plan module).names ↔
      (name ∈ (ofSchemas schemas).1.pool.names ∧
        Needed (ofSchemas schemas).1.pool.declarations module.referencedNames name) ∨
      name ∈ module.declarations.names := by
  rw [ModulePlan.names, ModulePlan.declarations, List.map_append, List.mem_append]
  refine or_congr ?_ Iff.rfl
  simp only [List.mem_map, mem_dtos_plan, DeclarationBuffer.mem_names]
  constructor
  · rintro ⟨declaration, ⟨declared, needed⟩, rfl⟩
    exact ⟨⟨declaration, declared, rfl⟩, needed⟩
  · rintro ⟨⟨declaration, declared, rfl⟩, needed⟩
    exact ⟨declaration, ⟨declared, needed⟩, rfl⟩

/-- A covered name that a module refers to is declared in the module. -/
theorem mem_names_plan_of_covers {name : DeclarationName}
    (covered : module.declarations.Covers (schemas.map Prod.fst) name)
    (referenced : name ∈ module.referencedNames) :
    name ∈ ((ofSchemas schemas).1.plan module).names := by
  rcases covered with own | ⟨schema, known, rfl⟩
  · exact names_plan_iff.mpr (Or.inr own)
  · exact names_plan_iff.mpr (Or.inl ⟨root_mem_names_ofSchemas known, .root referenced⟩)

theorem isSelfContained_plan (sound : module.IsSound (schemas.map Prod.fst)) :
    ((ofSchemas schemas).1.plan module).IsSelfContained := by
  intro name
  constructor
  · intro declared
    rcases names_plan_iff.mp declared with ⟨_, needed⟩ | own
    · exact needed_of_needed_pool sound needed
    · exact (sound.needed name own).mono (List.subset_append_right _ _) (List.Subset.refl _)
  · intro needed
    refine needed.mem_of_closed ?_ ?_
    · intro root signature
      exact mem_names_plan_of_covers (sound.signaturesCovered root signature)
        (TagModule.mem_referencedNames.mpr (Or.inr signature))
    · intro declaration declared _ reference refers
      rcases List.mem_append.mp declared with inlined | own
      · -- the references of an inlined declaration stay in the pool
        obtain ⟨inPool, poolNeeded⟩ := mem_dtos_plan.mp inlined
        exact names_plan_iff.mpr (Or.inl ⟨references_mem_names_ofSchemas inPool refers,
          .reference poolNeeded inPool refers⟩)
      · exact mem_names_plan_of_covers (sound.closed declaration own reference refers)
          (TagModule.mem_referencedNames.mpr (Or.inl ⟨declaration, own, refers⟩))

/-- Names of the pool can be written with any table. -/
theorem canRender_of_mem_pool (table : NameTable) {name : DeclarationName}
    (declared : name ∈ (ofSchemas schemas).1.pool.names) : table.CanRender name := by
  obtain ⟨schema, owner⟩ := (isSound_ofSchemas schemas).schemaOwned name declared
  exact NameTable.canRender_of_schema owner

theorem canRender_plan (sound : module.IsSound (schemas.map Prod.fst)) :
    ((ofSchemas schemas).1.plan module).CanRender where
  declarations := by
    intro declaration member
    rcases List.mem_append.mp member with inlined | own
    · have inPool := (mem_dtos_plan.mp inlined).1
      exact ⟨canRender_of_mem_pool _ (DeclarationBuffer.name_mem_names inPool), fun name refers =>
        canRender_of_mem_pool _ (references_mem_names_ofSchemas inPool refers)⟩
    · exact ⟨sound.canRender (Or.inl (DeclarationBuffer.name_mem_names own)), fun name refers =>
        sound.canRender (sound.closed declaration own name refers)⟩
  methods := by
    intro method member name refers
    exact sound.canRender
      (sound.signaturesCovered name (List.mem_flatMap.mpr ⟨method, member, refers⟩))

theorem exists_generate_plan_eq_ok (sound : module.IsSound (schemas.map Prod.fst))
    (context : ModuleContext) :
    ∃ result, ((ofSchemas schemas).1.plan module).generate context = .ok result := by
  obtain ⟨code, rendered⟩ := TagModule.exists_render_eq_ok context
    (canRender_plan sound).declarations (canRender_plan sound).methods
  exact ⟨_, by simp only [ModulePlan.generate, rendered]; rfl⟩

end DtoRegistry

namespace ApiDocument

variable [Text.Conversions]

/-- The modules of the client of a document, each with the declarations of the pool
that it needs. -/
def plans (document : ApiDocument) (options : GenerationOptions) : List ModulePlan :=
  let registry := (DtoRegistry.ofSchemas document.schemas).1
  (document.grouping registry options).modules.map registry.plan

theorem exists_cycleNames_eq_ok (schemas : List (String × SchemaNode)) (table : NameTable) :
    ∃ cycles, (DtoRegistry.ofSchemas schemas).1.cycles.mapM
      (fun cycle => cycle.mapM (DeclarationName.render table)) = .ok cycles := by
  have succeeds : ∀ cycle ∈ (DtoRegistry.ofSchemas schemas).1.cycles,
      ∃ texts, cycle.mapM (DeclarationName.render table) = .ok texts := by
    intro cycle isCycle
    have namesRender : ∀ name ∈ cycle, ∃ text, name.render table = .ok text := fun name member =>
      DeclarationName.exists_render_eq_ok
        (DtoRegistry.canRender_of_mem_pool table (mem_names_of_mem_cycles isCycle member))
    obtain ⟨texts, rendered, _⟩ := exists_mapM_eq_ok namesRender
    exact ⟨texts, rendered⟩
  obtain ⟨cycles, rendered, _⟩ := exists_mapM_eq_ok succeeds
  exact ⟨cycles, rendered⟩

/-- The client of a document, given its cycles and its modules with their warnings. -/
def clientOf (document : ApiDocument) (options : GenerationOptions) (cycles : List (List String))
    (modules : List (GeneratedModule × List Warning)) : GeneratedClient :=
  let registry := (DtoRegistry.ofSchemas document.schemas).1
  let grouping := document.grouping registry options
  let plans := document.plans options
  { modules := modules.map Prod.fst
    index := indexText (grouping.modules.map TagModule.names)
    stats :=
      { tagsGenerated := plans.length
        operationsLoaded := document.operations.length
        methodsGenerated := ModulePlan.total (fun plan => plan.module.methods.length) plans
        dtoDeclarations := registry.pool.size
        dtoInlined := ModulePlan.total (fun plan => plan.dtos.length) plans
        localDeclarations := ModulePlan.total (fun plan => plan.module.declarations.size) plans
        cycles := cycles
        warnings :=
          document.warnings ++ (DtoRegistry.ofSchemas document.schemas).2 ++ grouping.warnings ++
            modules.flatMap Prod.snd } }

/-- Generating succeeds once the cycles and the modules can be written. -/
theorem generate_eq_ok {document : ApiDocument} {options : GenerationOptions}
    {cycles : List (List String)} {modules : List (GeneratedModule × List Warning)}
    (cyclesEq : (DtoRegistry.ofSchemas document.schemas).1.cycles.mapM
      (fun cycle => cycle.mapM (DeclarationName.render
        (.ofRenamed (DtoRegistry.ofSchemas document.schemas).1.renamed))) = .ok cycles)
    (modulesEq : (document.plans options).mapM
      (ModulePlan.generate (document.context options)) = .ok modules) :
    document.generate options = .ok (document.clientOf options cycles modules) := by
  rw [plans] at modulesEq
  simp only [generate, cyclesEq, modulesEq]
  rfl

theorem exists_client {document : ApiDocument} {options : GenerationOptions}
    {cycles : List (List String)} {modules : List (GeneratedModule × List Warning)}
    (cyclesEq : (DtoRegistry.ofSchemas document.schemas).1.cycles.mapM
      (fun cycle => cycle.mapM (DeclarationName.render
        (.ofRenamed (DtoRegistry.ofSchemas document.schemas).1.renamed))) = .ok cycles)
    (modulesEq : (document.plans options).mapM
      (ModulePlan.generate (document.context options)) = .ok modules) :
    ∃ client, document.generate options = .ok client ∧
      client.modules = modules.map Prod.fst :=
  ⟨_, generate_eq_ok cyclesEq modulesEq, rfl⟩

/-- Every document has a client. Its modules are those of the plans, in order, and
each declares exactly the names that its methods need. -/
theorem generate_selfContained (document : ApiDocument) (options : GenerationOptions) :
    ∃ client, document.generate options = .ok client ∧
      List.Forall₂ (fun plan generated => plan.IsSelfContained ∧
          ∃ warnings, plan.generate (document.context options) = .ok (generated, warnings))
        (document.plans options) client.modules := by
  have planSound : ∀ plan ∈ document.plans options, ∃ module,
      module.IsSound (document.schemas.map Prod.fst) ∧
        (DtoRegistry.ofSchemas document.schemas).1.plan module = plan := by
    intro plan member
    obtain ⟨module, moduleMem, planEq⟩ := List.mem_map.mp member
    exact ⟨module, Grouping.isSound_of_mem_modules moduleMem, planEq⟩
  have plansGenerate : ∀ plan ∈ document.plans options,
      ∃ result, plan.generate (document.context options) = .ok result := by
    intro plan member
    obtain ⟨module, sound, rfl⟩ := planSound plan member
    exact DtoRegistry.exists_generate_plan_eq_ok sound (document.context options)
  obtain ⟨cycles, cyclesEq⟩ := exists_cycleNames_eq_ok document.schemas
    (.ofRenamed (DtoRegistry.ofSchemas document.schemas).1.renamed)
  obtain ⟨modules, modulesEq, pairs⟩ := exists_mapM_eq_ok plansGenerate
  obtain ⟨client, succeeded, clientModules⟩ := exists_client cyclesEq modulesEq
  refine ⟨client, succeeded, ?_⟩
  rw [clientModules, List.forall₂_map_right_iff]
  have selfContained : ∀ plan ∈ document.plans options, plan.IsSelfContained := by
    intro plan member
    obtain ⟨module, sound, rfl⟩ := planSound plan member
    exact DtoRegistry.isSelfContained_plan sound
  have both := (List.forall₂_and_left _ _).mpr ⟨selfContained, pairs⟩
  exact both.imp fun plan result holds => ⟨holds.1, result.2, holds.2⟩

end ApiDocument

end TypedClient
