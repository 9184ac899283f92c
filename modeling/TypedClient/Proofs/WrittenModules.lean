import TypedClient.Proofs.FirstOccurrences
import TypedClient.Proofs.GeneratedModuleClosure

/-!
# What a generated module is made of

The text of a module holds the text of the first declaration of every identifier, in
order, and the texts of all methods. Every other declaration leaves a warning.
-/

namespace TypedClient

variable [Text.Conversions]

/-- The identifier of a name, if it can be written. -/
def DeclarationName.identifierIn (table : NameTable) (name : DeclarationName) : String :=
  match name.render table with
  | .ok identifier => identifier
  | .error _ => ""

def Declaration.identifierIn (table : NameTable) (declaration : Declaration) : String :=
  declaration.name.identifierIn table

theorem DeclarationName.render_eq_identifierIn {table : NameTable} {name : DeclarationName}
    (canRender : table.CanRender name) : name.render table = .ok (name.identifierIn table) := by
  obtain ⟨identifier, rendered⟩ := exists_render_eq_ok canRender
  rw [identifierIn, rendered]

/-- Of the declarations, the first of each identifier are written. -/
theorem exists_declarationBlocks_eq {table : NameTable} (tag : String) {seen : List String}
    {declarations : List Declaration}
    (canRender : ∀ declaration ∈ declarations, table.CanRender declaration.name ∧
      ∀ name ∈ declaration.references, table.CanRender name) :
    ∃ blocks, List.Forall₂ (fun declaration block => declaration.render table = .ok block)
        (firstsFrom (Declaration.identifierIn table) seen declarations) blocks ∧
      declarationBlocks table tag seen declarations = (.ok blocks,
        (repeatsFrom (Declaration.identifierIn table) seen declarations).map fun declaration =>
          .declarationCollision tag (declaration.identifierIn table)) := by
  induction declarations generalizing seen with
  | nil => exact ⟨[], .nil, rfl⟩
  | cons declaration rest ih =>
      obtain ⟨nameCanRender, referencesCanRender⟩ := canRender declaration List.mem_cons_self
      have restCanRender := fun other member =>
        canRender other (List.mem_cons_of_mem declaration member)
      have nameText : declaration.name.render table = .ok (declaration.identifierIn table) :=
        DeclarationName.render_eq_identifierIn nameCanRender
      simp only [declarationBlocks, nameText]
      rw [firstsFrom_cons, repeatsFrom_cons]
      by_cases known : declaration.identifierIn table ∈ seen
      · obtain ⟨blocks, written, others⟩ := @ih seen restCanRender
        refine ⟨blocks, ?_, ?_⟩
        · rw [if_pos known, firstsFrom, marks_cons_of_mem known]
          exact written
        · rw [if_pos known, repeatsFrom, marks_cons_of_mem known, List.map_cons]
          simp only [others, List.contains_iff_mem, known, if_true]
          rfl
      · obtain ⟨block, rendered⟩ :=
          Declaration.exists_render_eq_ok nameCanRender referencesCanRender
        obtain ⟨blocks, written, others⟩ :=
          @ih (declaration.identifierIn table :: seen) restCanRender
        refine ⟨block :: blocks, ?_, ?_⟩
        · rw [if_neg known]
          exact .cons rendered written
        · simp only [rendered, others, List.contains_iff_mem, known, if_false]
          rfl

/-- The code of a module with the texts of its declarations and its methods. -/
def TagModule.layout (module : TagModule) (context : ModuleContext) (blocks methods : List String) :
    String :=
  String.intercalate "\n\n"
    ([linterNotice ++ "\n" ++ context.banner, context.imports] ++ blocks ++
      [module.classText methods, module.instanceText]) ++ "\n"

namespace ModulePlan

/-- The identifier that a module writes for a name. -/
def identifierOf (plan : ModulePlan) (name : DeclarationName) : String :=
  name.identifierIn plan.module.table

/-- The declarations that are written: the first of every identifier. -/
def written (plan : ModulePlan) : List Declaration :=
  firsts (Declaration.identifierIn plan.module.table) plan.declarations

/-- The declarations that are left out, since their identifier is declared already. -/
def leftOut (plan : ModulePlan) : List Declaration :=
  repeats (Declaration.identifierIn plan.module.table) plan.declarations

/-- The warnings of leaving out declarations. -/
def collisions (plan : ModulePlan) : List Warning :=
  plan.leftOut.map fun declaration =>
    .declarationCollision plan.module.tag (plan.identifierOf declaration.name)

/-- A generated module is the text of the written declarations and the methods of a
plan. -/
structure IsWrittenAs (context : ModuleContext) (plan : ModulePlan) (generated : GeneratedModule)
    (blocks : List String) : Prop where
  tag_eq : generated.tag = plan.module.tag
  fileStem_eq : generated.fileStem = plan.module.names.fileStem
  blocks_written : List.Forall₂ (fun declaration block =>
    declaration.render plan.module.table = .ok block) plan.written blocks
  code : ∃ methods, List.Forall₂ (fun method text =>
      method.render plan.module.table = .ok text) plan.module.methods methods ∧
    generated.code = plan.module.layout context blocks methods

/-- A module is generated once its declarations and its methods are written. -/
theorem generate_eq_ok {plan : ModulePlan} {blocks methods : List String} {warnings : List Warning}
    (blocksEq : declarationBlocks plan.module.table plan.module.tag [] plan.declarations =
      (.ok blocks, warnings))
    (methodsEq : plan.module.methods.mapM (ClientMethod.render plan.module.table) = .ok methods)
    (context : ModuleContext) :
    plan.generate context = .ok (⟨plan.module.tag, plan.module.names.fileStem,
      plan.module.layout context blocks methods⟩, warnings) := by
  rw [declarations] at blocksEq
  simp only [generate, TagModule.render, blocksEq, methodsEq]
  rfl

theorem CanRender.exists_generate_eq {plan : ModulePlan} (canRender : plan.CanRender)
    (context : ModuleContext) :
    ∃ generated blocks, plan.generate context = .ok (generated, plan.collisions) ∧
      plan.IsWrittenAs context generated blocks := by
  obtain ⟨blocks, blocksWritten, blocksEq⟩ :=
    @exists_declarationBlocks_eq _ plan.module.table plan.module.tag [] _ canRender.declarations
  obtain ⟨methods, methodsEq, methodsWritten⟩ := exists_mapM_eq_ok fun method member =>
    ClientMethod.exists_render_eq_ok (canRender.methods method member)
  exact ⟨_, blocks, generate_eq_ok blocksEq methodsEq context, rfl, rfl, blocksWritten, methods,
    methodsWritten, rfl⟩

end ModulePlan

namespace ApiDocument

/-- The identifiers of the cycles. -/
def cycleNames (document : ApiDocument) : List (List String) :=
  let registry := (DtoRegistry.ofSchemas document.schemas).1
  registry.cycles.map fun cycle =>
    cycle.map (DeclarationName.identifierIn (.ofRenamed registry.renamed))

theorem mapM_cycles (document : ApiDocument) :
    (DtoRegistry.ofSchemas document.schemas).1.cycles.mapM
      (fun cycle => cycle.mapM (DeclarationName.render
        (.ofRenamed (DtoRegistry.ofSchemas document.schemas).1.renamed))) =
      .ok document.cycleNames := by
  refine mapM_eq_ok_map fun cycle isCycle => mapM_eq_ok_map fun name member => ?_
  exact DeclarationName.render_eq_identifierIn
    (DtoRegistry.canRender_of_mem_pool _ (mem_names_of_mem_cycles isCycle member))

theorem cycles_of_generate {document : ApiDocument} {options : GenerationOptions}
    {client : GeneratedClient}
    (generated : document.generate options = .ok client) :
    client.stats.cycles = document.cycleNames := by
  simp only [generate, mapM_cycles] at generated
  cases modulesEq : ((document.grouping (DtoRegistry.ofSchemas document.schemas).1
      options).modules.map (DtoRegistry.ofSchemas document.schemas).1.plan).mapM
        (ModulePlan.generate (document.context options)) with
  | error failure =>
      simp only [modulesEq] at generated
      cases generated
  | ok modules =>
      simp only [modulesEq] at generated
      rw [← Except.ok.inj generated]

theorem canRender_of_mem_plans {document : ApiDocument} {options : GenerationOptions}
    {plan : ModulePlan} (member : plan ∈ document.plans options) : plan.CanRender := by
  obtain ⟨module, moduleMem, rfl⟩ := List.mem_map.mp member
  exact DtoRegistry.canRender_plan (Grouping.isSound_of_mem_modules moduleMem)

/-- The warnings of a client: of lowering, of the pool, of grouping and of writing the
modules. -/
def clientWarnings (document : ApiDocument) (options : GenerationOptions) : List Warning :=
  let (registry, schemaWarnings) := DtoRegistry.ofSchemas document.schemas
  document.warnings ++ schemaWarnings ++ (document.grouping registry options).warnings ++
    (document.plans options).flatMap ModulePlan.collisions

/-- Every document has a client, which is written as its plans say. -/
theorem exists_written_client (document : ApiDocument) (options : GenerationOptions) :
    ∃ cycles modules, document.generate options =
        .ok (document.clientOf options cycles modules) ∧
      (document.clientOf options cycles modules).stats.warnings =
        document.clientWarnings options ∧
      List.Forall₂ (fun plan generated => ∃ blocks,
        plan.IsWrittenAs (document.context options) generated blocks)
          (document.plans options) (document.clientOf options cycles modules).modules := by
  obtain ⟨cycles, cyclesEq⟩ := exists_cycleNames_eq_ok document.schemas
    (.ofRenamed (DtoRegistry.ofSchemas document.schemas).1.renamed)
  have plansGenerate : ∀ plan ∈ document.plans options, ∃ result : GeneratedModule × List Warning,
      plan.generate (document.context options) = .ok result ∧ result.2 = plan.collisions ∧
        ∃ blocks, plan.IsWrittenAs (document.context options) result.1 blocks := by
    intro plan member
    obtain ⟨generated, blocks, succeeded, isWritten⟩ :=
      (canRender_of_mem_plans member).exists_generate_eq (document.context options)
    exact ⟨_, succeeded, rfl, blocks, isWritten⟩
  obtain ⟨modules, modulesEq, pairs⟩ := exists_mapM_eq_ok fun plan member =>
    (plansGenerate plan member).imp fun _ holds => holds.1
  have written : List.Forall₂ (fun plan result => result.2 = ModulePlan.collisions plan ∧
      ∃ blocks, plan.IsWrittenAs (document.context options) result.1 blocks)
        (document.plans options) modules := by
    refine ((List.forall₂_and_left _ _).mpr ⟨plansGenerate, pairs⟩).imp ?_
    rintro plan result ⟨⟨other, generated, isWritten⟩, same⟩
    obtain rfl := Except.ok.inj (generated.symm.trans same)
    exact isWritten
  refine ⟨cycles, modules, generate_eq_ok cyclesEq modulesEq, ?_, ?_⟩
  · have collisions :
        modules.map Prod.snd = (document.plans options).map ModulePlan.collisions := by
      rw [← List.forall₂_eq_eq_eq, List.forall₂_map_left_iff, List.forall₂_map_right_iff]
      exact written.flip.imp fun _ _ holds => holds.1
    simp only [clientOf, clientWarnings, List.flatMap_def, collisions]
  · exact List.forall₂_map_right_iff.mpr (written.imp fun _ _ holds => holds.2)

end ApiDocument

end TypedClient
