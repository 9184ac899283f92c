import TypedClient.Proofs.IdentifierCollisions
import TypedClient.Proofs.OperationAccounts
import TypedClient.Proofs.PoolOrder

/-!
# The client and the order of the component schemas

Operations look at nothing but the names of the component schemas, so in another order of
the schemas the tag modules are the same, and each needs the same declarations of the
pool. Where no name of the pool is changed these are written the same, before the
declarations of the module's own. What is left to differ is the order in which the
declarations of the pool, the cycles and the warnings of the schemas come.
-/

namespace TypedClient

namespace Operation

variable {known others : List String}

theorem resolveUnder_congr (sameNames : ∀ schema, schema ∈ known ↔ schema ∈ others)
    (origin : String) (node : SchemaNode) (name : DeclarationName)
    (declarations : DeclarationBuffer) :
    resolveUnder known origin node name declarations =
      resolveUnder others origin node name declarations := by
  simp only [resolveUnder, SchemaNode.resolve_congr sameNames]

theorem queryMembers_congr (sameNames : ∀ schema, schema ∈ known ↔ schema ∈ others)
    (label : String) (owner : DeclarationName) (parameters : List Parameter)
    (declarations : DeclarationBuffer) :
    queryMembers known label owner parameters declarations =
      queryMembers others label owner parameters declarations := by
  induction parameters generalizing declarations with
  | nil => rfl
  | cons parameter rest ih =>
      have sameFirst : resolveParameter known label owner parameter declarations =
          resolveParameter others label owner parameter declarations := by
        simp only [resolveParameter, resolveUnder_congr sameNames]
      simp only [queryMembers, sameFirst, ih]

theorem compileNamed_congr (sameNames : ∀ schema, schema ∈ known ↔ schema ∈ others)
    (origin : String) (name : DeclarationName) (node : SchemaNode)
    (declarations : DeclarationBuffer) :
    compileNamed known origin name node declarations =
      compileNamed others origin name node declarations := by
  simp only [compileNamed, resolveUnder_congr sameNames]

end Operation

/-- Lists of results for the items of one list belong to each other. -/
theorem forall₂_of_common {α β γ : Type} {first : α → β → Prop} {second : α → γ → Prop}
    {items : List α} {results : List β} {others : List γ}
    (firsts : List.Forall₂ first items results) (seconds : List.Forall₂ second items others) :
    List.Forall₂ (fun result other => ∃ item ∈ items, first item result ∧ second item other)
      results others := by
  induction firsts generalizing others with
  | nil =>
      cases seconds
      exact .nil
  | @cons item result rest results isFirst _ ih =>
      cases seconds with
      | cons isSecond seconds =>
          refine .cons ⟨item, List.mem_cons_self, isFirst, isSecond⟩ ((ih seconds).imp ?_)
          rintro result other ⟨item, member, both⟩
          exact ⟨item, List.mem_cons_of_mem _ member, both⟩

theorem rightUnique_eq_ok {ε α β : Type} (write : α → Except ε β) :
    Relator.RightUnique fun item text => write item = .ok text :=
  fun _ _ _ first second => Except.ok.inj (first.symm.trans second)

theorem DtoRegistry.module_plan (registry : DtoRegistry) (module : TagModule) :
    (registry.plan module).module = module :=
  rfl

section Reordering

variable [Text.Conversions]

/-- Of the component schemas an operation looks at the set of their names. -/
theorem Operation.compile_congr {known others : List String}
    (sameNames : ∀ schema, schema ∈ known ↔ schema ∈ others) (operation : Operation) :
    operation.compile known = operation.compile others := by
  have sameQuery : ∀ declarations, operation.compileQuery known declarations =
      operation.compileQuery others declarations := by
    intro declarations
    simp only [compileQuery, queryMembers_congr sameNames]
  have sameBody : ∀ declarations, operation.compileBody known declarations =
      operation.compileBody others declarations := by
    intro declarations
    simp only [compileBody, compileNamed_congr sameNames]
  have sameResponse : ∀ declarations, operation.compileResponse known declarations =
      operation.compileResponse others declarations := by
    intro declarations
    simp only [compileResponse, compileNamed_congr sameNames]
  simp only [compile, sameQuery, sameBody, sameResponse]

theorem Grouping.ofOperations_congr {known others : List String}
    (sameNames : ∀ schema, schema ∈ known ↔ schema ∈ others) (defaultTag : String)
    (renamed : List (DeclarationName × String)) (operations : List Operation) :
    ofOperations known defaultTag renamed operations =
      ofOperations others defaultTag renamed operations := by
  have sameStep : add known defaultTag renamed = add others defaultTag renamed := by
    funext grouping operation
    simp only [add, Operation.compile_congr sameNames]
  simp only [ofOperations, sameStep]

namespace ModulePlan

/-- The texts that a generated module is made of: those of the declarations of the pool,
then those of its own declarations, of each identifier the first one, and those of its
methods. -/
structure IsMadeOf (context : ModuleContext) (plan : ModulePlan) (generated : GeneratedModule)
    (dtoTexts ownTexts methodTexts : List String) : Prop where
  tag_eq : generated.tag = plan.module.tag
  fileStem_eq : generated.fileStem = plan.module.names.fileStem
  dtos : List.Forall₂ (fun declaration text => declaration.render plan.module.table = .ok text)
    plan.dtos dtoTexts
  own : List.Forall₂ (fun declaration text => declaration.render plan.module.table = .ok text)
    (firsts (Declaration.identifierIn plan.module.table) plan.module.declarations.declarations)
    ownTexts
  methods : List.Forall₂ (fun method text => method.render plan.module.table = .ok text)
    plan.module.methods methodTexts
  code_eq : generated.code = plan.module.layout context (dtoTexts ++ ownTexts) methodTexts

/-- A generated module is made of some texts of a plan. -/
def IsMade (context : ModuleContext) (plan : ModulePlan) (generated : GeneratedModule) : Prop :=
  ∃ dtoTexts ownTexts methodTexts, plan.IsMadeOf context generated dtoTexts ownTexts methodTexts

end ModulePlan

namespace DtoRegistry

variable {schemas : List (String × SchemaNode)} {module : TagModule}

/-- The declarations of the pool in a module are written under identifiers of their own. -/
theorem dtos_apart (sound : module.IsSound (schemas.map Prod.fst))
    (plain : module.HasPlainTable (ofSchemas schemas).1.renamed) :
    (((ofSchemas schemas).1.plan module).dtos.map
        (Declaration.identifierIn module.table)).Nodup ∧
      ∀ declaration ∈ ((ofSchemas schemas).1.plan module).dtos,
        ∀ other ∈ module.declarations.declarations,
          declaration.identifierIn module.table ≠ other.identifierIn module.table := by
  have inPool : ∀ declaration ∈ ((ofSchemas schemas).1.plan module).dtos,
      declaration.name ∈ (ofSchemas schemas).1.pool.names := fun declaration member =>
    DeclarationBuffer.name_mem_names (mem_dtos_plan.mp member).1
  constructor
  · have namesDistinct : (((ofSchemas schemas).1.plan module).dtos.map Declaration.name).Nodup :=
      (ofSchemas schemas).1.pool.distinct.sublist (prune_sublist.map Declaration.name)
    refine (List.nodup_map_iff_inj_on namesDistinct.of_map).mpr ?_
    intro declaration member other otherMember same
    by_contra different
    have names : declaration.name ≠ other.name := fun sameName =>
      different (List.inj_on_of_nodup_map namesDistinct member otherMember sameName)
    -- only names of an operation can be written alike
    obtain ⟨key, owner, -⟩ := shareOperation_of_identifier_eq sound plain
      (List.mem_map_of_mem (List.mem_append_left _ member))
      (List.mem_map_of_mem (List.mem_append_left _ otherMember)) names same
    obtain ⟨schema, owned⟩ :=
      (isSound_ofSchemas schemas).schemaOwned declaration.name (inPool declaration member)
    rw [owned] at owner
    contradiction
  · intro declaration member other own
    exact identifierIn_ne sound plain (inPool declaration member)
      (DeclarationBuffer.name_mem_names own)

theorem written_plan (sound : module.IsSound (schemas.map Prod.fst))
    (plain : module.HasPlainTable (ofSchemas schemas).1.renamed) :
    ((ofSchemas schemas).1.plan module).written = ((ofSchemas schemas).1.plan module).dtos ++
      firsts (Declaration.identifierIn module.table) module.declarations.declarations :=
  firsts_append_of_apart (dtos_apart sound plain).1 (dtos_apart sound plain).2

theorem leftOut_plan (sound : module.IsSound (schemas.map Prod.fst))
    (plain : module.HasPlainTable (ofSchemas schemas).1.renamed) :
    ((ofSchemas schemas).1.plan module).leftOut =
      repeats (Declaration.identifierIn module.table) module.declarations.declarations :=
  repeats_append_of_apart (dtos_apart sound plain).1 (dtos_apart sound plain).2

theorem isMade_of_isWrittenAs (sound : module.IsSound (schemas.map Prod.fst))
    (plain : module.HasPlainTable (ofSchemas schemas).1.renamed) {context : ModuleContext}
    {generated : GeneratedModule} {blocks : List String}
    (isWritten : ((ofSchemas schemas).1.plan module).IsWrittenAs context generated blocks) :
    ((ofSchemas schemas).1.plan module).IsMade context generated := by
  obtain ⟨methodTexts, methods, code⟩ := isWritten.code
  have written := isWritten.blocks_written
  rw [written_plan sound plain] at written
  refine ⟨_, _, methodTexts, isWritten.tag_eq, isWritten.fileStem_eq,
    (List.forall₂_take_append _ _ _ written.flip).flip,
    (List.forall₂_drop_append _ _ _ written.flip).flip, methods, ?_⟩
  rw [code, List.take_append_drop]

end DtoRegistry

namespace ApiDocument

variable {document : ApiDocument} {options : GenerationOptions}
  {reordered : List (String × SchemaNode)}

/-- Two generated modules of one tag: their methods and the declarations of their own have
the same texts in the same places, and the texts of the declarations of the pool are the
same up to their order. -/
def AreReordered (document other : ApiDocument) (options : GenerationOptions)
    (generated otherGenerated : GeneratedModule) : Prop :=
  ∃ plan ∈ document.plans options, ∃ otherPlan ∈ other.plans options,
    ∃ dtoTexts otherTexts ownTexts methodTexts,
      otherPlan.module = plan.module ∧
      plan.IsMadeOf (document.context options) generated dtoTexts ownTexts methodTexts ∧
      otherPlan.IsMadeOf (document.context options) otherGenerated otherTexts ownTexts
        methodTexts ∧
      otherTexts.Perm dtoTexts

/-- The modules of the client, each with the tag module that it is written from. -/
theorem modules_written {cycles : List (List String)}
    {modules : List (GeneratedModule × List Warning)}
    (written : List.Forall₂ (fun plan generated => ∃ blocks,
      plan.IsWrittenAs (document.context options) generated blocks) (document.plans options)
        (document.clientOf options cycles modules).modules) :
    List.Forall₂ (fun module generated =>
      ((DtoRegistry.ofSchemas document.schemas).1.plan module).IsMade (document.context options)
        generated)
      (document.grouping (DtoRegistry.ofSchemas document.schemas).1 options).modules
      (document.clientOf options cycles modules).modules := by
  rw [plans, List.forall₂_map_left_iff] at written
  have ofModules : ∀ module ∈
      (document.grouping (DtoRegistry.ofSchemas document.schemas).1 options).modules,
        module.IsSound (document.schemas.map Prod.fst) ∧
          module.HasPlainTable (DtoRegistry.ofSchemas document.schemas).1.renamed :=
    fun module member => ⟨Grouping.isSound_of_mem_modules member,
      Grouping.hasPlainTable_of_mem_modules member⟩
  refine ((List.forall₂_and_left _ _).mpr ⟨ofModules, written⟩).imp ?_
  rintro module generated ⟨⟨sound, plain⟩, blocks, isWritten⟩
  exact DtoRegistry.isMade_of_isWrittenAs sound plain isWritten

section Reordered

variable (distinct : document.schemaNames.Nodup) (perm : reordered.Perm document.schemas)
  (apart : ((DtoRegistry.ofSchemas document.schemas).1.pool.names.map
    DeclarationName.defaultIdentifier?).Nodup)

include distinct perm apart

theorem grouping_reordered (options : GenerationOptions) :
    ({ document with schemas := reordered } : ApiDocument).grouping
        (DtoRegistry.ofSchemas reordered).1 options =
      document.grouping (DtoRegistry.ofSchemas document.schemas).1 options := by
  have sameRenamed := (DtoRegistry.ofSchemas_perm distinct perm apart).2.1
  simp only [grouping, schemaNames, sameRenamed]
  exact Grouping.ofOperations_congr (fun schema => (perm.map Prod.fst).mem_iff) _ _ _

theorem dtos_reordered (module : TagModule) :
    ((DtoRegistry.ofSchemas reordered).1.plan module).dtos.Perm
      ((DtoRegistry.ofSchemas document.schemas).1.plan module).dtos :=
  DtoRegistry.prune_perm (DtoRegistry.ofSchemas_perm distinct perm apart).1 _

theorem cycleNames_reordered :
    (({ document with schemas := reordered } : ApiDocument).cycleNames.map Multiset.ofList).Perm
      (document.cycleNames.map Multiset.ofList) := by
  obtain ⟨declarations, sameRenamed, -⟩ := DtoRegistry.ofSchemas_perm distinct perm apart
  have cycles := (cycles_dependencyGraph_perm declarations).map
    (Multiset.map (DeclarationName.identifierIn
      (.ofRenamed (DtoRegistry.ofSchemas document.schemas).1.renamed)))
  simpa only [cycleNames, DtoRegistry.cycles, sameRenamed, List.map_map, Function.comp_def,
    Multiset.map_coe] using cycles

/-- The pairs of modules that are written from one tag module. -/
theorem modules_reordered {generated otherGenerated : List GeneratedModule}
    (first : List.Forall₂ (fun module generated =>
      ((DtoRegistry.ofSchemas document.schemas).1.plan module).IsMade (document.context options)
        generated)
      (document.grouping (DtoRegistry.ofSchemas document.schemas).1 options).modules generated)
    (second : List.Forall₂ (fun module generated =>
      ((DtoRegistry.ofSchemas reordered).1.plan module).IsMade (document.context options)
        generated)
      (document.grouping (DtoRegistry.ofSchemas document.schemas).1 options).modules
      otherGenerated) :
    List.Forall₂ (AreReordered document { document with schemas := reordered } options) generated
      otherGenerated := by
  refine (forall₂_of_common first second).imp ?_
  rintro generated otherGenerated ⟨module, member, ⟨dtoTexts, ownTexts, methodTexts, isMade⟩,
    otherTexts, otherOwnTexts, otherMethodTexts, isMadeOther⟩
  obtain rfl : otherOwnTexts = ownTexts :=
    (rightUnique_eq_ok _).forall₂ isMadeOther.own isMade.own
  obtain rfl : otherMethodTexts = methodTexts :=
    (rightUnique_eq_ok _).forall₂ isMadeOther.methods isMade.methods
  have textsPerm : otherTexts.Perm dtoTexts :=
    List.rel_perm_imp (rightUnique_eq_ok _) isMadeOther.dtos isMade.dtos
      (dtos_reordered distinct perm apart module)
  refine ⟨_, List.mem_map_of_mem member, _, List.mem_map_of_mem ?_, dtoTexts, otherTexts,
    _, _, rfl, isMade, isMadeOther, textsPerm⟩
  rw [grouping_reordered distinct perm apart options]
  exact member

/-- The counts of a client do not depend on the order of the component schemas. -/
theorem stats_reordered {cycles otherCycles : List (List String)}
    {modules otherModules : List (GeneratedModule × List Warning)} :
    (({ document with schemas := reordered } : ApiDocument).clientOf options otherCycles
        otherModules).stats =
      { (document.clientOf options cycles modules).stats with
        cycles := otherCycles
        warnings := (({ document with schemas := reordered } : ApiDocument).clientOf options
          otherCycles otherModules).stats.warnings } := by
  have sameGrouping := grouping_reordered distinct perm apart options
  have sameSize : (DtoRegistry.ofSchemas reordered).1.pool.size =
      (DtoRegistry.ofSchemas document.schemas).1.pool.size :=
    (DtoRegistry.ofSchemas_perm distinct perm apart).1.length_eq
  have sameDtos : ∀ module : TagModule,
      ((DtoRegistry.ofSchemas reordered).1.plan module).dtos.length =
        ((DtoRegistry.ofSchemas document.schemas).1.plan module).dtos.length :=
    fun module => (dtos_reordered distinct perm apart module).length_eq
  simp only [clientOf, plans, sameGrouping, sameSize, ModulePlan.total_eq_sum, List.map_map,
    List.length_map, Function.comp_def, sameDtos, DtoRegistry.module_plan]

/-- What the warnings of a client have besides those of its component schemas. -/
theorem clientWarnings_reordered (options : GenerationOptions) :
    ∃ rest, document.clientWarnings options =
        document.warnings ++ (DtoRegistry.ofSchemas document.schemas).2 ++ rest ∧
      ({ document with schemas := reordered } : ApiDocument).clientWarnings options =
        document.warnings ++ (DtoRegistry.ofSchemas reordered).2 ++ rest := by
  have sameGrouping := grouping_reordered distinct perm apart options
  have sameCollisions : ∀ module ∈
      (document.grouping (DtoRegistry.ofSchemas document.schemas).1 options).modules,
        ((DtoRegistry.ofSchemas reordered).1.plan module).collisions =
          ((DtoRegistry.ofSchemas document.schemas).1.plan module).collisions := by
    intro module member
    have otherMember := member
    rw [← sameGrouping] at otherMember
    have leftOut := DtoRegistry.leftOut_plan (Grouping.isSound_of_mem_modules member)
      (Grouping.hasPlainTable_of_mem_modules member)
    have otherLeftOut := DtoRegistry.leftOut_plan (Grouping.isSound_of_mem_modules otherMember)
      (Grouping.hasPlainTable_of_mem_modules otherMember)
    simp only [ModulePlan.collisions, ModulePlan.identifierOf, leftOut, otherLeftOut,
      DtoRegistry.module_plan]
  refine ⟨(document.grouping (DtoRegistry.ofSchemas document.schemas).1 options).warnings ++
    (document.plans options).flatMap ModulePlan.collisions, by simp [clientWarnings], ?_⟩
  simp only [clientWarnings, plans, sameGrouping, List.flatMap_map, List.append_assoc,
    List.flatMap_congr sameCollisions]

end Reordered

/-- Component schemas have distinct names, as the keys of a map. In another order of them,
where the names of the pool have different default identifiers, the client has the same
modules up to the order of the declarations of the pool in each, and the same index and
counts. The cycles are the same up to their order, and so are the warnings of the component
schemas, at the same place among the others. -/
theorem generate_reordered (document : ApiDocument) (options : GenerationOptions)
    (reordered : List (String × SchemaNode)) (distinct : document.schemaNames.Nodup)
    (perm : reordered.Perm document.schemas)
    (apart : ((DtoRegistry.ofSchemas document.schemas).1.pool.names.map
      DeclarationName.defaultIdentifier?).Nodup) :
    ∃ client other, document.generate options = .ok client ∧
      ({ document with schemas := reordered } : ApiDocument).generate options = .ok other ∧
      List.Forall₂ (AreReordered document { document with schemas := reordered } options)
        client.modules other.modules ∧
      other.index = client.index ∧
      other.stats = { client.stats with
        cycles := other.stats.cycles
        warnings := other.stats.warnings } ∧
      (other.stats.cycles.map Multiset.ofList).Perm (client.stats.cycles.map Multiset.ofList) ∧
      ∃ schemaWarnings otherWarnings rest,
        client.stats.warnings = document.warnings ++ schemaWarnings ++ rest ∧
        other.stats.warnings = document.warnings ++ otherWarnings ++ rest ∧
        otherWarnings.Perm schemaWarnings := by
  obtain ⟨cycles, modules, generated, warnings, written⟩ := document.exists_written_client options
  obtain ⟨otherCycles, otherModules, otherGenerated, otherWarnings, otherWritten⟩ :=
    ({ document with schemas := reordered } : ApiDocument).exists_written_client options
  have sameGrouping := grouping_reordered distinct perm apart options
  refine ⟨_, _, generated, otherGenerated, ?modules, ?index, ?counts, ?cycles, ?warnings⟩
  case modules =>
    have others := modules_written otherWritten
    rw [sameGrouping] at others
    exact modules_reordered distinct perm apart (modules_written written) others
  case index =>
    simp only [clientOf, sameGrouping]
  case counts => exact stats_reordered distinct perm apart
  case cycles =>
    rw [cycles_of_generate generated, cycles_of_generate otherGenerated]
    exact cycleNames_reordered distinct perm apart
  case warnings =>
    obtain ⟨rest, warningsEq, otherEq⟩ :=
      clientWarnings_reordered distinct perm apart options
    exact ⟨_, _, rest, warnings.trans warningsEq, otherWarnings.trans otherEq,
      (DtoRegistry.ofSchemas_perm distinct perm apart).2.2⟩

end ApiDocument

end Reordering

namespace ApiDocument

section Sample

attribute [local instance] Text.Conversions.unchanged

/-- Two components that refer to each other, and an operation that responds with one. -/
def shelterDocument : ApiDocument where
  info := ⟨"Shelter", "1.0", none⟩
  schemas :=
    [("Pet", .object (some [("keeper", .reference "#/components/schemas/Keeper")]) ["keeper"]),
      ("Keeper", .object (some [
        ("pets", .array (.reference "#/components/schemas/Pet"))]) [])]
  operations :=
    [⟨0, .get, "/pets", ["pets"], [], none, some (.reference "#/components/schemas/Pet"), none,
      none, false⟩]
  warnings := []

def shelterOptions : GenerationOptions :=
  ⟨"common", "../http", "../types"⟩

theorem generate_reordered_shelter :
    shelterDocument.schemaNames.Nodup ∧
      shelterDocument.schemas.reverse.Perm shelterDocument.schemas ∧
      ((DtoRegistry.ofSchemas shelterDocument.schemas).1.pool.names.map
        DeclarationName.defaultIdentifier?).Nodup ∧
      ∃ client other, shelterDocument.generate shelterOptions = .ok client ∧
        ({ shelterDocument with schemas := shelterDocument.schemas.reverse } : ApiDocument).generate
          shelterOptions = .ok other ∧
        List.Forall₂ (AreReordered shelterDocument
          { shelterDocument with schemas := shelterDocument.schemas.reverse } shelterOptions)
          client.modules other.modules ∧
        (other.stats.cycles.map Multiset.ofList).Perm
          (client.stats.cycles.map Multiset.ofList) := by
  have distinct : shelterDocument.schemaNames.Nodup := by decide
  have perm := List.reverse_perm shelterDocument.schemas
  have apart : ((DtoRegistry.ofSchemas shelterDocument.schemas).1.pool.names.map
      DeclarationName.defaultIdentifier?).Nodup := by decide
  obtain ⟨client, other, generated, otherGenerated, modules, -, -, cycles, -⟩ :=
    generate_reordered shelterDocument shelterOptions _ distinct perm apart
  exact ⟨distinct, perm, apart, client, other, generated, otherGenerated, modules, cycles⟩

end Sample

end ApiDocument

end TypedClient
