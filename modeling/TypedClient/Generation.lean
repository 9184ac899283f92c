import TypedClient.Document.Basic
import TypedClient.Render.Index
import TypedClient.Schema.Registry
import TypedClient.Tag.Grouping

/-!
# Generating a client

From a document come one module per tag, an index of the modules, and the counts
and warnings that are reported.
-/

namespace TypedClient

/-- The choices that generated code depends on. -/
structure GenerationOptions where
  defaultTag : String
  transportModule : String
  responseModule : String
  deriving DecidableEq, Repr

def defaultTag : String := "common"
def defaultTransportModule : String := "../http"
def defaultResponseModule : String := "../responseType"

structure GeneratedModule where
  tag : String
  fileStem : String
  code : String
  deriving DecidableEq, Repr

/-- The counts that are reported. A declaration of the pool is counted as inlined
once for every module that needs it. -/
structure GenerationStats where
  tagsGenerated : Nat
  operationsLoaded : Nat
  methodsGenerated : Nat
  dtoDeclarations : Nat
  dtoInlined : Nat
  localDeclarations : Nat
  cycles : List (List String)
  warnings : List Warning

def GenerationStats.skipped (stats : GenerationStats) : Nat :=
  (stats.warnings.filter Warning.isSkippedItem).length

structure GeneratedClient where
  modules : List GeneratedModule
  index : String
  stats : GenerationStats

/-- A tag module together with the declarations of the pool that it needs. -/
structure ModulePlan where
  module : TagModule
  dtos : List Declaration

def DtoRegistry.plan (registry : DtoRegistry) (module : TagModule) : ModulePlan :=
  ⟨module, registry.prune module.referencedNames⟩

/-- A count of the modules, summed over all of them. -/
def ModulePlan.total (count : ModulePlan → Nat) : List ModulePlan → Nat
  | [] => 0
  | plan :: rest => count plan + total count rest

variable [Text.Conversions]

def ModulePlan.generate (context : ModuleContext) (plan : ModulePlan) :
    Except UnboundOperation (GeneratedModule × List Warning) :=
  let (code, warnings) := plan.module.render plan.dtos context
  code.map fun text => (⟨plan.module.tag, plan.module.names.fileStem, text⟩, warnings)

namespace ApiDocument

/-- The names of the component schemas. -/
def schemaNames (document : ApiDocument) : List String :=
  document.schemas.map Prod.fst

def context (document : ApiDocument) (options : GenerationOptions) : ModuleContext :=
  ⟨document.info.title, document.info.version, options.transportModule, options.responseModule⟩

/-- The operations of a document by tag. -/
def grouping (document : ApiDocument) (registry : DtoRegistry) (options : GenerationOptions) :
    Grouping :=
  .ofOperations document.schemaNames options.defaultTag registry.renamed document.operations

/-- Generates the client of a document. -/
def generate (document : ApiDocument) (options : GenerationOptions) :
    Except UnboundOperation GeneratedClient := do
  let (registry, schemaWarnings) := DtoRegistry.ofSchemas document.schemas
  let table := NameTable.ofRenamed registry.renamed
  let cycles ← registry.cycles.mapM fun cycle => cycle.mapM (DeclarationName.render table)
  let grouping := document.grouping registry options
  let plans := grouping.modules.map registry.plan
  let modules ← plans.mapM (ModulePlan.generate (document.context options))
  return {
    modules := modules.map Prod.fst
    index := indexText (grouping.modules.map TagModule.names)
    stats :=
      { tagsGenerated := plans.length
        operationsLoaded := document.operations.length
        methodsGenerated := ModulePlan.total (fun plan => plan.module.methods.length) plans
        dtoDeclarations := registry.pool.size
        dtoInlined := ModulePlan.total (fun plan => plan.dtos.length) plans
        localDeclarations := ModulePlan.total (fun plan => plan.module.declarations.size) plans
        cycles := cycles
        warnings :=
          document.warnings ++ schemaWarnings ++ grouping.warnings ++
            modules.flatMap Prod.snd } }

end ApiDocument

end TypedClient
