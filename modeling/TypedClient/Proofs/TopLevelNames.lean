import Mathlib
import TypedClient.Proofs.IdentifierCollisions
import TypedClient.Proofs.TagNameClaims

/-!
# Names at the top level of a module

A generated module binds the imported names, the identifiers of its declarations, its
class and the instance of the class. The identifiers are apart from the imported names
and from each other. The class and the instance are made from the tag alone, so they can
be called like an import or like a declaration.
-/

namespace TypedClient

namespace ModuleContext

def transportNames : List String := ["$http"]

def responseNames : List String := ["ResponseType", "AxiosRequestConfig"]

def importedNames : List String := transportNames ++ responseNames

/-- The line that imports names from another module. -/
def importText (names : List String) (source : String) : String :=
  "import \x7b " ++ String.intercalate ", " names ++ " \x7d from '" ++ source ++ "'"

theorem imports_eq (context : ModuleContext) :
    context.imports = importText transportNames context.transportModule ++ "\n" ++
      importText responseNames context.responseModule := by
  have transport : String.intercalate ", " transportNames = "$http" := by decide
  have response : String.intercalate ", " responseNames = "ResponseType, AxiosRequestConfig" := by
    decide
  unfold imports importText
  apply String.toList_injective
  simp [transport, response]

end ModuleContext

/-- A block of code that binds names at the top level of a module. -/
inductive Binds : List String → String → Prop
  | imported (names : List String) (source : String) :
      Binds names (ModuleContext.importText names source)
  | lines {names others : List String} {line block : String} (first : Binds names line)
      (rest : Binds others block) : Binds (names ++ others) (line ++ "\n" ++ block)
  | declared {identifier block : String} (declares : Declares identifier block) :
      Binds [identifier] block
  | classOf (name rest : String) : Binds [name] ("export class " ++ name ++ " \x7b" ++ rest)
  | constant (name rest : String) : Binds [name] ("export const " ++ name ++ " = " ++ rest)

theorem ModuleContext.binds_imports (context : ModuleContext) :
    Binds importedNames context.imports := by
  rw [imports_eq]
  exact .lines (.imported _ _) (.imported _ _)

theorem TagModule.binds_classText (module : TagModule) (methods : List String) :
    Binds [module.names.className] (module.classText methods) := by
  have startsClass : ∃ rest, module.classText methods =
      "export class " ++ module.names.className ++ " \x7b" ++ rest := by
    unfold classText
    split
    · refine ⟨"\x7d", String.toList_injective ?_⟩
      simp
    · refine ⟨"\n" ++ String.intercalate "\n\n" methods ++ "\n\x7d", String.toList_injective ?_⟩
      simp
  obtain ⟨rest, textEq⟩ := startsClass
  exact textEq ▸ .classOf _ _

theorem TagModule.binds_instanceText (module : TagModule) :
    Binds [module.names.instanceName] module.instanceText := by
  have textEq : module.instanceText = "export const " ++ module.names.instanceName ++ " = " ++
      ("new " ++ module.names.className ++ "()") := by
    unfold instanceText
    apply String.toList_injective
    simp
  exact textEq ▸ .constant _ _

theorem exists_binds_of_declares {α : Type} {identifierOf : α → String} {items : List α}
    {texts : List String}
    (declared : List.Forall₂ (fun item text => Declares (identifierOf item) text) items texts) :
    ∃ blocks : List (List String × String), (∀ block ∈ blocks, Binds block.1 block.2) ∧
      blocks.flatMap Prod.fst = items.map identifierOf ∧ blocks.map Prod.snd = texts := by
  induction declared with
  | nil => exact ⟨[], by simp, rfl, rfl⟩
  | @cons item text items texts declares _ ih =>
      obtain ⟨blocks, bind, names, code⟩ := ih
      refine ⟨([identifierOf item], text) :: blocks, ?_, by simp [names], by simp [code]⟩
      exact List.forall_mem_cons.mpr ⟨.declared declares, bind⟩

namespace ModulePlan

open ModuleContext (importedNames)

variable [Text.Conversions]

def typeNames (plan : ModulePlan) : List String :=
  plan.written.map fun declaration => plan.identifierOf declaration.name

/-- All names that are bound at the top level of a module, in order. -/
def topLevelNames (plan : ModulePlan) : List String :=
  importedNames ++ plan.typeNames ++ [plan.module.names.className, plan.module.names.instanceName]

/-- Below its header, the code of a module is made of blocks that bind the names at its
top level. -/
def BindsTopLevel (context : ModuleContext) (plan : ModulePlan) (generated : GeneratedModule) :
    Prop :=
  ∃ blocks : List (List String × String), (∀ block ∈ blocks, Binds block.1 block.2) ∧
    blocks.flatMap Prod.fst = plan.topLevelNames ∧
    generated.code = String.intercalate "\n\n"
      ((linterNotice ++ "\n" ++ context.banner) :: blocks.map Prod.snd) ++ "\n"

theorem IsWrittenAs.bindsTopLevel {context : ModuleContext} {plan : ModulePlan}
    {generated : GeneratedModule} {texts : List String}
    (isWritten : plan.IsWrittenAs context generated texts) (once : plan.DeclaresOnce texts) :
    plan.BindsTopLevel context generated := by
  obtain ⟨methods, -, codeEq⟩ := isWritten.code
  obtain ⟨blocks, bind, names, textsEq⟩ := exists_binds_of_declares once.declared
  refine ⟨(importedNames, context.imports) :: blocks ++
    [([plan.module.names.className], plan.module.classText methods),
      ([plan.module.names.instanceName], plan.module.instanceText)], ?binds, ?names, ?code⟩
  case binds =>
    intro block member
    rcases List.mem_append.mp member with early | late
    · rcases List.mem_cons.mp early with rfl | declared
      · exact context.binds_imports
      · exact bind block declared
    · rcases List.mem_cons.mp late with rfl | last
      · exact plan.module.binds_classText methods
      · rw [List.mem_singleton.mp last]
        exact plan.module.binds_instanceText
  case names =>
    rw [List.flatMap_append, List.flatMap_cons, names]
    rfl
  case code =>
    have texts : (linterNotice ++ "\n" ++ context.banner) :: List.map Prod.snd
        ((importedNames, context.imports) :: blocks ++
          [([plan.module.names.className], plan.module.classText methods),
            ([plan.module.names.instanceName], plan.module.instanceText)]) =
        [linterNotice ++ "\n" ++ context.banner, context.imports] ++ blocks.map Prod.snd ++
          [plan.module.classText methods, plan.module.instanceText] := by
      simp
    rw [texts, textsEq]
    exact codeEq

end ModulePlan

namespace TagNames

open ModuleContext (importedNames)

variable {names : TagNames}

theorem eq_toUpper_or_eq_toLower_toUpper (c : Char) : c = c.toUpper ∨ c = c.toUpper.toLower := by
  by_cases lower : c.isLower = true
  · right
    rw [Char.toLower_toUpper_eq_toLower]
    exact (Char.toLower_eq_of_not_isUpper (Char.not_isUpper_of_isLower lower)).symm
  · left
    exact (Char.toUpper_eq_of_not_isLower lower).symm

theorem className_ne_instanceName (names : TagNames) : names.className ≠ names.instanceName := by
  intro same
  have lengths := congrArg (fun text => text.toList.length) same
  have suffixLength : instanceSuffix.toList.length = 3 := by decide
  simp only [instanceName, String.toList_append, List.length_append, suffixLength, className]
    at lengths
  cases characters : names.base.toList with
  | nil => simp [characters] at lengths
  | cons first rest => simp [characters] at lengths

theorem instanceName_not_mem_importedNames (names : TagNames) :
    names.instanceName ∉ importedNames := by
  have noSuffix : ∀ name ∈ importedNames, ¬ instanceSuffix.toList <:+ name.toList := by decide
  intro member
  refine noSuffix _ member ?_
  rw [instanceName, String.toList_append]
  exact List.suffix_append _ _

/-- The class tells what it is made from, up to the case of the first letter. -/
theorem base_eq_of_className (names : TagNames) : names.base = names.className ∨
    names.base = String.ofList (names.className.toList.modifyHead Char.toLower) := by
  cases baseEq : names.base.toList with
  | nil =>
      left
      rw [className, baseEq]
      exact String.toList_eq_nil_iff.mp baseEq
  | cons first rest =>
      have classEq : names.className = String.ofList (first.toUpper :: rest) := by
        rw [className, baseEq]
      rw [classEq, String.toList_ofList, ← String.ofList_toList (s := names.base), baseEq]
      refine (eq_toUpper_or_eq_toLower_toUpper first).imp (fun same => ?_) fun same => ?_
      · rw [← same]
      · rw [List.modifyHead_cons, ← same]

theorem className_mem_importedNames_iff : names.className ∈ importedNames ↔
    names.base ∈ importedNames ++ ["responseType", "axiosRequestConfig"] := by
  constructor
  · intro isImport
    have lowered : ∀ name ∈ importedNames, String.ofList (name.toList.modifyHead Char.toLower) ∈
        importedNames ++ ["responseType", "axiosRequestConfig"] := by
      decide
    rcases names.base_eq_of_className with same | same
    · rw [same]
      exact List.mem_append_left _ isImport
    · rw [same]
      exact lowered _ isImport
  · have raised : ∀ base ∈ importedNames ++ ["responseType", "axiosRequestConfig"],
        (TagNames.mk base).className ∈ importedNames := by decide
    exact raised names.base

/-- The names of a tag that starts like the identifiers of a family of declarations,
whatever the case of its letters. -/
def StartsLikeType (names : TagNames) : Prop :=
  ∃ (family : NameFamily) (rest : String),
    names.clashKey = family.word.toLower ++ "_" ++ rest

theorem startsLikeType_of_map_toLower {text rest : List Char} {family : NameFamily}
    (lowered : text.map Char.toLower = names.clashKey.toList)
    (textEq : text = family.word.toList ++ '_' :: rest) : names.StartsLikeType := by
  refine ⟨family, String.ofList (rest.map Char.toLower), String.toList_injective ?_⟩
  rw [← lowered, textEq]
  simp [String.toLower, Char.toLower]

/-- No part of the suffix of instances is part of what identifiers start with. -/
theorem exists_base_eq_of_instanceName_eq {word rest : List Char}
    (same : names.instanceName.toList = word ++ '_' :: rest) :
    ∃ others, names.base.toList = word ++ '_' :: others := by
  have noUnderscore : '_' ∉ instanceSuffix.toList := by decide
  rw [instanceName, String.toList_append] at same
  rcases List.append_eq_append_iff.mp same with ⟨part, wordEq, suffixEq⟩ | ⟨part, baseEq, restEq⟩
  · rw [suffixEq] at noUnderscore
    simp at noUnderscore
  · cases part with
    | nil =>
        rw [List.nil_append] at restEq
        rw [← restEq] at noUnderscore
        simp at noUnderscore
    | cons c others =>
        obtain rfl := (List.cons.inj restEq).1
        exact ⟨others, baseEq⟩

end TagNames

namespace ModulePlan

open ModuleContext (importedNames)

variable [Text.Conversions]

theorem nodup_topLevelNames_iff {plan : ModulePlan}
    (importsTypes : (importedNames ++ plan.typeNames).Nodup) :
    plan.topLevelNames.Nodup ↔ plan.module.names.className ∉ importedNames ∧
      plan.module.names.className ∉ plan.typeNames ∧
      plan.module.names.instanceName ∉ plan.typeNames := by
  have classInstance := plan.module.names.className_ne_instanceName
  have instanceImport := plan.module.names.instanceName_not_mem_importedNames
  constructor
  · intro distinct
    have apart := (List.nodup_append.mp distinct).2.2
    refine ⟨fun isImport => ?_, fun isType => ?_, fun isType => ?_⟩
    · exact apart _ (List.mem_append_left _ isImport) _ List.mem_cons_self rfl
    · exact apart _ (List.mem_append_right _ isType) _ List.mem_cons_self rfl
    · exact apart _ (List.mem_append_right _ isType) _ (List.mem_cons_of_mem _
        List.mem_cons_self) rfl
  · rintro ⟨noImport, noClassType, noInstanceType⟩
    refine List.nodup_append.mpr ⟨importsTypes, by simp [classInstance], ?_⟩
    rintro name early _ late rfl
    rcases List.mem_cons.mp late with rfl | last
    · exact (List.mem_append.mp early).elim noImport noClassType
    · rw [List.mem_singleton.mp last] at early
      exact (List.mem_append.mp early).elim instanceImport noInstanceType

/-- How far the names at the top level of a module are apart. Only the class and the
instance can be bound twice: the class as an import, if the tag is called like one, and
both as a declaration, if the tag starts like the identifier of one. -/
structure TopLevelApart (plan : ModulePlan) : Prop where
  importsTypes : (importedNames ++ plan.typeNames).Nodup
  classInstance : plan.module.names.className ≠ plan.module.names.instanceName
  instanceImport : plan.module.names.instanceName ∉ importedNames
  nodup_iff : plan.topLevelNames.Nodup ↔ plan.module.names.className ∉ importedNames ∧
    plan.module.names.className ∉ plan.typeNames ∧ plan.module.names.instanceName ∉ plan.typeNames
  classImport_iff : plan.module.names.className ∈ importedNames ↔
    plan.module.names.base ∈ importedNames ++ ["responseType", "axiosRequestConfig"]
  classType : plan.module.names.className ∈ plan.typeNames → plan.module.names.StartsLikeType
  instanceType : plan.module.names.instanceName ∈ plan.typeNames →
    plan.module.names.StartsLikeType

end ModulePlan

namespace ApiDocument

open ModuleContext (importedNames)

section Generation

variable [Text.Conversions] {document : ApiDocument} {options : GenerationOptions}
  {plan : ModulePlan}

theorem exists_word_of_mem_typeNames (member : plan ∈ document.plans options) {name : String}
    (isType : name ∈ plan.typeNames) :
    ∃ (family : NameFamily) (rest : List Char),
      name.toList = family.word.toList ++ '_' :: rest := by
  obtain ⟨module, moduleMem, rfl⟩ := List.mem_map.mp member
  obtain ⟨declaration, isWritten, rfl⟩ := List.mem_map.mp isType
  have sound := Grouping.isSound_of_mem_modules moduleMem
  have plain := Grouping.hasPlainTable_of_mem_modules moduleMem
  rcases DtoRegistry.names_plan_iff.mp (List.mem_map_of_mem (mem_of_mem_firstsFrom isWritten)) with
    ⟨inPool, -⟩ | own
  · obtain ⟨-, owner, suffix, rendered⟩ := DtoRegistry.exists_render_of_mem_pool plain inPool
    refine ⟨declaration.name.family,
      owner.toList ++ declaration.name.keySuffix ++ suffix.toList, ?_⟩
    have characters := congrArg String.toList rendered
    rwa [String.toList_append, DeclarationName.toList_identifierFor, List.append_assoc,
      List.cons_append] at characters
  · obtain ⟨_, function, _, _, _, rendered⟩ := DtoRegistry.exists_render_of_own sound plain own
    refine ⟨declaration.name.family, function.toList ++ declaration.name.keySuffix, ?_⟩
    have characters := congrArg String.toList rendered
    rwa [DeclarationName.toList_identifierFor] at characters

theorem nodup_importedNames_append_typeNames (member : plan ∈ document.plans options) :
    (importedNames ++ plan.typeNames).Nodup := by
  have noUnderscore : ∀ name ∈ importedNames, '_' ∉ name.toList := by decide
  refine List.nodup_append.mpr ⟨by decide, nodup_map_firsts, ?_⟩
  rintro name isImport _ isType rfl
  obtain ⟨family, rest, characters⟩ := exists_word_of_mem_typeNames member isType
  refine noUnderscore name isImport ?_
  rw [characters]
  exact List.mem_append_right _ List.mem_cons_self

theorem topLevelApart_of_mem_plans (member : plan ∈ document.plans options) :
    plan.TopLevelApart := by
  have importsTypes := nodup_importedNames_append_typeNames member
  refine ⟨importsTypes, plan.module.names.className_ne_instanceName,
    plan.module.names.instanceName_not_mem_importedNames,
    ModulePlan.nodup_topLevelNames_iff importsTypes, TagNames.className_mem_importedNames_iff,
    ?classType, ?instanceType⟩
  case classType =>
    intro isType
    obtain ⟨family, rest, characters⟩ := exists_word_of_mem_typeNames member isType
    exact TagNames.startsLikeType_of_map_toLower (TagNames.map_toLower_className _) characters
  case instanceType =>
    intro isType
    obtain ⟨family, rest, characters⟩ := exists_word_of_mem_typeNames member isType
    obtain ⟨others, baseEq⟩ := TagNames.exists_base_eq_of_instanceName_eq characters
    exact TagNames.startsLikeType_of_map_toLower (TagNames.toList_clashKey _).symm baseEq

/-- Every module of every client binds its names in blocks, each once unless the tag is
called like an import or a declaration. -/
theorem generate_topLevelApart (document : ApiDocument) (options : GenerationOptions) :
    ∃ client, document.generate options = .ok client ∧
      List.Forall₂ (fun plan generated =>
        plan.BindsTopLevel (document.context options) generated ∧ plan.TopLevelApart)
          (document.plans options) client.modules := by
  obtain ⟨cycles, modules, generated, -, written⟩ := document.exists_written_client options
  refine ⟨_, generated, ?_⟩
  have ofPlan : ∀ plan ∈ document.plans options,
      (∀ generated texts, plan.IsWrittenAs (document.context options) generated texts →
        plan.DeclaresOnce texts) ∧ plan.TopLevelApart := fun plan member =>
    ⟨fun _ _ isWritten => declaresOnce_of_mem_plans member isWritten,
      topLevelApart_of_mem_plans member⟩
  refine ((List.forall₂_and_left _ _).mpr ⟨ofPlan, written⟩).imp ?_
  rintro plan generated ⟨⟨declaresOnce, apart⟩, texts, isWritten⟩
  exact ⟨isWritten.bindsTopLevel (declaresOnce _ _ isWritten), apart⟩

end Generation

section Sample

attribute [local instance] Text.Conversions.unchanged

/-- A document with one operation, whose tag is called like an import. -/
def importSample : ApiDocument where
  info := ⟨"", "", none⟩
  schemas := []
  operations := [⟨0, .get, "/pets", ["ResponseType"], [], none, none, none, none, false⟩]
  warnings := []

theorem not_nodup_topLevelNames_importSample : ¬ ∀ plan ∈ importSample.plans
    ⟨defaultTag, defaultTransportModule, defaultResponseModule⟩, plan.topLevelNames.Nodup := by
  intro distinct
  have classNames : (importSample.grouping (DtoRegistry.ofSchemas importSample.schemas).1
      ⟨defaultTag, defaultTransportModule, defaultResponseModule⟩).modules.map
        (fun module => module.names.className) = ["ResponseType"] := by
    decide
  obtain ⟨module, member, called⟩ :=
    List.mem_map.mp (classNames ▸ List.mem_singleton_self "ResponseType")
  have planDistinct := distinct _ (List.mem_map_of_mem member)
  have apart := (List.nodup_append.mp planDistinct).2.2
  have isImport : module.names.className ∈ importedNames := by
    rw [called]
    decide
  exact apart _ (List.mem_append_left _ isImport) _ List.mem_cons_self rfl

end Sample

end ApiDocument

end TypedClient
