import TypedClient.Proofs.ClientWarnings
import TypedClient.Proofs.IdentifierScheme

/-!
# Which declarations share an identifier

In a module, two names are written alike only if they belong to the same part of the
same operation and their keys are joined to the same text. Then the first declaration is
kept and every other one leaves a warning, so without warnings every reference means the
declaration that it was resolved to.
-/

namespace TypedClient

namespace TagModule

/-- What a module keeps of its table: method names of its own, letters and digits, and
the renamed names of components. -/
structure HasPlainTable (renamed : List (DeclarationName × String)) (module : TagModule) :
    Prop where
  renamed_eq : module.table.renamed = renamed
  distinct : (module.table.functions.map Prod.snd).Nodup
  plain : ∀ function ∈ module.table.functions.map Prod.snd, IsPlain function
  families : ∀ name ∈ module.declarations.names, name.family ≠ .dto

theorem hasPlainTable_new (tag : String) (names : TagNames)
    (renamed : List (DeclarationName × String)) :
    HasPlainTable renamed (new tag names renamed) where
  renamed_eq := rfl
  distinct := List.nodup_nil
  plain := fun _ member => absurd member List.not_mem_nil
  families := fun _ member => absurd member List.not_mem_nil

end TagModule

/-- Distinct method names belong to distinct operations. -/
theorem NameTable.key_unique {table : NameTable}
    (distinct : (table.functions.map Prod.snd).Nodup) {key other : Nat} {function : String}
    (bound : table.function? key = some function)
    (otherBound : table.function? other = some function) : key = other :=
  congrArg Prod.fst (List.inj_on_of_nodup_map distinct (mem_functions_of_function? bound)
    (mem_functions_of_function? otherBound) rfl)

/-- A block of code that declares an identifier as a type. -/
def Declares (identifier block : String) : Prop :=
  ∃ rest, block = "export interface " ++ identifier ++ " \x7b" ++ rest ∨
    block = "export type " ++ identifier ++ " = " ++ rest

theorem declares_interfaceText (name : String) (members : List String) :
    Declares name (interfaceText name members) := by
  unfold interfaceText
  split
  · have brace : (" \x7b\x7d" : String) = " \x7b" ++ "\x7d" := rfl
    exact ⟨"\x7d", Or.inl (by rw [brace, ← String.append_assoc])⟩
  · have brace : (" \x7b\n" : String) = " \x7b" ++ "\n" := rfl
    refine ⟨"\n" ++ String.intercalate "\n" members ++ "\n\x7d", Or.inl ?_⟩
    simp only [brace, String.append_assoc]

namespace ModulePlan

/-- The names that the signatures and the declarations of a module refer to. -/
def Refers (plan : ModulePlan) (name : DeclarationName) : Prop :=
  name ∈ plan.module.signatureNames ∨
    ∃ declaration ∈ plan.declarations, name ∈ declaration.references

theorem IsSelfContained.mem_names {plan : ModulePlan} (selfContained : plan.IsSelfContained)
    {name : DeclarationName} (refers : plan.Refers name) : name ∈ plan.names := by
  rw [selfContained]
  rcases refers with signature | ⟨declaration, declared, isReference⟩
  · exact .root signature
  · exact .reference ((selfContained _).mp (List.mem_map_of_mem declared)) declared isReference

end ModulePlan

variable [Text.Conversions]

namespace Disambiguation

/-- Only names of components get another identifier than their default. -/
theorem lookup_renamed_of_operation {names : List DeclarationName} {name : DeclarationName}
    {key : Nat} (owner : name.owner = .operation key) : (renamed names).lookup name = none := by
  refine Assignment.lookup_foldl_settle fun member => ?_
  obtain ⟨claim, claimMem, rfl⟩ := List.mem_map.mp member
  have isDefault := defaultIdentifier?_of_mem_claimsOf claimMem
  rw [DeclarationName.defaultIdentifier?, owner] at isDefault
  contradiction

/-- A number at most is added to the default identifier. -/
theorem exists_render_tableOf {names : List DeclarationName} (distinct : names.Nodup)
    (owned : ∀ name ∈ names, name.IsSchemaOwned) {name : DeclarationName} (member : name ∈ names) :
    ∃ owner suffix, name.render (tableOf names) = .ok (name.identifierFor owner ++ suffix) := by
  obtain ⟨schema, isOwner⟩ := owned name member
  have isDefault : name.defaultIdentifier? =
      some (name.identifierFor (Identifier.fragment schema)) := by
    rw [DeclarationName.defaultIdentifier?, isOwner]
  obtain ⟨earlier, later, order⟩ := List.append_of_mem (mem_settlingOrder.mpr member)
  by_cases claimed : ∃ other ∈ earlier, other.defaultIdentifier? =
      some (name.identifierFor (Identifier.fragment schema))
  · obtain ⟨number, _, _, rendered⟩ := later_numbered distinct owned order isDefault claimed
    refine ⟨Identifier.fragment schema, "_" ++ toString number, ?_⟩
    rw [rendered, numberedIdentifier, String.append_assoc]
  · push Not at claimed
    refine ⟨Identifier.fragment schema, "", ?_⟩
    rw [(first_keeps distinct owned order isDefault claimed).1, String.append_empty]

/-- The methods of a table do not matter for the names of components. -/
theorem render_of_schemaOwned {table other : NameTable}
    (sameRenamed : table.renamed = other.renamed) {name : DeclarationName}
    (owned : name.IsSchemaOwned) : name.render table = name.render other := by
  obtain ⟨schema, isOwner⟩ := owned
  simp only [DeclarationName.render, sameRenamed, isOwner]

end Disambiguation

namespace TagModule

theorem HasPlainTable.absorb {renamed : List (DeclarationName × String)}
    {module extended : TagModule} {known : List String} (plain : module.HasPlainTable renamed)
    (operation : Operation)
    (absorbed : module.absorb? (operation.compile known).1 = some extended) :
    extended.HasPlainTable renamed := by
  obtain ⟨-, functionFresh, rfl⟩ := absorb?_eq_some_iff.mp absorbed
  refine ⟨plain.renamed_eq, ?_, ?_, ?_⟩
  · rw [List.map_append, List.nodup_append]
    refine ⟨plain.distinct, List.nodup_singleton _, ?_⟩
    rintro function member _ isNew rfl
    have isFunction : function = (operation.compile known).1.method.functionName :=
      List.mem_singleton.mp isNew
    exact functionFresh (isFunction ▸ member)
  · intro function member
    rw [List.map_append, List.mem_append] at member
    rcases member with old | new
    · exact plain.plain function old
    · rw [List.mem_singleton.mp new]
      exact fun _ => Path.isAlphanum_of_mem_functionName
  · intro name member
    rcases DeclarationBuffer.mem_names_registerAll.mp member with old | new
    · exact plain.families name old
    · exact Operation.family_ne_dto_of_mem_compile known operation name new

end TagModule

theorem Grouping.hasPlainTable_of_mem_modules {known : List String} {defaultTag : String}
    {renamed : List (DeclarationName × String)} {operations : List Operation} {module : TagModule}
    (member : module ∈ (ofOperations known defaultTag renamed operations).modules) :
    module.HasPlainTable renamed :=
  forall_modules_ofOperations (fun _ tag => TagModule.hasPlainTable_new tag _ _)
    (fun operation _ _ _ plain absorbed => plain.absorb operation absorbed) module member

/-- Names of the same part of one operation with the same joined keys. -/
def DeclarationName.ShareOperation (name other : DeclarationName) : Prop :=
  ∃ key, name.owner = .operation key ∧ other.owner = .operation key ∧
    name.family = other.family ∧ name.family ≠ .dto ∧ name.joinedKeys = other.joinedKeys

namespace NameTable

variable {table : NameTable} {names : List DeclarationName}

theorem render_of_operation (sameRenamed : table.renamed = Disambiguation.renamed names)
    {name : DeclarationName} {key : Nat} {function : String} (owner : name.owner = .operation key)
    (bound : table.function? key = some function) :
    name.render table = .ok (name.identifierFor function) := by
  have unlisted : table.renamed.lookup name = none :=
    sameRenamed ▸ Disambiguation.lookup_renamed_of_operation owner
  simp only [DeclarationName.render, unlisted, owner, bound]

end NameTable

namespace DtoRegistry

variable {schemas : List (String × SchemaNode)} {module : TagModule} {name other : DeclarationName}

/-- How a name of a component is written. -/
theorem exists_render_of_mem_pool (plain : module.HasPlainTable (ofSchemas schemas).1.renamed)
    (member : name ∈ (ofSchemas schemas).1.pool.names) :
    name.render module.table =
        name.render (Disambiguation.tableOf (ofSchemas schemas).1.pool.names) ∧
      ∃ owner suffix, name.identifierIn module.table = name.identifierFor owner ++ suffix := by
  have owned := (isSound_ofSchemas schemas).schemaOwned
  have distinct : (ofSchemas schemas).1.pool.names.Nodup := (ofSchemas schemas).1.pool.distinct
  have sameRender := @Disambiguation.render_of_schemaOwned _ module.table
    (Disambiguation.tableOf (ofSchemas schemas).1.pool.names) plain.renamed_eq name
    (owned name member)
  obtain ⟨owner, suffix, rendered⟩ :=
    Disambiguation.exists_render_tableOf distinct owned member
  refine ⟨sameRender, owner, suffix, ?_⟩
  rw [DeclarationName.identifierIn, sameRender, rendered]

/-- How a name of an operation is written. -/
theorem exists_render_of_own (sound : module.IsSound (schemas.map Prod.fst))
    (plain : module.HasPlainTable (ofSchemas schemas).1.renamed)
    (member : name ∈ module.declarations.names) :
    ∃ key function, name.owner = .operation key ∧ module.table.function? key = some function ∧
      IsPlain function ∧ name.identifierIn module.table = name.identifierFor function := by
  obtain ⟨key, owner, isBound⟩ := sound.bound name member
  obtain ⟨function, bound⟩ := NameTable.canRender_of_mem_functions owner isBound key owner
  have inTable := List.mem_map_of_mem (f := Prod.snd) (NameTable.mem_functions_of_function? bound)
  refine ⟨key, function, owner, bound, plain.plain function inTable, ?_⟩
  rw [DeclarationName.identifierIn, NameTable.render_of_operation plain.renamed_eq owner bound]

/-- A component and an operation are never written alike. -/
theorem identifierIn_ne (sound : module.IsSound (schemas.map Prod.fst))
    (plain : module.HasPlainTable (ofSchemas schemas).1.renamed)
    (inPool : name ∈ (ofSchemas schemas).1.pool.names)
    (own : other ∈ module.declarations.names) :
    name.identifierIn module.table ≠ other.identifierIn module.table := by
  intro same
  obtain ⟨_, owner, suffix, rendered⟩ := exists_render_of_mem_pool plain inPool
  obtain ⟨_, function, _, _, _, otherRendered⟩ := exists_render_of_own sound plain own
  have characters := congrArg String.toList (rendered.symm.trans (same.trans otherRendered))
  rw [String.toList_append, ← List.append_nil (other.identifierFor function).toList] at characters
  have families := DeclarationName.eq_of_identifierFor_append characters
  rw [family_of_mem_ofSchemas inPool] at families
  exact plain.families other own families.symm

/-- Names of a module that are written alike share an operation. -/
theorem shareOperation_of_identifier_eq (sound : module.IsSound (schemas.map Prod.fst))
    (plain : module.HasPlainTable (ofSchemas schemas).1.renamed)
    (member : name ∈ ((ofSchemas schemas).1.plan module).names)
    (otherMember : other ∈ ((ofSchemas schemas).1.plan module).names) (different : name ≠ other)
    (same : name.identifierIn module.table = other.identifierIn module.table) :
    name.ShareOperation other := by
  rcases names_plan_iff.mp member with ⟨inPool, -⟩ | own
  · rcases names_plan_iff.mp otherMember with ⟨otherInPool, -⟩ | otherOwn
    · -- the pool keeps its names apart
      have rendered := (exists_render_of_mem_pool plain inPool).1
      have otherRendered := (exists_render_of_mem_pool plain otherInPool).1
      have bothRender := (DeclarationName.render_eq_identifierIn
        (canRender_of_mem_pool module.table inPool)).trans ((congrArg Except.ok same).trans
          (DeclarationName.render_eq_identifierIn
            (canRender_of_mem_pool module.table otherInPool)).symm)
      rw [rendered, otherRendered] at bothRender
      exact absurd (Disambiguation.render_tableOf_injective (ofSchemas schemas).1.pool.distinct
        (isSound_ofSchemas schemas).schemaOwned inPool otherInPool bothRender) different
    · exact absurd same (identifierIn_ne sound plain inPool otherOwn)
  · rcases names_plan_iff.mp otherMember with ⟨otherInPool, -⟩ | otherOwn
    · exact absurd same.symm (identifierIn_ne sound plain otherInPool own)
    · obtain ⟨key, function, owner, bound, isPlain, rendered⟩ :=
        exists_render_of_own sound plain own
      obtain ⟨otherKey, otherFunction, otherOwner, otherBound, otherIsPlain, otherRendered⟩ :=
        exists_render_of_own sound plain otherOwn
      obtain ⟨families, rfl, joined⟩ := DeclarationName.parts_eq_of_identifierFor_eq isPlain
        otherIsPlain (rendered.symm.trans (same.trans otherRendered))
      obtain rfl := NameTable.key_unique plain.distinct bound otherBound
      exact ⟨key, owner, otherOwner, families, plain.families name own, joined⟩

end DtoRegistry

theorem Declaration.declares_of_render {table : NameTable} {declaration : Declaration}
    {block : String} (canRender : table.CanRender declaration.name)
    (rendered : declaration.render table = .ok block) :
    Declares (declaration.identifierIn table) block := by
  obtain ⟨name, body⟩ := declaration
  obtain ⟨identifier, nameText, rendered⟩ := bind_eq_ok_iff.mp rendered
  rw [DeclarationName.render_eq_identifierIn canRender] at nameText
  obtain rfl := Except.ok.inj nameText
  cases body with
  | typeAlias target =>
      obtain ⟨type, -, rendered⟩ := bind_eq_ok_iff.mp rendered
      obtain rfl := Except.ok.inj rendered
      exact ⟨type, Or.inr rfl⟩
  | interface properties =>
      obtain ⟨members, -, rendered⟩ := bind_eq_ok_iff.mp rendered
      obtain rfl := Except.ok.inj rendered
      exact declares_interfaceText _ members

/-- A type with a name is written as the identifier of the name with its array layers. -/
theorem TypeExpr.render_eq {table : NameTable} {type : TypeExpr} {name : DeclarationName}
    (hasName : type.name? = some name) (canRender : table.CanRender name) :
    type.render table =
      .ok (name.identifierIn table ++ String.join (List.replicate type.depth "[]")) := by
  induction type with
  | primitive _ => cases hasName
  | any => cases hasName
  | named other =>
      obtain rfl := Option.some.inj hasName
      exact (DeclarationName.render_eq_identifierIn canRender).trans (by simp [depth])
  | array item ih =>
      have layers : String.join (List.replicate (item.depth + 1) "[]") =
          String.join (List.replicate item.depth "[]") ++ "[]" := by
        rw [List.replicate_succ', String.join_append]
        simp
      rw [render, ih hasName, depth, layers, ← String.append_assoc]
      rfl

namespace ModulePlan

/-- The text of a module declares every identifier of its names once, and only names that
share an operation share an identifier. -/
structure DeclaresOnce (plan : ModulePlan) (blocks : List String) : Prop where
  /-- The first declarations of the identifiers are written, the others left out. -/
  split : (plan.written ++ plan.leftOut).Perm plan.declarations
  declared : List.Forall₂ (fun declaration block =>
    Declares (plan.identifierOf declaration.name) block) plan.written blocks
  once : (plan.written.map fun declaration => plan.identifierOf declaration.name).Nodup
  complete : ∀ name ∈ plan.names, plan.identifierOf name ∈
    plan.written.map fun declaration => plan.identifierOf declaration.name
  shared : ∀ name ∈ plan.names, ∀ other ∈ plan.names, name ≠ other →
    plan.identifierOf name = plan.identifierOf other → name.ShareOperation other
  /-- The identifier of a name stands wherever a type has the name. -/
  rendered : ∀ name ∈ plan.names, ∀ type : TypeExpr, type.name? = some name →
    type.render plan.module.table =
      .ok (plan.identifierOf name ++ String.join (List.replicate type.depth "[]"))

variable {plan : ModulePlan}

end ModulePlan

namespace ApiDocument

variable {document : ApiDocument} {options : GenerationOptions} {plan : ModulePlan}

theorem declaresOnce_of_mem_plans (member : plan ∈ document.plans options)
    {context : ModuleContext} {generated : GeneratedModule} {blocks : List String}
    (isWritten : plan.IsWrittenAs context generated blocks) : plan.DeclaresOnce blocks := by
  have canRender := canRender_of_mem_plans member
  obtain ⟨module, moduleMem, rfl⟩ := List.mem_map.mp member
  have sound := Grouping.isSound_of_mem_modules moduleMem
  have plain := Grouping.hasPlainTable_of_mem_modules moduleMem
  refine ⟨firsts_append_repeats_perm, ?declared, nodup_map_firsts, ?complete, ?shared, ?rendered⟩
  case declared =>
    have writtenCanRender : ∀ declaration ∈
        ((DtoRegistry.ofSchemas document.schemas).1.plan module).written,
          module.table.CanRender declaration.name := fun declaration isFirst =>
      (canRender.declarations declaration (mem_of_mem_firstsFrom isFirst)).1
    refine ((List.forall₂_and_left _ _).mpr ⟨writtenCanRender, isWritten.blocks_written⟩).imp ?_
    exact fun declaration block holds => declaration.declares_of_render holds.1 holds.2
  case complete =>
    intro name declared
    obtain ⟨declaration, declarationMem, rfl⟩ := List.mem_map.mp declared
    exact mem_map_firsts.mpr (List.mem_map_of_mem declarationMem)
  case shared =>
    intro name declared other otherDeclared different same
    exact DtoRegistry.shareOperation_of_identifier_eq sound plain declared otherDeclared different
      same
  case rendered =>
    intro name declared type hasName
    obtain ⟨declaration, declarationMem, rfl⟩ := List.mem_map.mp declared
    exact TypeExpr.render_eq hasName (canRender.declarations declaration declarationMem).1

end ApiDocument

end TypedClient
