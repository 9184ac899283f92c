import TypedClient.Proofs.IdentifierCollisions
import TypedClient.Proofs.ModuleRenumbering
import TypedClient.Proofs.OperationAccounts

/-!
# Tags do not disturb each other

The module of a tag depends on the operations that carry the tag and on nothing else. Their
keys do not matter, since the method names of the tag take the place of the keys when names
are written.
-/

namespace TypedClient

/-- Lists of one length without repeated numbers are renumberings of each other. -/
theorem exists_renumbering {keys others : List Nat} (distinct : keys.Nodup)
    (othersDistinct : others.Nodup) (sameLength : keys.length = others.length) :
    ∃ renumber : Equiv.Perm Nat, keys.map renumber = others := by
  induction keys generalizing others with
  | nil => exact ⟨.refl Nat, (List.length_eq_zero_iff.mp sameLength.symm).symm⟩
  | cons key rest ih =>
      obtain ⟨other, later, rfl⟩ := List.exists_cons_of_length_eq_add_one sameLength.symm
      obtain ⟨keyFresh, restDistinct⟩ := List.nodup_cons.mp distinct
      obtain ⟨otherFresh, laterDistinct⟩ := List.nodup_cons.mp othersDistinct
      obtain ⟨renumber, renumbered⟩ := ih restDistinct laterDistinct (Nat.succ.inj sameLength)
      -- the swap leaves the numbers of the rest alone
      refine ⟨renumber.trans (Equiv.swap (renumber key) other), ?_⟩
      rw [List.map_cons, Equiv.trans_apply, Equiv.swap_apply_left, ← renumbered]
      refine congrArg (other :: ·) (List.map_congr_left fun number member => ?_)
      refine Equiv.swap_apply_of_ne_of_ne ?_ ?_
      · exact fun same => keyFresh (renumber.injective same ▸ member)
      · exact fun same => otherFresh (renumbered ▸ same ▸ List.mem_map_of_mem member)

namespace Operation

/-- What an operation is apart from its key and its tags. -/
def content (operation : Operation) : Operation :=
  { operation with key := 0, tags := [] }

/-- The same operation under the new key, with whatever tags. -/
def IsRekeyed (renumber : Equiv.Perm Nat) (operation other : Operation) : Prop :=
  ∃ tags, other = operation.rekey renumber tags

theorem isRekeyed_of_content_eq (renumber : Equiv.Perm Nat) {operation other : Operation}
    (sameContent : operation.content = other.content)
    (sameKey : renumber operation.key = other.key) : operation.IsRekeyed renumber other := by
  refine ⟨other.tags, ?_⟩
  obtain ⟨key, method, path, tags, parameters, requestBody, response, summary, description,
    deprecated⟩ := operation
  obtain ⟨otherKey, otherMethod, otherPath, otherTags, otherParameters, otherBody, otherResponse,
    otherSummary, otherDescription, otherDeprecated⟩ := other
  simp only [content, mk.injEq, true_and] at sameContent sameKey
  simp [rekey, sameContent, sameKey]

/-- Operations with the same content, in order, are the same ones under other keys. -/
theorem exists_isRekeyed {operations others : List Operation}
    (distinct : (operations.map key).Nodup) (othersDistinct : (others.map key).Nodup)
    (sameContent : operations.map content = others.map content) :
    ∃ renumber : Equiv.Perm Nat, List.Forall₂ (IsRekeyed renumber) operations others := by
  have sameLength : operations.length = others.length := by
    simpa using congrArg List.length sameContent
  obtain ⟨renumber, sameKeys⟩ := exists_renumbering distinct othersDistinct (by simpa)
  -- at every place the contents agree, and the keys by the choice of the renumbering
  refine ⟨renumber, List.forall₂_iff_get.mpr ⟨sameLength, fun index bound otherBound => ?_⟩⟩
  refine isRekeyed_of_content_eq renumber ?_ ?_
  · simpa [bound, otherBound] using congrArg (fun contents => contents[index]?) sameContent
  · simpa [bound, otherBound] using congrArg (fun keys => keys[index]?) sameKeys

variable {renumber : Equiv.Perm Nat} {operations others : List Operation}

theorem map_of_isRekeyed {α : Type} {original changed : Operation → α}
    (same : ∀ operation tags, changed (operation.rekey renumber tags) = original operation)
    (rekeyed : List.Forall₂ (IsRekeyed renumber) operations others) :
    others.map changed = operations.map original := by
  induction rekeyed with
  | nil => rfl
  | @cons operation other _ _ isRekeyed _ ih =>
      obtain ⟨tags, rfl⟩ := isRekeyed
      rw [List.map_cons, List.map_cons, same, ih]

end Operation

section Tags

variable [Text.Conversions]

theorem Operation.firsts_functionName_of_isRekeyed {renumber : Equiv.Perm Nat}
    {operations others : List Operation}
    (rekeyed : List.Forall₂ (IsRekeyed renumber) operations others) :
    List.Forall₂ (IsRekeyed renumber) (firsts functionName operations)
      (firsts functionName others) := by
  refine forall₂_firstsFrom ?_ rekeyed
  rintro operation _ ⟨tags, rfl⟩
  rfl

/-- Of the same operations under other keys a module takes the same, renumbered. -/
theorem TagModule.Holds.rekey {renumber : Equiv.Perm Nat} {known : List String}
    {renamed : List (DeclarationName × String)} {accepted others : List Operation}
    {module other : TagModule}
    (holds : module.Holds known renamed accepted) (otherHolds : other.Holds known renamed others)
    (rekeyed : List.Forall₂ (Operation.IsRekeyed renumber) accepted others)
    (sameTag : other.tag = module.tag) : other = module.rekey renumber other.names := by
  have compiled := fun operation tags => congrArg Prod.fst
    (@Operation.compile_rekey renumber known _ operation tags)
  have methods : other.methods = module.methods.map (ClientMethod.rekey renumber) := by
    rw [otherHolds.methods_eq, holds.methods_eq, List.map_map]
    exact Operation.map_of_isRekeyed (fun operation tags =>
      congrArg CompiledOperation.method (compiled operation tags)) rekeyed
  have declarations : other.declarations = module.declarations.rekey renumber := by
    apply DeclarationBuffer.eq_of_declarations_eq
    rw [DeclarationBuffer.declarations_rekey, otherHolds.declarations_eq, holds.declarations_eq,
      List.map_flatMap, List.flatMap_def, List.flatMap_def]
    exact congrArg List.flatten (Operation.map_of_isRekeyed (fun operation tags =>
      congrArg (fun compiled => compiled.declarations.declarations) (compiled operation tags))
        rekeyed)
  have table : other.table = module.table.rekey renumber := by
    rw [otherHolds.table_eq, holds.table_eq, NameTable.rekey, List.map_map]
    exact congrArg (NameTable.mk · renamed)
      (Operation.map_of_isRekeyed (fun operation tags => rfl) rekeyed)
  obtain ⟨tag, names, otherMethods, otherDeclarations, otherTable⟩ := other
  simp only [TagModule.rekey, mk.injEq]
  exact ⟨sameTag, trivial, methods, declarations, table⟩

namespace Operation

variable {known : List String} {operation : Operation} {table other : NameTable}

/-- What a compiled operation refers to belongs to the operation or to a component. -/
theorem owner_of_covers {name : DeclarationName}
    (covered : (operation.compile known).1.declarations.Covers known name) :
    name.owner = .operation operation.key ∨ name.IsSchemaOwned := by
  rcases covered with declared | ⟨schema, _, rfl⟩
  · obtain ⟨declaration, member, rfl⟩ := List.mem_map.mp declared
    exact Or.inl ((compile_growth known operation).ofKind declaration member)
  · exact Or.inr ⟨schema, rfl⟩

theorem render_eq_of_covers (sameRenamed : other.renamed = table.renamed)
    (bound : table.function? operation.key = some operation.functionName)
    (otherBound : other.function? operation.key = some operation.functionName)
    {name : DeclarationName}
    (covered : (operation.compile known).1.declarations.Covers known name) :
    table.CanRender name ∧ name.render other = name.render table := by
  rcases owner_of_covers covered with owner | owned
  · refine ⟨NameTable.canRender_of_function owner bound, ?_⟩
    simp only [DeclarationName.render, sameRenamed, owner, bound, otherBound]
  · obtain ⟨schema, owner⟩ := owned
    exact ⟨NameTable.canRender_of_schema owner,
      Disambiguation.render_of_schemaOwned sameRenamed ⟨schema, owner⟩⟩

/-- Tables that know the method name of an operation write the operation alike. -/
theorem exists_texts (sameRenamed : other.renamed = table.renamed)
    (bound : table.function? operation.key = some operation.functionName)
    (otherBound : other.function? operation.key = some operation.functionName) :
    (∃ text, (operation.compile known).1.method.render table = .ok text ∧
        (operation.compile known).1.method.render other = .ok text) ∧
      ∃ texts, (operation.compile known).1.declarations.declarations.mapM
          (Declaration.render table) = .ok texts ∧
        (operation.compile known).1.declarations.declarations.mapM
          (Declaration.render other) = .ok texts := by
  have growth := compile_growth known operation
  have same := fun name covered =>
    @render_eq_of_covers _ known operation table other sameRenamed bound otherBound name covered
  have signature := fun name refers => same name (growth.typesCovered name refers)
  have declared := fun declaration (member : declaration ∈ _) =>
    same declaration.name (Or.inl (DeclarationBuffer.name_mem_names member))
  have references := fun declaration member name refers =>
    same name (growth.addedCovered declaration member name refers)
  obtain ⟨text, textEq⟩ := ClientMethod.exists_render_eq_ok fun name refers =>
    (signature name refers).1
  obtain ⟨texts, textsEq, -⟩ := exists_mapM_eq_ok fun declaration member =>
    Declaration.exists_render_eq_ok (declared declaration member).1
      fun name refers => (references declaration member name refers).1
  refine ⟨⟨text, textEq, ?_⟩, texts, textsEq, ?_⟩
  · exact (ClientMethod.render_congr fun name refers => (signature name refers).2).trans textEq
  · have sameTexts := @mapM_map_congr _ _ _ _ id _ _ _ fun declaration member =>
      Declaration.render_congr (declared declaration member).2
        fun name refers => (references declaration member name refers).2
    rw [List.map_id] at sameTexts
    exact sameTexts.trans textsEq

end Operation

namespace Grouping

/-- The operations by tag, with the names of the pool of some component schemas. -/
def ofSchemas (schemas : List (String × SchemaNode)) (defaultTag : String)
    (operations : List Operation) : Grouping :=
  let registry := (DtoRegistry.ofSchemas schemas).1
  ofOperations (schemas.map Prod.fst) defaultTag registry.renamed operations

/-- The plan of a tag, if an operation carries it. -/
def plan? (schemas : List (String × SchemaNode)) (defaultTag tag : String)
    (operations : List Operation) : Option ModulePlan :=
  ((ofSchemas schemas defaultTag operations).module? tag).map (DtoRegistry.ofSchemas schemas).1.plan

section Holding

variable {known : List String} {defaultTag tag : String}
  {renamed : List (DeclarationName × String)} {operations : List Operation}

/-- The module of a tag takes the operations that carry it, the first of each name. -/
theorem holds_of_module? (distinct : (operations.map Operation.key).Nodup) {module : TagModule}
    (found : (ofOperations known defaultTag renamed operations).module? tag = some module) :
    module.Holds known renamed (firsts Operation.functionName
      (operations.filter (Operation.carries defaultTag tag))) := by
  rw [← firsts_placedUnder_placementsOf]
  exact (reflects_ofOperations defaultTag (Operation.keysApart_of_nodup distinct)).holds _ _ found

/-- A tag has no module if no operation carries it. -/
theorem module?_eq_none_iff :
    (ofOperations known defaultTag renamed operations).module? tag = none ↔
      operations.filter (Operation.carries defaultTag tag) = [] := by
  have isTag : tag ∈ (ofOperations known defaultTag renamed operations).modules.map
      TagModule.tag ↔ ∃ operation ∈ operations, operation.carries defaultTag tag = true := by
    rw [tags_ofOperations, List.mem_eraseDups]
    simp [mem_placementsOf, Operation.carries_iff]
  rw [List.filter_eq_nil_iff]
  constructor
  · intro missing operation member carries
    exact not_mem_tags_of_module? missing (isTag.mpr ⟨operation, member, carries⟩)
  · intro noCarrier
    cases found : (ofOperations known defaultTag renamed operations).module? tag with
    | none => rfl
    | some module =>
        obtain ⟨operation, member, carries⟩ := isTag.mp
          (tag_of_module? found ▸ List.mem_map_of_mem (mem_of_module? found))
        exact absurd carries (noCarrier operation member)

end Holding

theorem isSome_plan?_iff {schemas : List (String × SchemaNode)} {defaultTag tag : String}
    {operations : List Operation} : (plan? schemas defaultTag tag operations).isSome = true ↔
      ∃ operation ∈ operations, operation.carries defaultTag tag = true := by
  rw [plan?, Option.isSome_map, ← Option.ne_none_iff_isSome, ne_eq, ofSchemas, module?_eq_none_iff]
  simp [List.filter_eq_nil_iff]

/-- Two modules hold an operation with the same text. -/
structure Shares (module other : TagModule) (compiled : CompiledOperation) : Prop where
  declared : compiled.declarations.declarations ⊆ module.declarations.declarations
  otherDeclared : compiled.declarations.declarations ⊆ other.declarations.declarations
  methodText : ∃ text, compiled.method.render module.table = .ok text ∧
    compiled.method.render other.table = .ok text
  declarationTexts : ∃ texts,
    compiled.declarations.declarations.mapM (Declaration.render module.table) = .ok texts ∧
      compiled.declarations.declarations.mapM (Declaration.render other.table) = .ok texts

section Isolation

variable {known : List String} {defaultTag tag otherTag : String}
  {renamed : List (DeclarationName × String)} {operations : List Operation}
  {module other : TagModule}

/-- An operation whose method is in the module of a tag is one that the module took. -/
theorem mem_firsts_of_mem_methods (distinct : (operations.map Operation.key).Nodup)
    (found : (ofOperations known defaultTag renamed operations).module? tag = some module)
    {operation : Operation} (member : operation ∈ operations)
    (methodMem : (operation.compile known).1.method ∈ module.methods) :
    operation ∈ firsts Operation.functionName
      (operations.filter (Operation.carries defaultTag tag)) := by
  rw [(holds_of_module? distinct found).methods_eq, List.mem_map] at methodMem
  obtain ⟨accepted, acceptedMem, sameMethod⟩ := methodMem
  have listed := List.mem_of_mem_filter (mem_of_mem_firstsFrom acceptedMem)
  have isSame := Operation.keysApart_of_nodup distinct accepted listed operation member
    (congrArg ClientMethod.key sameMethod)
  exact isSame ▸ acceptedMem

/-- The table of a module knows the method name of every operation that it took. -/
theorem function?_eq_of_mem_methods (distinct : (operations.map Operation.key).Nodup)
    (found : (ofOperations known defaultTag renamed operations).module? tag = some module)
    {operation : Operation} (member : operation ∈ operations)
    (methodMem : (operation.compile known).1.method ∈ module.methods) :
    module.table.function? operation.key = some operation.functionName := by
  have holds := holds_of_module? distinct found
  have accepted := mem_firsts_of_mem_methods distinct found member methodMem
  have isBound : operation.key ∈ module.table.functions.map Prod.fst :=
    holds.keys_eq ▸ List.mem_map_of_mem accepted
  obtain ⟨function, bound⟩ := NameTable.exists_function?_of_mem isBound
  have binding := NameTable.mem_functions_of_function? bound
  rw [holds.table_eq] at binding
  obtain ⟨taken, takenMem, isBinding⟩ := List.mem_map.mp binding
  obtain ⟨sameKey, rfl⟩ := Prod.mk.inj isBinding
  have listed := List.mem_of_mem_filter (mem_of_mem_firstsFrom takenMem)
  rw [bound, Operation.keysApart_of_nodup distinct taken listed operation member sameKey]

theorem shares_of_mem_methods (distinct : (operations.map Operation.key).Nodup)
    (found : (ofOperations known defaultTag renamed operations).module? tag = some module)
    (otherFound : (ofOperations known defaultTag renamed operations).module? otherTag = some other)
    {operation : Operation} (member : operation ∈ operations)
    (methodMem : (operation.compile known).1.method ∈ module.methods)
    (otherMethodMem : (operation.compile known).1.method ∈ other.methods) :
    Shares module other (operation.compile known).1 := by
  have holds := holds_of_module? distinct found
  have otherHolds := holds_of_module? distinct otherFound
  have accepted := mem_firsts_of_mem_methods distinct found member methodMem
  have otherAccepted := mem_firsts_of_mem_methods distinct otherFound member otherMethodMem
  have sameRenamed : other.table.renamed = module.table.renamed := by
    rw [holds.table_eq, otherHolds.table_eq]
  obtain ⟨methodText, declarationTexts⟩ := @Operation.exists_texts _ known operation _ _ sameRenamed
    (function?_eq_of_mem_methods distinct found member methodMem)
    (function?_eq_of_mem_methods distinct otherFound member otherMethodMem)
  refine ⟨?_, ?_, methodText, declarationTexts⟩
  · rw [holds.declarations_eq]
    exact fun _ declared => List.mem_flatMap.mpr ⟨operation, accepted, declared⟩
  · rw [otherHolds.declarations_eq]
    exact fun _ declared => List.mem_flatMap.mpr ⟨operation, otherAccepted, declared⟩

/-- Two lists with the same operations of a tag give the tag the same module, renumbered. -/
theorem isAlike_of_module? {schemas : List (String × SchemaNode)} {first second : List Operation}
    (distinct : (first.map Operation.key).Nodup) (otherDistinct : (second.map Operation.key).Nodup)
    (sameContent : (first.filter (Operation.carries defaultTag tag)).map Operation.content =
      (second.filter (Operation.carries defaultTag tag)).map Operation.content)
    (found : (ofSchemas schemas defaultTag first).module? tag = some module)
    (otherFound : (ofSchemas schemas defaultTag second).module? tag = some other) :
    ((DtoRegistry.ofSchemas schemas).1.plan module).IsAlike
      ((DtoRegistry.ofSchemas schemas).1.plan other) := by
  have holds := holds_of_module? distinct found
  have otherHolds := holds_of_module? otherDistinct otherFound
  have carriers := fun operations => @List.filter_sublist _ (Operation.carries defaultTag tag)
    operations
  obtain ⟨renumber, rekeyed⟩ := Operation.exists_isRekeyed
    (distinct.sublist ((carriers first).map Operation.key))
    (otherDistinct.sublist ((carriers second).map Operation.key)) sameContent
  have isRekeyed := holds.rekey otherHolds (Operation.firsts_functionName_of_isRekeyed rekeyed)
    ((tag_of_module? otherFound).trans (tag_of_module? found).symm)
  have renames : module.table.RenamesSchemas := fun name key owner => by
    rw [holds.table_eq]
    exact Disambiguation.lookup_renamed_of_operation owner
  rw [isRekeyed]
  have sound := isSound_of_mem_modules (mem_of_module? found)
  exact DtoRegistry.isAlike_plan_rekey renumber sound renames

end Isolation

/-- The module of a tag depends on the operations that carry the tag alone, and not on their
keys or their other tags. An operation with several tags has the same text under each. -/
theorem tags_isolated (schemas : List (String × SchemaNode)) (defaultTag tag : String)
    (first second : List Operation) (distinct : (first.map Operation.key).Nodup)
    (otherDistinct : (second.map Operation.key).Nodup)
    (sameContent : (first.filter (Operation.carries defaultTag tag)).map Operation.content =
      (second.filter (Operation.carries defaultTag tag)).map Operation.content) :
    Option.Rel ModulePlan.IsAlike (plan? schemas defaultTag tag first)
        (plan? schemas defaultTag tag second) ∧
      ∀ plan ∈ plan? schemas defaultTag tag first, ∀ otherTag,
        ∀ other ∈ plan? schemas defaultTag otherTag first, ∀ operation ∈ first,
          (operation.compile (schemas.map Prod.fst)).1.method ∈ plan.module.methods →
          (operation.compile (schemas.map Prod.fst)).1.method ∈ other.module.methods →
            Shares plan.module other.module (operation.compile (schemas.map Prod.fst)).1 := by
  constructor
  · have missingIff : (ofSchemas schemas defaultTag first).module? tag = none ↔
        (ofSchemas schemas defaultTag second).module? tag = none := by
      rw [ofSchemas, ofSchemas, module?_eq_none_iff, module?_eq_none_iff, ← List.map_eq_nil_iff,
        sameContent, List.map_eq_nil_iff]
    unfold plan?
    cases found : (ofSchemas schemas defaultTag first).module? tag with
    | none =>
        rw [missingIff.mp found]
        exact .none
    | some module =>
        cases otherFound : (ofSchemas schemas defaultTag second).module? tag with
        | none => exact absurd (missingIff.mpr otherFound) (found ▸ Option.some_ne_none module)
        | some other =>
            exact .some (isAlike_of_module? distinct otherDistinct sameContent found otherFound)
  · intro plan isPlan otherTag other isOther operation member methodMem otherMethodMem
    obtain ⟨module, found, rfl⟩ := Option.map_eq_some_iff.mp isPlan
    obtain ⟨otherModule, otherFound, rfl⟩ := Option.map_eq_some_iff.mp isOther
    exact shares_of_mem_methods distinct found otherFound member methodMem otherMethodMem

end Grouping

end Tags

namespace Grouping

section Sample

attribute [local instance] Text.Conversions.unchanged

/-- An operation with a nested shape, under some key and some tags. -/
def petOperation (key : Nat) (tags : List String) : Operation :=
  { key := key, method := .get, path := "/pets", tags := tags, parameters := []
    requestBody := none
    response := some (.array (.object (some [("pet", .reference "#/components/schemas/Pet")]) []))
    summary := none, description := none, deprecated := false }

def shopOperation (key : Nat) (tags : List String) : Operation :=
  { petOperation key tags with path := "/shops", response := none }

theorem tags_isolated_sample :
    Option.Rel ModulePlan.IsAlike
        (plan? [("Pet", .any)] defaultTag "Pet"
          [petOperation 0 ["Pet", "Shop"], shopOperation 1 ["Shop"]])
        (plan? [("Pet", .any)] defaultTag "Pet"
          [shopOperation 3 ["Admin"], shopOperation 8 [], petOperation 7 ["Admin", "Pet"]]) ∧
      (plan? [("Pet", .any)] defaultTag "Pet"
        [petOperation 0 ["Pet", "Shop"], shopOperation 1 ["Shop"]]).isSome = true :=
  ⟨(tags_isolated [("Pet", .any)] defaultTag "Pet"
      [petOperation 0 ["Pet", "Shop"], shopOperation 1 ["Shop"]]
      [shopOperation 3 ["Admin"], shopOperation 8 [], petOperation 7 ["Admin", "Pet"]]
      (by decide) (by decide) rfl).1, isSome_plan?_iff.mpr ⟨_, List.mem_cons_self, rfl⟩⟩

end Sample

end Grouping

end TypedClient
