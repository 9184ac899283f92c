import TypedClient.Proofs.ClientWarnings
import TypedClient.Proofs.LoweredOperations

/-!
# No operation is lost silently

Of every operation and every tag it belongs to, the client has the method in the module
of the tag or a warning. The counts that are reported add up, from the entries of the
document to the declarations that are written.
-/

namespace TypedClient

theorem ModulePlan.total_eq_sum (count : ModulePlan → Nat) (plans : List ModulePlan) :
    ModulePlan.total count plans = (plans.map count).sum := by
  induction plans with
  | nil => rfl
  | cons plan rest ih => rw [total, ih, List.map_cons, List.sum_cons]

namespace Operation

/-- Operations in the order of their keys. -/
def InKeyOrder (operations : List Operation) : Prop :=
  operations.Pairwise fun first second => first.key < second.key

theorem InKeyOrder.keysApart {operations : List Operation} (ordered : InKeyOrder operations) :
    KeysApart operations := by
  refine keysApart_of_nodup (List.pairwise_map.mpr (ordered.imp ?_))
  exact fun lower => Nat.ne_of_lt lower

theorem nodup_effectiveTags {operation : Operation} (distinct : operation.tags.Nodup)
    (defaultTag : String) : (operation.effectiveTags defaultTag).Nodup := by
  unfold effectiveTags
  split
  · exact List.nodup_singleton _
  · exact distinct

end Operation

namespace Grouping

variable {defaultTag : String} {operations : List Operation}

/-- An operation is placed under its tags, as often as it has them. -/
theorem placedUnder_placementsOf (tag : String) :
    placedUnder tag (placementsOf defaultTag operations) =
      operations.flatMap fun operation =>
        ((operation.effectiveTags defaultTag).filter fun other => other = tag).map
          fun _ => operation := by
  simp [placedUnder, placementsOf, List.filter_flatMap, List.map_flatMap, List.filter_map,
    Function.comp_def]

theorem mem_placementsOf {placement : Operation × String} :
    placement ∈ placementsOf defaultTag operations ↔
      placement.1 ∈ operations ∧ placement.2 ∈ placement.1.effectiveTags defaultTag := by
  obtain ⟨operation, tag⟩ := placement
  simp only [placementsOf, List.mem_flatMap, List.mem_map, Prod.mk.injEq]
  constructor
  · rintro ⟨_, operationMem, _, tagMem, rfl, rfl⟩
    exact ⟨operationMem, tagMem⟩
  · rintro ⟨operationMem, tagMem⟩
    exact ⟨operation, operationMem, tag, tagMem, rfl, rfl⟩

/-- The placements of one operation are under different tags. -/
theorem pairwise_placementsOf (ordered : Operation.InKeyOrder operations)
    (tagsDistinct : ∀ operation ∈ operations, (operation.effectiveTags defaultTag).Nodup) :
    (placementsOf defaultTag operations).Pairwise fun first second =>
      first.2 ≠ second.2 ∨ first.1.key < second.1.key := by
  refine List.pairwise_flatMap.mpr ⟨fun operation member => ?_, ?_⟩
  · exact List.pairwise_map.mpr ((tagsDistinct operation member).imp fun apart => Or.inl apart)
  · refine ordered.imp fun {first second} lower placement firstMem other otherMem => Or.inr ?_
    obtain ⟨_, _, rfl⟩ := List.mem_map.mp firstMem
    obtain ⟨_, _, rfl⟩ := List.mem_map.mp otherMem
    exact lower

theorem length_placementsOf : (placementsOf defaultTag operations).length =
    (operations.map fun operation => (operation.effectiveTags defaultTag).length).sum := by
  simp [placementsOf, List.length_flatMap]

end Grouping

namespace ApiDocument.IsLowered

open Document

variable {entry : DocumentEntry} {document : ApiDocument}

theorem inKeyOrder (lowered : document.IsLowered entry) :
    Operation.InKeyOrder document.operations := by
  have keys : (document.operations.map Operation.key).Pairwise (· < ·) := by
    rw [lowered.keys_eq]
    exact List.pairwise_lt_range
  exact List.pairwise_map.mp keys

theorem nodup_effectiveTags (lowered : document.IsLowered entry) (defaultTag : String) :
    ∀ operation ∈ document.operations, (operation.effectiveTags defaultTag).Nodup :=
  fun operation member =>
    Operation.nodup_effectiveTags (lowered.tagsDistinct operation member) defaultTag

/-- Lowering skips operations and finds fault with parts of them, and gives no other
warnings. -/
theorem ofKind_warnings_eq_nil (lowered : document.IsLowered entry) {kind : Warning.Kind}
    (notSkipped : .operationSkipped ≠ kind) (notSpecific : .operationSpecific ≠ kind) :
    Warning.ofKind kind document.warnings = [] := by
  refine Warning.ofKind_eq_nil fun warning member => ?_
  rcases lowered.kinds warning member with isKind | isKind
  · rwa [isKind]
  · rwa [isKind]

end ApiDocument.IsLowered

section Accounts

variable [Text.Conversions]

namespace Operation

/-- An earlier operation of the tag has the method name. -/
def IsShadowed (operations : List Operation) (defaultTag tag : String) (operation : Operation) :
    Prop :=
  ∃ earlier ∈ operations, earlier.key < operation.key ∧
    tag ∈ earlier.effectiveTags defaultTag ∧ earlier.functionName = operation.functionName

instance (operations : List Operation) (defaultTag tag : String) (operation : Operation) :
    Decidable (IsShadowed operations defaultTag tag operation) :=
  inferInstanceAs (Decidable (∃ earlier ∈ operations, earlier.key < operation.key ∧
    tag ∈ earlier.effectiveTags defaultTag ∧ earlier.functionName = operation.functionName))

end Operation

namespace Grouping

variable {defaultTag : String} {operations : List Operation}

theorem firsts_placedUnder_placementsOf (tag : String) :
    firsts Operation.functionName (placedUnder tag (placementsOf defaultTag operations)) =
      firsts Operation.functionName (operations.filter (Operation.carries defaultTag tag)) := by
  rw [placedUnder_placementsOf, firsts, firstsFrom_flatMap]
  · refine congrArg (firsts Operation.functionName) (List.filter_congr fun operation _ => ?_)
    rw [Bool.eq_iff_iff, Operation.carries_iff]
    simp
  · intro operation other member
    obtain ⟨_, _, rfl⟩ := List.mem_map.mp member
    rfl

/-- Of the operations of a tag, those come first that none shadows. -/
theorem firsts_carriers_eq_filter (ordered : Operation.InKeyOrder operations) (tag : String) :
    firsts Operation.functionName (operations.filter (Operation.carries defaultTag tag)) =
      operations.filter fun operation => operation.carries defaultTag tag &&
        !decide (operation.IsShadowed operations defaultTag tag) := by
  have inOrder : (operations.filter (Operation.carries defaultTag tag)).Pairwise
      fun first second => first.functionName = second.functionName → first.key < second.key := by
    refine List.Pairwise.imp ?_ (List.Pairwise.filter _ ordered)
    exact fun lower _ => lower
  rw [firsts_eq_filter inOrder, List.filter_filter]
  refine List.filter_congr fun operation _ => ?_
  rw [Bool.and_comm]
  congr 2
  rw [Bool.eq_iff_iff, decide_eq_true_iff]
  simp only [hasLower, Operation.IsShadowed, List.any_eq_true, List.mem_filter,
    Operation.carries_iff, Bool.and_eq_true, decide_eq_true_eq]
  refine exists_congr fun earlier => ?_
  rw [and_assoc]
  exact and_congr_right fun _ => and_left_comm

/-- The repeated placements are those of shadowed operations. -/
theorem repeats_placementsOf (ordered : Operation.InKeyOrder operations)
    (tagsDistinct : ∀ operation ∈ operations, (operation.effectiveTags defaultTag).Nodup) :
    repeats placementName (placementsOf defaultTag operations) =
      (placementsOf defaultTag operations).filter fun placement =>
        placement.1.IsShadowed operations defaultTag placement.2 := by
  have inOrder : (placementsOf defaultTag operations).Pairwise fun first second =>
      placementName first = placementName second → first.1.key < second.1.key := by
    refine (pairwise_placementsOf ordered tagsDistinct).imp fun apart same => ?_
    exact apart.resolve_left fun tagsApart => tagsApart (congrArg Prod.fst same)
  rw [repeats_eq_filter inOrder]
  refine List.filter_congr fun placement _ => ?_
  rw [Bool.eq_iff_iff, decide_eq_true_iff]
  simp only [hasLower, Operation.IsShadowed, List.any_eq_true, mem_placementsOf, placementName,
    Prod.mk.injEq, Bool.and_eq_true, decide_eq_true_eq]
  constructor
  · rintro ⟨earlier, ⟨operationMem, tagMem⟩, lower, sameTag, sameName⟩
    exact ⟨earlier.1, operationMem, lower, sameTag ▸ tagMem, sameName⟩
  · rintro ⟨earlier, operationMem, lower, tagMem, sameName⟩
    exact ⟨(earlier, placement.2), ⟨operationMem, tagMem⟩, lower, rfl, sameName⟩

/-- The placements that are first of their name, seen from one tag. -/
theorem placedUnder_firsts (tag : String) (placements : List (Operation × String)) :
    placedUnder tag (firsts placementName placements) =
      firsts Operation.functionName (placedUnder tag placements) := by
  induction placements using List.reverseRecOn with
  | nil => rfl
  | append_singleton earlier placement ih =>
      obtain ⟨operation, other⟩ := placement
      rw [firsts_concat, placedUnder_concat]
      by_cases same : other = tag
      · subst same
        simp only [placementName_mem_iff, if_true, firsts_concat]
        split
        · exact ih
        · rw [placedUnder_concat, if_pos rfl, ih]
      · rw [if_neg same]
        split
        · exact ih
        · rw [placedUnder_concat, if_neg same, ih]

variable {known : List String} {renamed : List (DeclarationName × String)}
  {done : List (Operation × String)} {grouping : Grouping}

/-- The methods of all modules are the placements that are not refused. -/
theorem Reflects.sum_length_methods (reflects : grouping.Reflects known renamed done) :
    (grouping.modules.map fun module => module.methods.length).sum =
      (firsts placementName done).length := by
  have ofTag : ∀ module ∈ grouping.modules, module.methods.length =
      ((firsts placementName done).filter fun placement => placement.2 = module.tag).length := by
    intro module member
    rw [(reflects.holds_of_mem member).methods_eq, List.length_map, ← placedUnder_firsts,
      placedUnder, List.length_map]
  have tags : (grouping.modules.map fun module =>
      ((firsts placementName done).filter fun placement => placement.2 = module.tag).length) =
        (grouping.modules.map TagModule.tag).map fun tag =>
          ((firsts placementName done).filter fun placement => placement.2 = tag).length := by
    rw [List.map_map]
    rfl
  rw [List.map_congr_left ofTag, tags, reflects.tags_eq]
  refine sum_length_filter (nodup_eraseDups _) fun placement member => ?_
  exact List.mem_eraseDups.mpr (List.mem_map_of_mem (mem_of_mem_firstsFrom member))

end Grouping

namespace ApiDocument

open Document Grouping

/-- The placements that are refused: those of shadowed operations. -/
def refusedPlacements (document : ApiDocument) (defaultTag : String) : List (Operation × String) :=
  (placementsOf defaultTag document.operations).filter fun placement =>
    placement.1.IsShadowed document.operations defaultTag placement.2

/-- What a client has of the entries and the operations of a document. -/
structure AccountsFor (entry : DocumentEntry) (document : ApiDocument)
    (options : GenerationOptions) (client : GeneratedClient) : Prop where
  entries : (methodEntries entry).length = document.operations.length +
    (Warning.ofKind .operationSkipped client.stats.warnings).length
  lowered : (document.operations.map fun operation => (operation.path, operation.method)) =
    ((methodEntries entry).filter fun entry => entry.fault?.isNone).map MethodEntry.place
  skipped : Warning.ofKind .operationSkipped client.stats.warnings =
    (methodEntries entry).filterMap MethodEntry.skipWarning?
  keys : document.operations.map Operation.key = List.range document.operations.length
  /-- A module for every tag. -/
  tags : ((document.plans options).map fun plan => plan.module.tag) =
    (document.operations.flatMap (Operation.effectiveTags · options.defaultTag)).eraseDups
  methods : ∀ plan ∈ document.plans options, plan.module.methods =
    (document.operations.filter fun operation =>
      operation.carries options.defaultTag plan.module.tag &&
        !decide (operation.IsShadowed document.operations options.defaultTag plan.module.tag)).map
      fun operation => (operation.compile document.schemaNames).1.method
  notEmpty : ∀ plan ∈ document.plans options, plan.module.methods ≠ []
  refused : Warning.ofKind .duplicateFunctionName client.stats.warnings =
    (document.refusedPlacements options.defaultTag).map refusal
  /-- A method or a refusal, and no more than one, for each tag of an operation. -/
  exactlyOne : ∀ operation ∈ document.operations,
    ∀ tag ∈ operation.effectiveTags options.defaultTag,
      ((document.refusedPlacements options.defaultTag).filter fun placement =>
          placement.1.key = operation.key && placement.2 = tag).length =
        (if operation.IsShadowed document.operations options.defaultTag tag then 1 else 0) ∧
      ∃ plan ∈ document.plans options, plan.module.tag = tag ∧
        (plan.module.methods.filter fun method => method.key = operation.key).length =
          if operation.IsShadowed document.operations options.defaultTag tag then 0 else 1
  methodsTotal : client.stats.methodsGenerated +
      (Warning.ofKind .duplicateFunctionName client.stats.warnings).length =
    (document.operations.map fun operation =>
      (operation.effectiveTags options.defaultTag).length).sum
  written : List.Forall₂ (fun plan generated => ∃ blocks,
    plan.IsWrittenAs (document.context options) generated blocks ∧
      blocks.length = plan.written.length) (document.plans options) client.modules
  blocksTotal : ModulePlan.total (fun plan => plan.written.length) (document.plans options) +
      (Warning.ofKind .declarationCollision client.stats.warnings).length =
    client.stats.dtoInlined + client.stats.localDeclarations

variable {entry : DocumentEntry} {document : ApiDocument} {options : GenerationOptions}

theorem IsLowered.reflects (lowered : document.IsLowered entry) (options : GenerationOptions) :
    (document.grouping (DtoRegistry.ofSchemas document.schemas).1 options).Reflects
      document.schemaNames (DtoRegistry.ofSchemas document.schemas).1.renamed
      (placementsOf options.defaultTag document.operations) :=
  reflects_ofOperations options.defaultTag lowered.inKeyOrder.keysApart

theorem IsLowered.methods_eq (lowered : document.IsLowered entry) {plan : ModulePlan}
    (member : plan ∈ document.plans options) : plan.module.methods =
      (document.operations.filter fun operation =>
        operation.carries options.defaultTag plan.module.tag &&
          !decide (operation.IsShadowed document.operations options.defaultTag
            plan.module.tag)).map
        fun operation => (operation.compile document.schemaNames).1.method := by
  obtain ⟨module, moduleMem, rfl⟩ := List.mem_map.mp member
  have holds := (lowered.reflects options).holds_of_mem moduleMem
  rw [firsts_placedUnder_placementsOf, firsts_carriers_eq_filter lowered.inKeyOrder] at holds
  exact holds.methods_eq

theorem IsLowered.tags_eq (lowered : document.IsLowered entry) (options : GenerationOptions) :
    ((document.plans options).map fun plan => plan.module.tag) =
      (document.operations.flatMap (Operation.effectiveTags · options.defaultTag)).eraseDups := by
  have tags := (lowered.reflects options).tags_eq
  have ofPlacements : (placementsOf options.defaultTag document.operations).map Prod.snd =
      document.operations.flatMap (Operation.effectiveTags · options.defaultTag) := by
    simp [placementsOf, List.map_flatMap, Function.comp_def]
  rw [ofPlacements] at tags
  rw [plans, List.map_map, ← tags]
  rfl

theorem IsLowered.refused_eq (lowered : document.IsLowered entry) (options : GenerationOptions) :
    Warning.ofKind .duplicateFunctionName (document.clientWarnings options) =
      (document.refusedPlacements options.defaultTag).map refusal := by
  rw [duplicates_clientWarnings, lowered.ofKind_warnings_eq_nil (by decide) (by decide),
    List.nil_append, (lowered.reflects options).refusals_eq,
    repeats_placementsOf lowered.inKeyOrder (lowered.nodup_effectiveTags options.defaultTag)]
  rfl

theorem IsLowered.collisions_eq (lowered : document.IsLowered entry)
    (options : GenerationOptions) :
    Warning.ofKind .declarationCollision (document.clientWarnings options) =
      (document.plans options).flatMap ModulePlan.collisions := by
  rw [collisions_clientWarnings, lowered.ofKind_warnings_eq_nil (by decide) (by decide),
    List.nil_append]

/-- A tag with an operation has a method: that of its first operation. -/
theorem IsLowered.methods_ne_nil (lowered : document.IsLowered entry) {plan : ModulePlan}
    (member : plan ∈ document.plans options) : plan.module.methods ≠ [] := by
  have isTag : plan.module.tag ∈ (document.plans options).map fun plan => plan.module.tag :=
    List.mem_map_of_mem member
  rw [lowered.tags_eq options, List.mem_eraseDups, List.mem_flatMap] at isTag
  obtain ⟨operation, operationMem, carries⟩ := isTag
  obtain ⟨module, moduleMem, rfl⟩ := List.mem_map.mp member
  have holds := (lowered.reflects options).holds_of_mem moduleMem
  have named : operation.functionName ∈ (firsts Operation.functionName (placedUnder module.tag
      (placementsOf options.defaultTag document.operations))).map Operation.functionName :=
    mem_map_firsts.mpr (List.mem_map_of_mem
      (mem_placedUnder.mpr (mem_placementsOf.mpr ⟨operationMem, carries⟩)))
  intro empty
  rw [show ((DtoRegistry.ofSchemas document.schemas).1.plan module).module.methods =
    module.methods from rfl, holds.methods_eq, List.map_eq_nil_iff] at empty
  rw [empty] at named
  exact absurd named List.not_mem_nil

theorem IsLowered.length_refused (lowered : document.IsLowered entry) (defaultTag : String)
    {operation : Operation} (operationMem : operation ∈ document.operations) {tag : String}
    (tagMem : tag ∈ operation.effectiveTags defaultTag) :
    ((document.refusedPlacements defaultTag).filter fun placement =>
        placement.1.key = operation.key && placement.2 = tag).length =
      if operation.IsShadowed document.operations defaultTag tag then 1 else 0 := by
  have onlyOne : ((placementsOf defaultTag document.operations).filter fun placement =>
      placement.1.key = operation.key && placement.2 = tag) = [(operation, tag)] := by
    refine filter_eq_singleton (pairwise_placementsOf lowered.inKeyOrder
      (lowered.nodup_effectiveTags defaultTag)) (mem_placementsOf.mpr ⟨operationMem, tagMem⟩)
      (by simp) fun other _ isOther => ?_
    obtain ⟨sameKey, sameTag⟩ := by simpa using isOther
    simp [sameKey, sameTag]
  rw [refusedPlacements, List.filter_comm, onlyOne]
  split <;> rename_i shadowed <;> simp [shadowed]

theorem IsLowered.length_methods (lowered : document.IsLowered entry)
    {operation : Operation} (operationMem : operation ∈ document.operations) {tag : String}
    (tagMem : tag ∈ operation.effectiveTags options.defaultTag) :
    ∃ plan ∈ document.plans options, plan.module.tag = tag ∧
      (plan.module.methods.filter fun method => method.key = operation.key).length =
        if operation.IsShadowed document.operations options.defaultTag tag then 0 else 1 := by
  have isTag : tag ∈ (document.plans options).map fun plan => plan.module.tag := by
    rw [lowered.tags_eq options, List.mem_eraseDups]
    exact List.mem_flatMap.mpr ⟨operation, operationMem, tagMem⟩
  obtain ⟨plan, planMem, rfl⟩ := List.mem_map.mp isTag
  refine ⟨plan, planMem, rfl, ?_⟩
  have onlyOne : (document.operations.filter fun other => other.key = operation.key) =
      [operation] := by
    refine filter_eq_singleton lowered.inKeyOrder operationMem (by simp) fun other _ isOther => ?_
    have sameKey : other.key = operation.key := by simpa using isOther
    simp [sameKey]
  have ofOperations : (plan.module.methods.filter fun method => method.key = operation.key).length =
      ((document.operations.filter fun other => other.key = operation.key).filter fun other =>
        other.carries options.defaultTag plan.module.tag &&
          !decide (other.IsShadowed document.operations options.defaultTag
            plan.module.tag)).length := by
    rw [lowered.methods_eq planMem, List.filter_map, List.length_map, List.filter_comm]
    rfl
  rw [ofOperations, onlyOne]
  have carries := Operation.carries_iff.mpr tagMem
  split <;> rename_i shadowed <;> simp [shadowed, carries]

/-- Every placement is a method or a refusal. -/
theorem IsLowered.methods_add_refused (lowered : document.IsLowered entry)
    (options : GenerationOptions) :
    ModulePlan.total (fun plan => plan.module.methods.length) (document.plans options) +
        (document.refusedPlacements options.defaultTag).length =
      (document.operations.map fun operation =>
        (operation.effectiveTags options.defaultTag).length).sum := by
  have methods := (lowered.reflects options).sum_length_methods
  have ofModules : ModulePlan.total (fun plan => plan.module.methods.length)
      (document.plans options) =
        ((document.grouping (DtoRegistry.ofSchemas document.schemas).1 options).modules.map
          fun module => module.methods.length).sum := by
    rw [ModulePlan.total_eq_sum, plans, List.map_map]
    rfl
  rw [ofModules, methods, refusedPlacements, ← repeats_placementsOf lowered.inKeyOrder
    (lowered.nodup_effectiveTags options.defaultTag), length_firsts_add_length_repeats,
    length_placementsOf]

/-- Every declaration of a module is written or leaves a warning. -/
theorem total_written_add_collisions (plans : List ModulePlan) :
    ModulePlan.total (fun plan => plan.written.length) plans +
        (plans.flatMap ModulePlan.collisions).length =
      ModulePlan.total (fun plan => plan.dtos.length) plans +
        ModulePlan.total (fun plan => plan.module.declarations.size) plans := by
  have ofPlan : ∀ plan : ModulePlan, plan.written.length + plan.collisions.length =
      plan.dtos.length + plan.module.declarations.size := by
    intro plan
    rw [ModulePlan.collisions, List.length_map]
    exact length_firsts_add_length_repeats.trans List.length_append
  induction plans with
  | nil => rfl
  | cons plan rest ih =>
      have first := ofPlan plan
      simp only [ModulePlan.total, List.flatMap_cons, List.length_append]
      omega

variable [MediaTypeParser]

/-- The client of an accepted document accounts for all of its operations. -/
theorem generate_accountsFor (entry : DocumentEntry) (document : ApiDocument)
    (options : GenerationOptions) (accepted : ofEntry entry = .ok document) :
    ∃ client, document.generate options = .ok client ∧
      AccountsFor entry document options client := by
  have lowered := isLowered_of_ofEntry accepted
  obtain ⟨cycles, modules, generated, warnings, written⟩ :=
    document.exists_written_client options
  refine ⟨_, generated, ?_⟩
  have skipped : Warning.ofKind .operationSkipped (document.clientWarnings options) =
      (methodEntries entry).filterMap MethodEntry.skipWarning? :=
    (skipped_clientWarnings document options).trans lowered.skipped_eq
  have refused := lowered.refused_eq options
  have collisions := lowered.collisions_eq options
  rw [← warnings] at skipped refused collisions
  refine
    { entries := ?entries, lowered := lowered.places_eq, skipped := skipped
      keys := lowered.keys_eq, tags := lowered.tags_eq options
      methods := fun plan member => lowered.methods_eq member
      notEmpty := fun plan member => lowered.methods_ne_nil member
      refused := refused
      exactlyOne := fun operation operationMem tag tagMem =>
        ⟨lowered.length_refused options.defaultTag operationMem tagMem,
          lowered.length_methods operationMem tagMem⟩
      methodsTotal := ?methodsTotal, written := ?written, blocksTotal := ?blocksTotal }
  case entries =>
    have operations := congrArg List.length lowered.places_eq
    rw [List.length_map, List.length_map] at operations
    rw [skipped, operations, ← length_methodEntries]
  case methodsTotal =>
    rw [refused, List.length_map]
    exact lowered.methods_add_refused options
  case written =>
    refine written.imp fun plan generated ⟨blocks, isWritten⟩ => ⟨blocks, isWritten, ?_⟩
    exact isWritten.blocks_written.length_eq.symm
  case blocksTotal =>
    rw [collisions]
    exact total_written_add_collisions (document.plans options)

end ApiDocument

end Accounts

namespace ApiDocument

section Sample

open Document

attribute [local instance] Text.Conversions.unchanged MediaTypeParser.ofGrammar

/-- A document with two spellings of one method, an entry that cannot be read, and
operations of several tags. -/
def sampleEntry : DocumentEntry :=
  { openapi := some "3.0.0"
    swagger := none
    info := ⟨"", "", none⟩
    paths := [("/pets", .mapping [
      ("get", .mapping [("tags", .sequence [.text "Pet", .text " Pet ", .text "Shop"])]),
      ("parameters", .sequence []),
      ("GET", .mapping [("tags", .sequence [.text "Pet", .text "Admin"])]),
      ("post", .text "unreadable")])]
    components := ⟨[], [], [], []⟩ }

theorem generate_accountsFor_sample :
    ∃ document client, ofEntry sampleEntry = .ok document ∧
      document.generate ⟨defaultTag, "", ""⟩ = .ok client ∧
      AccountsFor sampleEntry document ⟨defaultTag, "", ""⟩ client ∧
      (methodEntries sampleEntry).length = 3 ∧ document.operations.length = 2 ∧
      client.stats.methodsGenerated +
        (Warning.ofKind .duplicateFunctionName client.stats.warnings).length = 4 := by
  obtain ⟨client, generated, accounts⟩ :=
    generate_accountsFor sampleEntry _ ⟨defaultTag, "", ""⟩ rfl
  exact ⟨_, client, rfl, generated, accounts, rfl, rfl, accounts.methodsTotal⟩

end Sample

end ApiDocument

end TypedClient
