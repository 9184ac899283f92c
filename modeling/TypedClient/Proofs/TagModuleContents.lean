import TypedClient.Proofs.FirstOccurrences
import TypedClient.Proofs.OperationPlacement
import TypedClient.Proofs.TagModuleGrowth
import TypedClient.Proofs.WarningKinds

/-!
# What grouping makes of the placements

Of the operations placed under a tag, the module of the tag takes the first of each
method name, in order, and holds their methods, their declarations and their bindings.
The others leave a warning each.
-/

namespace TypedClient

/-- Different operations have different keys. -/
def Operation.KeysApart (operations : List Operation) : Prop :=
  ∀ first ∈ operations, ∀ second ∈ operations, first.key = second.key → first = second

theorem Operation.keysApart_of_nodup {operations : List Operation}
    (distinct : (operations.map Operation.key).Nodup) : Operation.KeysApart operations :=
  fun _ firstMem _ secondMem => List.inj_on_of_nodup_map distinct firstMem secondMem

namespace Grouping

variable {operation : Operation} {tag : String} {done : List (Operation × String)}

/-- The operations of some placements that are placed under a tag. -/
def placedUnder (tag : String) (placements : List (Operation × String)) : List Operation :=
  (placements.filter fun placement => placement.2 = tag).map Prod.fst

theorem placedUnder_concat (other : String) :
    placedUnder other (done ++ [(operation, tag)]) =
      if tag = other then placedUnder other done ++ [operation] else placedUnder other done := by
  by_cases same : tag = other <;> simp [placedUnder, same]

theorem mem_placedUnder : operation ∈ placedUnder tag done ↔ (operation, tag) ∈ done := by
  simp [placedUnder]

theorem placedUnder_eq_nil (absent : tag ∉ done.map Prod.snd) : placedUnder tag done = [] :=
  List.eq_nil_iff_forall_not_mem.mpr fun _ member =>
    absent (List.mem_map_of_mem (mem_placedUnder.mp member))

end Grouping

variable [Text.Conversions]

/-- The name of the client method of an operation. -/
def Operation.functionName (operation : Operation) : String :=
  Path.functionName operation.method operation.path

namespace TagModule

variable {known : List String} {renamed : List (DeclarationName × String)}
  {accepted : List Operation} {module : TagModule}

/-- A module that has taken some operations, in order. -/
structure Holds (known : List String) (renamed : List (DeclarationName × String))
    (accepted : List Operation) (module : TagModule) : Prop where
  sound : module.IsSound known
  methods_eq : module.methods = accepted.map fun operation => (operation.compile known).1.method
  declarations_eq : module.declarations.declarations =
    accepted.flatMap fun operation => (operation.compile known).1.declarations.declarations
  table_eq : module.table =
    ⟨accepted.map fun operation => (operation.key, operation.functionName), renamed⟩

theorem holds_new (tag : String) (names : TagNames) :
    Holds known renamed [] (new tag names renamed) where
  sound := isSound_new known tag names renamed
  methods_eq := rfl
  declarations_eq := rfl
  table_eq := rfl

theorem Holds.keys_eq (holds : module.Holds known renamed accepted) :
    module.table.functions.map Prod.fst = accepted.map Operation.key := by
  rw [holds.table_eq, List.map_map]
  rfl

theorem Holds.functionNames_eq (holds : module.Holds known renamed accepted) :
    module.table.functions.map Prod.snd = accepted.map Operation.functionName := by
  rw [holds.table_eq, List.map_map]
  rfl

/-- A module refuses a method name that it has. -/
theorem Holds.absorb?_eq_none (holds : module.Holds known renamed accepted) {operation : Operation}
    (isKnown : operation.functionName ∈ accepted.map Operation.functionName) :
    module.absorb? (operation.compile known).1 = none := by
  rw [absorb?_eq_none_iff, holds.functionNames_eq]
  exact Or.inr isKnown

/-- A module takes an operation whose key and method name are new. -/
theorem Holds.exists_absorb? (holds : module.Holds known renamed accepted) {operation : Operation}
    (keyFresh : operation.key ∉ accepted.map Operation.key)
    (nameFresh : operation.functionName ∉ accepted.map Operation.functionName) :
    ∃ extended, module.absorb? (operation.compile known).1 = some extended ∧
      extended.Holds known renamed (accepted ++ [operation]) := by
  rw [← holds.keys_eq] at keyFresh
  rw [← holds.functionNames_eq] at nameFresh
  have absorbed := (@absorb?_eq_some_iff module _ (operation.compile known).1).mpr
    ⟨keyFresh, nameFresh, rfl⟩
  refine ⟨_, absorbed, holds.sound.absorb operation absorbed, ?_, ?_, ?_⟩
  · simp [holds.methods_eq]
  · rw [holds.sound.declarations_registerAll operation keyFresh, holds.declarations_eq]
    simp
  · rw [holds.table_eq, List.map_append]
    rfl

/-- Of operations with keys of their own, a module takes the first of each method name. -/
theorem Holds.absorb? {earlier : List Operation} {operation : Operation}
    (holds : module.Holds known renamed (firsts Operation.functionName earlier))
    (keysApart : ∀ other ∈ earlier, other.key = operation.key → other = operation) :
    (module.absorb? (operation.compile known).1 = none ↔
        operation.functionName ∈ earlier.map Operation.functionName) ∧
      ((module.absorb? (operation.compile known).1).getD module).Holds known renamed
        (firsts Operation.functionName (earlier ++ [operation])) := by
  rw [firsts_concat]
  by_cases isKnown : operation.functionName ∈ earlier.map Operation.functionName
  · have refused := holds.absorb?_eq_none (mem_map_firsts.mpr isKnown)
    rw [refused, if_pos isKnown]
    exact ⟨iff_of_true rfl isKnown, holds⟩
  · have keyFresh : operation.key ∉
        (firsts Operation.functionName earlier).map Operation.key := by
      intro member
      obtain ⟨other, otherMem, sameKey⟩ := List.mem_map.mp member
      have isEarlier := mem_of_mem_firstsFrom otherMem
      exact isKnown (keysApart other isEarlier sameKey ▸ List.mem_map_of_mem isEarlier)
    obtain ⟨extended, absorbed, extendedHolds⟩ := holds.exists_absorb? keyFresh
      (mt mem_map_firsts.mp isKnown)
    rw [absorbed, if_neg isKnown]
    exact ⟨iff_of_false (Option.some_ne_none extended) isKnown, extendedHolds⟩

end TagModule

namespace Grouping

/-- A tag has one method of a name. -/
def placementName (placement : Operation × String) : String × String :=
  (placement.2, placement.1.functionName)

/-- The warning of a placement that is refused. -/
def refusal (placement : Operation × String) : Warning :=
  .duplicateFunctionName placement.2 placement.1.label placement.1.functionName

variable {known : List String} {renamed : List (DeclarationName × String)} {tag : String}
  {operation : Operation} {done : List (Operation × String)} {grouping : Grouping}

theorem placementName_mem_iff :
    placementName (operation, tag) ∈ done.map placementName ↔
      operation.functionName ∈ (placedUnder tag done).map Operation.functionName := by
  simp only [List.mem_map, mem_placedUnder, placementName, Prod.mk.injEq, Prod.exists]
  constructor
  · rintro ⟨other, _, member, rfl, same⟩
    exact ⟨other, member, same⟩
  · rintro ⟨other, member, same⟩
    exact ⟨other, tag, member, rfl, same⟩

section Tags

variable {defaultTag : String} {operations : List Operation}

/-- Opening adds a new tag at the end. -/
theorem tags_opened (tagsEq : grouping.modules.map TagModule.tag = (done.map Prod.snd).eraseDups) :
    (grouping.opened renamed tag).2.modules.map TagModule.tag =
      ((done ++ [(operation, tag)]).map Prod.snd).eraseDups := by
  have tagsIff : tag ∈ grouping.modules.map TagModule.tag ↔ tag ∈ done.map Prod.snd := by
    rw [tagsEq, List.mem_eraseDups]
  rw [List.map_append, List.eraseDups_append, ← tagsEq]
  cases found : grouping.module? tag with
  | some module =>
      have present : tag ∈ grouping.modules.map TagModule.tag :=
        List.mem_map.mpr ⟨module, mem_of_module? found, tag_of_module? found⟩
      rw [opened_of_some found]
      simp [List.removeAll, tagsIff.mp present]
  | none =>
      have absent := mt tagsIff.mpr (not_mem_tags_of_module? found)
      rw [opened_of_none found]
      simp [List.removeAll, absent, TagModule.new, List.eraseDups_cons]

theorem tags_place {label : String} {compiled : CompiledOperation}
    (tagsEq : grouping.modules.map TagModule.tag = (done.map Prod.snd).eraseDups) :
    (place renamed label compiled grouping tag).modules.map TagModule.tag =
      ((done ++ [(operation, tag)]).map Prod.snd).eraseDups :=
  (map_heading_place fun _ _ sameTag _ => sameTag).trans (tags_opened tagsEq)

/-- There is a module for every tag, in order of first use. -/
theorem tags_ofOperations :
    (ofOperations known defaultTag renamed operations).modules.map TagModule.tag =
      ((placementsOf defaultTag operations).map Prod.snd).eraseDups :=
  ofOperations_induction known defaultTag renamed operations (fun done grouping =>
    grouping.modules.map TagModule.tag = (done.map Prod.snd).eraseDups) rfl
    (fun _ _ _ _ tagsEq => tagsEq) fun _ _ _ _ _ _ tagsEq => tags_place tagsEq

theorem tags_nodup_ofOperations :
    ((ofOperations known defaultTag renamed operations).modules.map TagModule.tag).Nodup := by
  rw [tags_ofOperations]
  exact nodup_eraseDups _

end Tags

/-- What holds of a grouping after some placements. -/
structure Reflects (known : List String) (renamed : List (DeclarationName × String))
    (done : List (Operation × String)) (grouping : Grouping) : Prop where
  tags_eq : grouping.modules.map TagModule.tag = (done.map Prod.snd).eraseDups
  holds : ∀ tag module, grouping.module? tag = some module →
    module.Holds known renamed (firsts Operation.functionName (placedUnder tag done))
  refusals_eq : Warning.ofKind .duplicateFunctionName grouping.warnings =
    (repeats placementName done).map refusal

theorem Reflects.mem_tags_iff (reflects : grouping.Reflects known renamed done) :
    tag ∈ grouping.modules.map TagModule.tag ↔ tag ∈ done.map Prod.snd := by
  rw [reflects.tags_eq, List.mem_eraseDups]

/-- The module that a tag is opened with holds what was placed under the tag before. -/
theorem Reflects.holds_opened (reflects : grouping.Reflects known renamed done) (tag : String) :
    (grouping.opened renamed tag).1.Holds known renamed
      (firsts Operation.functionName (placedUnder tag done)) := by
  cases found : grouping.module? tag with
  | some module =>
      rw [opened_of_some found]
      exact reflects.holds tag module found
  | none =>
      have absent := mt reflects.mem_tags_iff.mpr (not_mem_tags_of_module? found)
      rw [opened_of_none found, placedUnder_eq_nil absent]
      exact TagModule.holds_new tag _

theorem refusals_opened : Warning.ofKind .duplicateFunctionName
    (grouping.opened renamed tag).2.warnings =
      Warning.ofKind .duplicateFunctionName grouping.warnings := by
  cases found : grouping.module? tag with
  | some module => rw [opened_of_some found]
  | none =>
      have noRefusal : Warning.ofKind .duplicateFunctionName
          (namesFor grouping.claims tag).2 = [] :=
        Warning.ofKind_eq_nil fun warning member => by rw [kind_namesFor member]; decide
      rw [opened_of_none found, Warning.ofKind_append, noRefusal, List.append_nil]

/-- The module of the tag takes the operation if its method name is new under the tag,
and the placement is refused otherwise. -/
theorem Reflects.place (reflects : grouping.Reflects known renamed done)
    (keysApart : ∀ placement ∈ done, placement.1.key = operation.key →
      placement.1 = operation) (tag : String) :
    (Grouping.place renamed operation.label (operation.compile known).1 grouping tag).Reflects
      known renamed (done ++ [(operation, tag)]) := by
  obtain ⟨refusedIff, holds⟩ := (reflects.holds_opened tag).absorb? fun other member =>
    keysApart _ (mem_placedUnder.mp member)
  refine ⟨?tags_eq, ?holds, ?refusals_eq⟩
  case tags_eq => exact tags_place reflects.tags_eq
  case holds =>
    intro other module found
    rw [module?_place] at found
    rw [placedUnder_concat]
    by_cases same : other = tag
    · subst same
      rw [if_pos rfl] at found ⊢
      exact Option.some.inj found ▸ holds
    · rw [if_neg same] at found
      rw [if_neg (Ne.symm same)]
      exact reflects.holds other module found
  case refusals_eq =>
    rw [← placementName_mem_iff] at refusedIff
    rw [repeats_concat]
    cases absorbed : (grouping.opened renamed tag).1.absorb? (operation.compile known).1 with
    | none =>
        rw [place_of_refused absorbed, Warning.ofKind_append, refusals_opened,
          reflects.refusals_eq, if_pos (refusedIff.mp absorbed), List.map_append]
        rfl
    | some extended =>
        have isNew := mt refusedIff.mpr (absorbed ▸ Option.some_ne_none extended)
        rw [place_of_absorbed absorbed, refusals_opened, reflects.refusals_eq, if_neg isNew]

/-- Grouping reflects all placements, where operations have keys of their own. -/
theorem reflects_ofOperations {operations : List Operation} (defaultTag : String)
    (keysApart : Operation.KeysApart operations) :
    (ofOperations known defaultTag renamed operations).Reflects known renamed
      (placementsOf defaultTag operations) := by
  -- every operation that was placed is one of the list
  have run := ofOperations_induction known defaultTag renamed operations
    (fun done grouping => (∀ placement ∈ done, placement.1 ∈ operations) ∧
      grouping.Reflects known renamed done)
  refine (run ⟨by simp, ⟨rfl, fun _ _ found => by simp [module?, empty] at found, rfl⟩⟩
    ?compiled ?placed).2
  case compiled =>
    rintro operation - done grouping ⟨listed, reflects⟩
    refine ⟨listed, reflects.tags_eq, reflects.holds, ?_⟩
    have noRefusal : Warning.ofKind .duplicateFunctionName (operation.compile known).2 = [] :=
      Warning.ofKind_eq_nil fun warning member => by
        rw [Operation.kind_compile member]
        decide
    rw [Warning.ofKind_append, noRefusal, List.append_nil]
    exact reflects.refusals_eq
  case placed =>
    rintro operation operationMem tag - done grouping ⟨listed, reflects⟩
    refine ⟨fun placement member => ?_, reflects.place ?_ tag⟩
    · rcases List.mem_append.mp member with old | new
      · exact listed placement old
      · rw [List.mem_singleton.mp new]
        exact operationMem
    · exact fun placement member => keysApart _ (listed placement member) _ operationMem

theorem Reflects.holds_of_mem (reflects : grouping.Reflects known renamed done)
    {module : TagModule} (member : module ∈ grouping.modules) :
    module.Holds known renamed (firsts Operation.functionName (placedUnder module.tag done)) := by
  have distinct : (grouping.modules.map TagModule.tag).Nodup := by
    rw [reflects.tags_eq]
    exact nodup_eraseDups _
  cases found : grouping.module? module.tag with
  | none => exact absurd (List.mem_map_of_mem member) (not_mem_tags_of_module? found)
  | some other =>
      have isModule : other = module := List.inj_on_of_nodup_map distinct (mem_of_module? found)
        member (tag_of_module? found)
      exact reflects.holds module.tag module (isModule ▸ found)

/-- Grouping degrades schemas, renames tags and refuses methods, and gives no other
warnings. -/
theorem kind_ofOperations {defaultTag : String} {operations : List Operation} {warning : Warning}
    (member : warning ∈ (ofOperations known defaultTag renamed operations).warnings) :
    warning.kind = .schemaDegraded ∨ warning.kind = .tagRenamed ∨
      warning.kind = .duplicateFunctionName := by
  refine ofOperations_induction known defaultTag renamed operations (fun _ grouping =>
    ∀ warning ∈ grouping.warnings, warning.kind = .schemaDegraded ∨ warning.kind = .tagRenamed ∨
      warning.kind = .duplicateFunctionName) (by simp [empty]) ?compiled ?placed warning member
  case compiled =>
    intro operation _ _ grouping holds warning isWarning
    rcases List.mem_append.mp isWarning with old | new
    · exact holds warning old
    · exact Or.inl (Operation.kind_compile new)
  case placed =>
    intro operation _ tag _ _ grouping holds
    have opened : ∀ warning ∈ (grouping.opened renamed tag).2.warnings,
        warning.kind = .schemaDegraded ∨ warning.kind = .tagRenamed ∨
          warning.kind = .duplicateFunctionName := by
      intro warning isWarning
      cases found : grouping.module? tag with
      | some module =>
          rw [opened_of_some found] at isWarning
          exact holds warning isWarning
      | none =>
          rw [opened_of_none found] at isWarning
          rcases List.mem_append.mp isWarning with old | new
          · exact holds warning old
          · exact Or.inr (Or.inl (kind_namesFor new))
    intro warning isWarning
    cases absorbed : (grouping.opened renamed tag).1.absorb? (operation.compile known).1 with
    | some extended =>
        rw [place_of_absorbed absorbed] at isWarning
        exact opened warning isWarning
    | none =>
        rw [place_of_refused absorbed] at isWarning
        rcases List.mem_append.mp isWarning with old | new
        · exact opened warning old
        · rw [List.mem_singleton.mp new]
          exact Or.inr (Or.inr rfl)

end Grouping

end TypedClient
