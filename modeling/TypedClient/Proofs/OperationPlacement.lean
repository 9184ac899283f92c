import TypedClient.Tag.Grouping

/-!
# Placing operations

Grouping places every operation under each of its tags, in document order. Placing
opens the module of one tag and lets it absorb the operation; the modules of other
tags, and the names of all, stay as they are.
-/

namespace TypedClient

theorem TagModule.heading_absorb? {module extended : TagModule} {compiled : CompiledOperation}
    (absorbed : module.absorb? compiled = some extended) :
    extended.tag = module.tag ∧ extended.names = module.names := by
  obtain ⟨table, _, rfl⟩ := Option.map_eq_some_iff.mp absorbed
  exact ⟨rfl, rfl⟩

/-- Whether an operation belongs to a tag. -/
def Operation.carries (defaultTag tag : String) (operation : Operation) : Bool :=
  (operation.effectiveTags defaultTag).contains tag

theorem Operation.carries_iff {defaultTag tag : String} {operation : Operation} :
    operation.carries defaultTag tag = true ↔ tag ∈ operation.effectiveTags defaultTag :=
  List.contains_iff_mem

namespace Grouping

/-- The operations with the tags they are placed under, in the order of placing. -/
def placementsOf (defaultTag : String) (operations : List Operation) :
    List (Operation × String) :=
  operations.flatMap fun operation =>
    (operation.effectiveTags defaultTag).map fun tag => (operation, tag)

/-- What holds of an empty grouping after no placements, and is preserved by warnings
of compiling and by every placement, holds of the grouping of all operations. -/
theorem ofOperations_induction [Text.Conversions] (known : List String) (defaultTag : String)
    (renamed : List (DeclarationName × String)) (operations : List Operation)
    (holds : List (Operation × String) → Grouping → Prop)
    (start : holds [] empty)
    (compiled : ∀ operation ∈ operations, ∀ done grouping, holds done grouping →
      holds done { grouping with
        warnings := grouping.warnings ++ (operation.compile known).2 })
    (placed : ∀ operation ∈ operations, ∀ tag ∈ operation.effectiveTags defaultTag,
      ∀ done grouping, holds done grouping →
        holds (done ++ [(operation, tag)])
          (place renamed operation.label (operation.compile known).1 grouping tag)) :
    holds (placementsOf defaultTag operations)
      (ofOperations known defaultTag renamed operations) := by
  have throughTags : ∀ operation ∈ operations, ∀ tags ⊆ operation.effectiveTags defaultTag,
      ∀ done grouping, holds done grouping →
        holds (done ++ tags.map fun tag => (operation, tag))
          (tags.foldl (place renamed operation.label (operation.compile known).1) grouping) := by
    intro operation operationMem tags
    induction tags with
    | nil => simp
    | cons tag rest ih =>
        intro subset done grouping before
        have step := placed operation operationMem tag (subset List.mem_cons_self) done grouping
          before
        have others := ih (fun _ member => subset (List.mem_cons_of_mem _ member)) _ _ step
        rwa [List.append_assoc] at others
  have throughOperations : ∀ rest ⊆ operations, ∀ done grouping, holds done grouping →
      holds (done ++ placementsOf defaultTag rest)
        (rest.foldl (add known defaultTag renamed) grouping) := by
    intro rest
    induction rest with
    | nil => simp [placementsOf]
    | cons operation rest ih =>
        intro subset done grouping before
        have operationMem := subset List.mem_cons_self
        have step := throughTags operation operationMem _ (List.Subset.refl _) done _
          (compiled operation operationMem done grouping before)
        have others := ih (fun _ member => subset (List.mem_cons_of_mem _ member)) _ _ step
        rwa [List.append_assoc] at others
  exact throughOperations operations (List.Subset.refl _) [] empty start

variable {renamed : List (DeclarationName × String)} {grouping : Grouping} {tag : String}

theorem tag_of_module? {module : TagModule} (found : grouping.module? tag = some module) :
    module.tag = tag := by
  simpa using List.find?_some found

theorem mem_of_module? {module : TagModule} (found : grouping.module? tag = some module) :
    module ∈ grouping.modules :=
  List.mem_of_find?_eq_some found

theorem not_mem_tags_of_module? (missing : grouping.module? tag = none) :
    tag ∉ grouping.modules.map TagModule.tag := by
  intro member
  obtain ⟨module, moduleMem, isTag⟩ := List.mem_map.mp member
  exact absurd isTag (by simpa using List.find?_eq_none.mp missing module moduleMem)

variable [Text.Conversions]

theorem opened_of_some {module : TagModule} (found : grouping.module? tag = some module) :
    grouping.opened renamed tag = (module, grouping) := by
  simp [opened, found]

theorem opened_of_none (missing : grouping.module? tag = none) :
    grouping.opened renamed tag =
      (.new tag (namesFor grouping.claims tag).1 renamed,
        { modules := grouping.modules ++ [.new tag (namesFor grouping.claims tag).1 renamed]
          claims := grouping.claims ++ [((namesFor grouping.claims tag).1.clashKey, tag)]
          warnings := grouping.warnings ++ (namesFor grouping.claims tag).2 }) := by
  simp [opened, missing]

/-- Opening finds the module of the tag, and leaves those of other tags alone. -/
theorem module?_opened (other : String) :
    (grouping.opened renamed tag).2.module? other =
      if other = tag then some (grouping.opened renamed tag).1 else grouping.module? other := by
  cases found : grouping.module? tag with
  | some module =>
      rw [opened_of_some found]
      split
      · rename_i same
        rw [same, found]
      · rfl
  | none =>
      rw [opened_of_none found]
      split
      · rename_i same
        subst same
        simp only [module?] at found ⊢
        simp [List.find?_append, found, TagModule.new]
      · rename_i different
        simp [module?, List.find?_append, TagModule.new, Ne.symm different]

theorem module?_opened_self :
    (grouping.opened renamed tag).2.module? tag = some (grouping.opened renamed tag).1 :=
  (module?_opened tag).trans (if_pos rfl)

theorem tag_opened : (grouping.opened renamed tag).1.tag = tag :=
  tag_of_module? module?_opened_self

variable {label : String} {compiled : CompiledOperation}

theorem place_of_absorbed {extended : TagModule}
    (absorbed : (grouping.opened renamed tag).1.absorb? compiled = some extended) :
    place renamed label compiled grouping tag =
      { (grouping.opened renamed tag).2 with
        modules := Keyed.put TagModule.tag extended (grouping.opened renamed tag).2.modules } := by
  simp [place, absorbed]

theorem place_of_refused (refused : (grouping.opened renamed tag).1.absorb? compiled = none) :
    place renamed label compiled grouping tag =
      { (grouping.opened renamed tag).2 with
        warnings := (grouping.opened renamed tag).2.warnings ++
          [.duplicateFunctionName tag label compiled.method.functionName] } := by
  simp [place, refused]

/-- Placing lets the module of the tag absorb the operation, if it can, and leaves those
of other tags alone. -/
theorem module?_place (other : String) :
    (place renamed label compiled grouping tag).module? other =
      if other = tag then
        some (((grouping.opened renamed tag).1.absorb? compiled).getD
          (grouping.opened renamed tag).1)
      else grouping.module? other := by
  have opened := @module?_opened renamed grouping tag _ other
  cases absorbed : (grouping.opened renamed tag).1.absorb? compiled with
  | some extended =>
      have isTag : extended.tag = tag := (TagModule.heading_absorb? absorbed).1.trans tag_opened
      rw [place_of_absorbed absorbed]
      unfold module? at opened ⊢
      simp only [Keyed.find?_put, isTag, opened, Option.getD_some]
      by_cases same : other = tag
      · simp [same]
      · simp [same, Ne.symm same]
  | none =>
      rw [place_of_refused absorbed]
      exact opened

/-- Placing changes no more of the tags and the names of modules than opening does. -/
theorem map_heading_place {α : Type} {heading : TagModule → α}
    (ofHeading : ∀ module other : TagModule, module.tag = other.tag → module.names = other.names →
      heading module = heading other) :
    (place renamed label compiled grouping tag).modules.map heading =
      (grouping.opened renamed tag).2.modules.map heading := by
  cases absorbed : (grouping.opened renamed tag).1.absorb? compiled with
  | some extended =>
      obtain ⟨sameTag, sameNames⟩ := TagModule.heading_absorb? absorbed
      have isTag : extended.tag = tag := sameTag.trans tag_opened
      rw [place_of_absorbed absorbed]
      exact Keyed.map_put (isTag ▸ module?_opened_self) (ofHeading _ _ sameTag sameNames)
  | none => rw [place_of_refused absorbed]

theorem claims_place : (place renamed label compiled grouping tag).claims =
    (grouping.opened renamed tag).2.claims := by
  cases absorbed : (grouping.opened renamed tag).1.absorb? compiled with
  | some extended => rw [place_of_absorbed absorbed]
  | none => rw [place_of_refused absorbed]

end Grouping

end TypedClient
