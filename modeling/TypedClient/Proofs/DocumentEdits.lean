import TypedClient.Proofs.SchemaEdits
import TypedClient.Proofs.WrittenModules
import Mathlib.Logic.Relation

/-!
# Documents with edited schemas

Documents that differ in edits of their schemas are lowered to the same document, so the same
client is generated from them: what is written does not depend on the order of the keywords of
a schema, nor on keywords that are not modelled.
-/

namespace TypedClient.Document

open Json SchemaNode

/-- The place of the components of a section. -/
def placeOf : ComponentSection → Place
  | .schemas => .schema
  | .parameters => .parameter
  | .requestBodies => .content
  | .responses => .content

/-- The components with others in one section. -/
def ComponentsEntry.withPool (components : ComponentsEntry) (area : ComponentSection)
    (pool : List (String × Value)) : ComponentsEntry :=
  match area with
  | .schemas => { components with schemas := pool }
  | .parameters => { components with parameters := pool }
  | .requestBodies => { components with requestBodies := pool }
  | .responses => { components with responses := pool }

/-- An edit of one schema object of a document. -/
inductive DocumentEdit : DocumentEntry → DocumentEntry → Prop where
  | paths {entry : DocumentEntry} {paths : List (String × Value)}
      (edit : Edit (.table .pathItem) (.mapping entry.paths) (.mapping paths)) :
      DocumentEdit entry { entry with paths := paths }
  | components {entry : DocumentEntry} (area : ComponentSection) {pool : List (String × Value)}
      (edit : Edit (.table (placeOf area)) (.mapping (entry.components.pool area))
        (.mapping pool)) :
      DocumentEdit entry { entry with components := entry.components.withPool area pool }

theorem Edit.entriesAlike {place : Place} {entries others : List (String × Value)}
    (edit : Edit (.table place) (.mapping entries) (.mapping others)) :
    EntriesAlike (fun _ => place.Alike) entries others := by
  rcases edit.alike with same | ⟨_, _, same, otherSame, alike⟩
  · cases same
    exact .refl (fun _ => place.alike_refl) entries
  · cases same
    cases otherSame
    exact alike

/-- The components after an edit, but for the schemas. -/
theorem ComponentsEntry.alike_withPool (components : ComponentsEntry) (area : ComponentSection)
    {pool : List (String × Value)}
    (edit : Edit (.table (placeOf area)) (.mapping (components.pool area)) (.mapping pool)) :
    ComponentsAlike components (components.withPool area pool) := by
  have pools := edit.entriesAlike
  have same := ComponentsAlike.refl components
  cases area with
  | schemas => exact ⟨same.parameters, same.requestBodies, same.responses⟩
  | parameters => exact ⟨pools, same.requestBodies, same.responses⟩
  | requestBodies => exact ⟨same.parameters, pools, same.responses⟩
  | responses => exact ⟨same.parameters, same.requestBodies, pools⟩

theorem ComponentsEntry.schemas_withPool (components : ComponentsEntry) (area : ComponentSection)
    {pool : List (String × Value)}
    (edit : Edit (.table (placeOf area)) (.mapping (components.pool area)) (.mapping pool)) :
    membersOf components.schemas = membersOf (components.withPool area pool).schemas := by
  cases area with
  | schemas => exact membersOf_alike edit.entriesAlike
  | parameters | requestBodies | responses => rfl

end TypedClient.Document

namespace TypedClient.ApiDocument

open Json Document

/-- What every single edit keeps, any number of edits keeps. -/
theorem eq_of_edits {α β : Type} {edit : α → α → Prop} (view : α → β)
    (step : ∀ old new, edit old new → view old = view new) {old new : α}
    (edits : Relation.EqvGen edit old new) : view old = view new := by
  induction edits with
  | rel old new edit => exact step old new edit
  | refl value => rfl
  | symm old new _ ih => exact ih.symm
  | trans first second third _ _ ih otherIH => exact ih.trans otherIH

section Generation

variable [MediaTypeParser]

theorem ofEntry_congr {old new : DocumentEntry} (openapi : old.openapi = new.openapi)
    (swagger : old.swagger = new.swagger) (info : old.info = new.info)
    (schemas : SchemaNode.membersOf old.components.schemas =
      SchemaNode.membersOf new.components.schemas)
    (sameOutcomes : outcomes old = outcomes new) : ofEntry old = ofEntry new := by
  rw [SchemaNode.membersOf_eq_map, SchemaNode.membersOf_eq_map] at schemas
  unfold ofEntry
  rw [openapi, swagger, info, schemas, sameOutcomes]

/-- An edit makes no difference to the document that is generated from. -/
theorem ofEntry_edit {old new : DocumentEntry} (edit : DocumentEdit old new) :
    ofEntry old = ofEntry new := by
  cases edit with
  | @paths paths edit =>
      have sameOutcomes : outcomes old = outcomes { old with paths := paths } :=
        outcomes_alike (ComponentsAlike.refl _) edit.entriesAlike
      exact ofEntry_congr rfl rfl rfl rfl sameOutcomes
  | @components area pool edit =>
      have sameOutcomes : outcomes old =
          outcomes { old with components := old.components.withPool area pool } :=
        outcomes_alike (old.components.alike_withPool area edit)
          (.refl (fun _ => PathItemAlike.refl) old.paths)
      exact ofEntry_congr rfl rfl rfl (old.components.schemas_withPool area edit) sameOutcomes

/-- Schemas that differ in edits are lowered to one node. Documents that differ in edits of
their schemas are accepted or refused alike, and one client is generated from both, with the
same modules, index, counts and warnings. -/
theorem generate_ignoresEdits [Text.Conversions] :
    (∀ old new : Value, Relation.EqvGen (Edit .schema) old new →
      SchemaNode.ofValue old = SchemaNode.ofValue new) ∧
    ∀ old new : DocumentEntry, Relation.EqvGen DocumentEdit old new →
      ofEntry old = ofEntry new ∧
      ∀ document options, ofEntry old = .ok document →
        ∃ other client, ofEntry new = .ok other ∧ document.generate options = .ok client ∧
          other.generate options = .ok client := by
  refine ⟨fun old new edits => eq_of_edits SchemaNode.ofValue (fun _ _ => Edit.alike) edits,
    fun old new edits => ?_⟩
  have same : ofEntry old = ofEntry new := eq_of_edits ofEntry (fun _ _ => ofEntry_edit) edits
  refine ⟨same, fun document options accepted => ?_⟩
  obtain ⟨cycles, modules, generated, -, -⟩ := document.exists_written_client options
  exact ⟨document, _, same ▸ accepted, generated, generated⟩

end Generation

section Sample

attribute [local instance] Text.Conversions.unchanged MediaTypeParser.ofGrammar

/-- The schema of an integer. -/
def limitSchema (further : List (String × Value)) : Value :=
  .mapping (("type", .text "integer") :: further)

/-- The keywords of a pet, whose only property has the name of a keyword. -/
def petKeywords (further : List (String × Value)) : List (String × Value) :=
  [("type", .text "object"),
    ("properties", .mapping [("title", .mapping (("type", .text "string") :: further))]),
    ("required", .sequence [.text "title"])]

/-- A document with the schema of a parameter and that of a component. -/
def petsEntry (limit pet : Value) : DocumentEntry where
  openapi := some "3.0.0"
  swagger := none
  info := ⟨"", "", none⟩
  paths := [("/pets", .mapping [("get", .mapping [("parameters", .sequence [.mapping
    [("name", .text "limit"), ("in", .text "query"), ("schema", limit)]])])])]
  components := ⟨[("Pet", pet)], [], [], []⟩

def boundedLimit : Value :=
  limitSchema [("maximum", .number (.integer 100))]

/-- A description of the property, and the keywords in the opposite order. -/
def describedPet : Value :=
  .mapping (petKeywords [("description", .text "Its name")]).reverse

theorem generate_ignoresEdits_describedPet :
    Relation.EqvGen (Edit .schema) (.mapping (petKeywords [])) describedPet ∧
      SchemaNode.ofValue (.mapping (petKeywords [])) = SchemaNode.ofValue describedPet ∧
      Relation.EqvGen DocumentEdit (petsEntry (limitSchema []) (.mapping (petKeywords [])))
        (petsEntry boundedLimit describedPet) ∧
      ∃ document other client,
        ofEntry (petsEntry (limitSchema []) (.mapping (petKeywords []))) = .ok document ∧
        ofEntry (petsEntry boundedLimit describedPet) = .ok other ∧
        document.generate ⟨"common", "../http", "../types"⟩ = .ok client ∧
        other.generate ⟨"common", "../http", "../types"⟩ = .ok client := by
  have title : Edit .schema (.mapping [("type", .text "string")])
      (.mapping [("type", .text "string"), ("description", .text "Its name")]) := .keywords rfl
  have described : Edit .schema (.mapping (petKeywords []))
      (.mapping (petKeywords [("description", .text "Its name")])) :=
    .underKey .properties (.underKey (.entries "title") title [] [])
      [("type", .text "object")] [("required", .sequence [.text "title"])]
  have reversed : Edit .schema (.mapping (petKeywords [("description", .text "Its name")]))
      describedPet := .order (by decide) (List.reverse_perm _).symm
  have inComponent : ∀ old new, Edit .schema old new →
      DocumentEdit (petsEntry boundedLimit old) (petsEntry boundedLimit new) := fun old _ edit =>
    @DocumentEdit.components (petsEntry boundedLimit old) .schemas _
      (.underKey (.entries "Pet") edit [] [])
  have inPath : ∀ pet, DocumentEdit (petsEntry (limitSchema []) pet)
      (petsEntry boundedLimit pet) := by
    intro pet
    have limit : Edit .schema (limitSchema []) boundedLimit := .keywords rfl
    have parameter := Edit.underKey .parameterSchema limit
      [("name", .text "limit"), ("in", .text "query")] []
    have parameters := @Edit.atIndex (.list .parameter) _ _ _ [] (.items 0) parameter []
    have operation := Edit.underKey .parameters parameters [] []
    have item := Edit.underKey (@Place.UnderKey.operations "get" .get rfl) operation [] []
    exact @DocumentEdit.paths (petsEntry (limitSchema []) pet) _
      (.underKey (.entries "/pets") item [] [])
  have schemaEdits : Relation.EqvGen (Edit .schema) (.mapping (petKeywords [])) describedPet :=
    .trans _ _ _ (.rel _ _ described) (.rel _ _ reversed)
  have edits : Relation.EqvGen DocumentEdit
      (petsEntry (limitSchema []) (.mapping (petKeywords [])))
      (petsEntry boundedLimit describedPet) :=
    .trans _ _ _ (.rel _ _ (inPath _)) (.trans _ _ _ (.rel _ _ (inComponent _ _ described))
      (.rel _ _ (inComponent _ _ reversed)))
  obtain ⟨other, client, accepted, generated, otherGenerated⟩ :=
    (generate_ignoresEdits.2 _ _ edits).2 _ ⟨"common", "../http", "../types"⟩ rfl
  exact ⟨schemaEdits, generate_ignoresEdits.1 _ _ schemaEdits, edits, _, other, client, rfl,
    accepted, generated, otherGenerated⟩

end Sample

end TypedClient.ApiDocument
