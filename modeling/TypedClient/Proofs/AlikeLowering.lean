import TypedClient.Document.Basic
import TypedClient.Proofs.AlikeReadings

/-!
# Lowering alike documents

Two schemas are alike if they are lowered to the same node, and two parts of an operation are
alike if they are the same references and their readings agree but for schemas that are
alike. In components that are alike, references then lead to alike parts, so that lowering
comes to the same operations with the same issues.
-/

namespace TypedClient.Document

open Json

/-- Two values are the same as schemas. -/
def SchemaAlike (old new : Value) : Prop :=
  SchemaNode.ofValue old = SchemaNode.ofValue new

/-- The readings of two values as records agree but for schemas that are alike. -/
def RecordAlike (title : String) (fields : Fields) (old new : Value) : Prop :=
  AttemptsAlike (fields.Alike fun _ => SchemaAlike) ((Shape.record title fields).ofValue old)
    ((Shape.record title fields).ofValue new)

/-- Two values are the same as references and are alike as records. -/
structure PartAlike (title : String) (fields : Fields) (old new : Value) : Prop where
  references : reference? old = reference? new
  readings : RecordAlike title fields old new

def ParameterAlike : Value → Value → Prop :=
  PartAlike "RawParameter" parameterFields

/-- Two values are alike as request bodies and as responses, which differ in nothing but how
messages name them. -/
def ContentAlike (old new : Value) : Prop :=
  ∀ title, PartAlike title contentFields old new

/-- What is alike in the fields of an operation. -/
def FieldAlike (key : String) : Value → Value → Prop :=
  if key = "parameters" then ParameterAlike else ContentAlike

/-- The readings of two values as operations agree but for parts that are alike. -/
def OperationAlike (old new : Value) : Prop :=
  AttemptsAlike (operationFields.Alike FieldAlike) (operationShape.ofValue old)
    (operationShape.ofValue new)

/-- Two values under a key of a path item are alike as shared parameters, or as operations. -/
structure ItemEntryAlike (key : String) (old new : Value) : Prop where
  shared : key = "parameters" →
    List.Forall₂ ParameterAlike (old.items?.getD []) (new.items?.getD [])
  operation : (HttpMethod.ofName? key).isSome → OperationAlike old new

def PathItemAlike (old new : Value) : Prop :=
  Option.Rel (EntriesAlike ItemEntryAlike) old.entries? new.entries?

/-- Two collections of components hold alike parts under the same names. -/
structure ComponentsAlike (components others : ComponentsEntry) : Prop where
  parameters : EntriesAlike (fun _ => ParameterAlike) components.parameters others.parameters
  requestBodies : EntriesAlike (fun _ => ContentAlike) components.requestBodies others.requestBodies
  responses : EntriesAlike (fun _ => ContentAlike) components.responses others.responses

theorem SchemaAlike.refl (value : Value) : SchemaAlike value value :=
  Eq.refl _

theorem RecordAlike.refl (title : String) (fields : Fields) (value : Value) :
    RecordAlike title fields value value :=
  AttemptsAlike.refl (fields.alike_refl fun _ => SchemaAlike.refl) _

theorem PartAlike.refl (title : String) (fields : Fields) (value : Value) :
    PartAlike title fields value value :=
  ⟨rfl, .refl title fields value⟩

theorem ContentAlike.references {old new : Value} (values : ContentAlike old new) :
    reference? old = reference? new :=
  (values "").references

theorem ContentAlike.refl (value : Value) : ContentAlike value value :=
  fun title => .refl title contentFields value

theorem FieldAlike.refl (key : String) (value : Value) : FieldAlike key value value := by
  unfold FieldAlike
  split
  · exact PartAlike.refl _ _ value
  · exact ContentAlike.refl value

theorem OperationAlike.refl (value : Value) : OperationAlike value value :=
  AttemptsAlike.refl (operationFields.alike_refl FieldAlike.refl) _

theorem ItemEntryAlike.refl (key : String) (value : Value) : ItemEntryAlike key value value :=
  ⟨fun _ => List.forall₂_same.mpr fun _ _ => PartAlike.refl _ _ _,
    fun _ => OperationAlike.refl value⟩

theorem PathItemAlike.refl (value : Value) : PathItemAlike value value := by
  unfold PathItemAlike
  cases value.entries? with
  | none => exact .none
  | some entries => exact .some (.refl ItemEntryAlike.refl entries)

theorem ComponentsAlike.refl (components : ComponentsEntry) :
    ComponentsAlike components components :=
  ⟨.refl (fun _ => PartAlike.refl _ _) _, .refl (fun _ => ContentAlike.refl) _,
    .refl (fun _ => ContentAlike.refl) _⟩

section References

variable {alike : Value → Value → Prop} {pool otherPool : List (String × Value)}
  (references : ∀ old new, alike old new → reference? old = reference? new)
  (pools : EntriesAlike (fun _ => alike) pool otherPool)

include references pools

/-- References of alike values lead to alike values, or break off in the same way. -/
theorem followFrom_alike (area : ComponentSection) (looks : Nat) {old new : Value}
    (values : alike old new) :
    AttemptsAlike alike (followFrom area pool looks old) (followFrom area otherPool looks new) := by
  induction looks generalizing old new with
  | zero => exact .error _
  | succ looks ih =>
      have sameReference := references old new values
      cases isReference : reference? old with
      | none =>
          simp only [followFrom, isReference, ← sameReference]
          exact .ok values
      | some pointer =>
          simp only [followFrom, isReference, ← sameReference]
          cases componentName? area pointer with
          | none => exact .error _
          | some name =>
              have found := pools.lookup name
              simp only
              generalize pool.lookup name = next, otherPool.lookup name = otherNext at found
              cases found with
              | none => exact .error _
              | some nexts => exact ih nexts

end References

/-- What of two parameter entries has to be the same for them to be lowered to the same. -/
structure ParameterEntry.Alike (entry other : ParameterEntry) : Prop where
  name : entry.name = other.name
  location : entry.location = other.location
  required : entry.required = other.required
  schema : entry.schema.map SchemaNode.ofValue = other.schema.map SchemaNode.ofValue

/-- Two contents have the same media types, with schemas that are alike. -/
def ContentEntry.Alike (entry other : ContentEntry) : Prop :=
  EntriesAlike (fun _ => Option.Rel SchemaAlike) entry.content other.content

structure OperationEntry.Alike (entry other : OperationEntry) : Prop where
  tags : entry.tags = other.tags
  summary : entry.summary = other.summary
  description : entry.description = other.description
  deprecated : entry.deprecated = other.deprecated
  parameters : List.Forall₂ ParameterAlike entry.parameters other.parameters
  requestBody : Option.Rel ContentAlike entry.requestBody other.requestBody
  responses : EntriesAlike (fun _ => ContentAlike) entry.responses other.responses

theorem map_ofValue_eq {old new : Option Value} (schemas : Option.Rel SchemaAlike old new) :
    old.map SchemaNode.ofValue = new.map SchemaNode.ofValue := by
  cases schemas with
  | none => rfl
  | some schemas => exact congrArg some schemas

theorem eq_of_rel_eq {α : Type} {first second : Option α} (same : Option.Rel Eq first second) :
    first = second := by
  cases same with
  | none => rfl
  | some same => rw [same]

section Entries

variable {old new : Value}

theorem ParameterAlike.entry (values : ParameterAlike old new) :
    AttemptsAlike ParameterEntry.Alike (ParameterEntry.ofValue old)
      (ParameterEntry.ofValue new) := by
  refine AttemptsAlike.map values.readings ?_
  rintro ⟨name, location, required, schema, ⟨⟩⟩ ⟨_, _, _, otherSchema, ⟨⟩⟩
    ⟨rfl, rfl, rfl, schemas, -⟩
  exact ⟨rfl, rfl, rfl, map_ofValue_eq schemas⟩

theorem ContentEntry.alike_ofCarrier {entry other : contentFields.Carrier}
    (entries : contentFields.Alike (fun _ => SchemaAlike) entry other) :
    (ContentEntry.ofCarrier entry).Alike (ContentEntry.ofCarrier other) := by
  obtain ⟨content, ⟨⟩⟩ := entry
  obtain ⟨otherContent, ⟨⟩⟩ := other
  refine List.rel_map ?_ entries.1
  rintro ⟨mediaType, schema, ⟨⟩⟩ ⟨_, otherSchema, ⟨⟩⟩ ⟨sameType, schemas, -⟩
  exact ⟨sameType, schemas⟩

theorem ContentAlike.entry (values : ContentAlike old new) (title : String) :
    AttemptsAlike ContentEntry.Alike
      (((Shape.record title contentFields).ofValue old).map ContentEntry.ofCarrier)
      (((Shape.record title contentFields).ofValue new).map ContentEntry.ofCarrier) :=
  AttemptsAlike.map (values title).readings fun _ _ => ContentEntry.alike_ofCarrier

namespace ContentEntry.Alike

variable {entry other : ContentEntry}

theorem mediaTypes (entries : entry.Alike other) :
    entry.content.map Prod.fst = other.content.map Prod.fst :=
  EntriesAlike.map_fst entries

theorem isEmpty (entries : entry.Alike other) :
    entry.content.isEmpty = other.content.isEmpty := by
  have sameTypes := congrArg List.isEmpty entries.mediaTypes
  rwa [List.isEmpty_map, List.isEmpty_map] at sameTypes

theorem firstJson? [MediaTypeParser] (entries : entry.Alike other) :
    Option.Rel (Option.Rel SchemaAlike) entry.firstJson? other.firstJson? :=
  EntriesAlike.find? entries isJsonMediaType

end ContentEntry.Alike

theorem OperationAlike.entry (values : OperationAlike old new) :
    AttemptsAlike OperationEntry.Alike (OperationEntry.ofValue old)
      (OperationEntry.ofValue new) := by
  refine AttemptsAlike.map values ?_
  rintro ⟨tags, summary, description, _, parameters, requestBody, responses, ⟨⟩⟩
    ⟨otherTags, otherSummary, otherDescription, _, otherParameters, otherBody, otherResponses, ⟨⟩⟩
    ⟨sameTags, sameSummary, sameDescription, rfl, parametersAlike, bodies, responsesAlike, -⟩
  have tagsEq : tags = otherTags := List.forall₂_eq_eq_eq ▸ sameTags
  exact ⟨tagsEq, eq_of_rel_eq sameSummary, eq_of_rel_eq sameDescription, rfl, parametersAlike,
    bodies, responsesAlike⟩

end Entries

theorem sharedParameters_alike {entries otherEntries : List (String × Value)}
    (items : EntriesAlike ItemEntryAlike entries otherEntries) :
    List.Forall₂ ParameterAlike (sharedParameters entries) (sharedParameters otherEntries) := by
  have found := items.lookup "parameters"
  unfold sharedParameters
  generalize entries.lookup "parameters" = value, otherEntries.lookup "parameters" = other at found
  cases found with
  | none => exact .nil
  | some values => exact values.shared rfl

section Lowering

variable {components others : ComponentsEntry} (alike : ComponentsAlike components others)
  {old new : Value}

include alike

theorem lowerParameter_alike (values : ParameterAlike old new) :
    lowerParameter components old = lowerParameter others new := by
  have followed : AttemptsAlike ParameterAlike (follow .parameters components.parameters old)
      (follow .parameters others.parameters new) :=
    followFrom_alike (fun _ _ => PartAlike.references) alike.parameters _ _ values
  refine (followed.bind fun resolved other values => ?_).eq
  have entries := values.entry
  generalize ParameterEntry.ofValue resolved = reading,
    ParameterEntry.ofValue other = otherReading at entries
  cases entries with
  | error fault => exact .error _
  | ok entries =>
      simp only [entries.location, entries.name, entries.required, entries.schema]
      exact .refl (fun _ => rfl) _

variable [MediaTypeParser]

theorem lowerRequestBody_alike (values : ContentAlike old new) :
    lowerRequestBody components old = lowerRequestBody others new := by
  have followed : AttemptsAlike ContentAlike (follow .requestBodies components.requestBodies old)
      (follow .requestBodies others.requestBodies new) :=
    followFrom_alike (fun _ _ => ContentAlike.references) alike.requestBodies _ _ values
  unfold lowerRequestBody
  generalize follow .requestBodies components.requestBodies old = found,
    follow .requestBodies others.requestBodies new = otherFound at followed
  cases followed with
  | error issue => rfl
  | @ok resolved other values =>
      have entries : AttemptsAlike ContentEntry.Alike (ContentEntry.ofRequestBody resolved)
          (ContentEntry.ofRequestBody other) := values.entry "RawRequestBody"
      simp only
      generalize ContentEntry.ofRequestBody resolved = reading,
        ContentEntry.ofRequestBody other = otherReading at entries
      cases entries with
      | error fault => rfl
      | @ok entry otherEntry entries =>
          simp only [entries.isEmpty, entries.mediaTypes]
          have schemas := entries.firstJson?
          generalize entry.firstJson? = schema, otherEntry.firstJson? = otherSchema at schemas
          cases schemas with
          | none => rfl
          | some schemas =>
              cases schemas with
              | none => rfl
              | some schemas => simp only [show SchemaNode.ofValue _ = _ from schemas]

theorem lowerResponse_alike (values : ContentAlike old new) :
    lowerResponse components old = lowerResponse others new := by
  have followed : AttemptsAlike ContentAlike (follow .responses components.responses old)
      (follow .responses others.responses new) :=
    followFrom_alike (fun _ _ => ContentAlike.references) alike.responses _ _ values
  unfold lowerResponse
  generalize follow .responses components.responses old = found,
    follow .responses others.responses new = otherFound at followed
  cases followed with
  | error issue => rfl
  | @ok resolved other values =>
      have entries : AttemptsAlike ContentEntry.Alike (ContentEntry.ofResponse resolved)
          (ContentEntry.ofResponse other) := values.entry "RawResponse"
      simp only
      generalize ContentEntry.ofResponse resolved = reading,
        ContentEntry.ofResponse other = otherReading at entries
      cases entries with
      | error fault => rfl
      | @ok entry otherEntry entries =>
          have schemas := entries.firstJson?
          simp only
          generalize entry.firstJson? = schema, otherEntry.firstJson? = otherSchema at schemas
          cases schemas with
          | none => rfl
          | some schemas => exact congrArg (·, []) (map_ofValue_eq schemas)

theorem lowerOperation_alike {shared otherShared : List Value} {entry other : OperationEntry}
    (sharedAlike : List.Forall₂ ParameterAlike shared otherShared) (entries : entry.Alike other)
    (path : String) (method : HttpMethod) :
    lowerOperation components shared path method entry =
      lowerOperation others otherShared path method other := by
  have parameters : (shared ++ entry.parameters).map (lowerParameter components) =
      (otherShared ++ other.parameters).map (lowerParameter others) :=
    List.forall₂_eq_eq_eq ▸ List.rel_map (fun _ _ values => lowerParameter_alike alike values)
      (List.rel_append sharedAlike entries.parameters)
  have bodies := entries.requestBody
  have responses := entries.responses.lookup "200"
  unfold lowerOperation
  simp only [parameters, entries.tags, entries.summary, entries.description, entries.deprecated]
  generalize entry.requestBody = body, other.requestBody = otherBody at bodies
  generalize entry.responses.lookup "200" = response,
    other.responses.lookup "200" = otherResponse at responses
  cases bodies with
  | none =>
      cases responses with
      | none => rfl
      | some responses => simp only [lowerResponse_alike alike responses]
  | some bodies =>
      simp only [lowerRequestBody_alike alike bodies]
      cases responses with
      | none => rfl
      | some responses => simp only [lowerResponse_alike alike responses]

/-- Alike operations under one key of a path item have one outcome. -/
theorem lowerItemEntry_alike {shared otherShared : List Value}
    (sharedAlike : List.Forall₂ ParameterAlike shared otherShared) (path key : String)
    (values : (HttpMethod.ofName? key).isSome → OperationAlike old new) :
    lowerItemEntry components shared path (key, old) =
      lowerItemEntry others otherShared path (key, new) := by
  unfold lowerItemEntry
  cases isMethod : HttpMethod.ofName? key with
  | none => rw [Option.map_none, Option.map_none]
  | some method =>
      rw [isMethod] at values
      have entries := (values rfl).entry
      simp only [Option.map_some]
      generalize OperationEntry.ofValue old = reading, OperationEntry.ofValue new = otherReading
        at entries
      cases entries with
      | error fault => rfl
      | ok entries => simp only [lowerOperation_alike alike sharedAlike entries]

/-- Alike path items have the same outcomes. -/
theorem lowerPath_alike (items : PathItemAlike old new) (path : String) :
    lowerPath components path old = lowerPath others path new := by
  unfold PathItemAlike at items
  unfold lowerPath
  generalize old.entries? = entries, new.entries? = otherEntries at items
  cases items with
  | none => rfl
  | @some entries otherEntries items =>
      have shared := sharedParameters_alike items
      simp only
      generalize sharedParameters entries = before, sharedParameters otherEntries = after at shared
      induction items with
      | nil => rw [List.filterMap_nil, List.filterMap_nil]
      | @cons entry other _ _ pair _ ih =>
          obtain ⟨key, value⟩ := entry
          obtain ⟨otherKey, otherValue⟩ := other
          obtain ⟨rfl, values⟩ := pair
          rw [List.filterMap_cons, List.filterMap_cons, ih,
            lowerItemEntry_alike alike shared path key values.operation]

end Lowering

/-- Alike documents have the same outcomes. -/
theorem outcomes_alike [MediaTypeParser] {entry other : DocumentEntry}
    (components : ComponentsAlike entry.components other.components)
    (paths : EntriesAlike (fun _ => PathItemAlike) entry.paths other.paths) :
    outcomes entry = outcomes other := by
  unfold outcomes
  generalize entry.paths = items, other.paths = otherItems at paths
  induction paths with
  | nil => rw [List.flatMap_nil, List.flatMap_nil]
  | @cons item otherItem _ _ pair _ ih =>
      obtain ⟨path, value⟩ := item
      obtain ⟨otherPath, otherValue⟩ := otherItem
      obtain ⟨rfl, values⟩ := pair
      have same := lowerPath_alike components values path
      rw [List.flatMap_cons, List.flatMap_cons, ih]
      exact congrArg (· ++ _) same

end TypedClient.Document
