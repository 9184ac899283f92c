import TypedClient.Proofs.SchemaKeywords

/-!
# Edits inside schemas

There are schemas below other schemas, in parameters, in the contents of bodies and responses,
in the operations that have these, and in path items; and there can be schemas in any value
that is not read. An edit changes one schema object in a value, at any depth: its keywords are
put in another order, or keywords that are not modelled are added, removed or changed. What an
edit makes of a value is alike to it.
-/

namespace TypedClient.Document

open Json SchemaNode

/-- The kinds of values in which there are schemas. -/
inductive Place where
  | schema
  | parameter
  | mediaType
  /-- A request body or a response. -/
  | content
  | operation
  | pathItem
  /-- A value that is not read, such as a header, an encoding or a callback. -/
  | unread
  | list (item : Place)
  | table (item : Place)

namespace Place

/-- Whether the value under a key of a mapping at a place is read. -/
def isRead : Place → String → Bool
  | schema, key => modelledKeywords.contains key
  | parameter, key => key == "$ref" || parameterFields.keys.contains key
  | mediaType, key => mediaFields.keys.contains key
  | content, key => key == "$ref" || contentFields.keys.contains key
  | operation, key => operationFields.keys.contains key
  | pathItem, key => key == "parameters" || (HttpMethod.ofName? key).isSome
  | unread, _ => false
  | list _, _ => true
  | table _, _ => true

/-- What stands under a key of a mapping at a place, if there are schemas in it. A table has
keys that are chosen freely, such as the names of properties. Under a key that is not read
there can be schemas at any place. -/
inductive UnderKey : Place → String → Place → Prop where
  | items : UnderKey schema "items" schema
  | properties : UnderKey schema "properties" (table schema)
  | alternatives {keyword : String} (isComposition : keyword ∈ compositionKeywords) :
      UnderKey schema keyword (list schema)
  | parameterSchema : UnderKey parameter "schema" schema
  | mediaTypeSchema : UnderKey mediaType "schema" schema
  | mediaTypes : UnderKey content "content" (table mediaType)
  | parameters : UnderKey operation "parameters" (list parameter)
  | requestBody : UnderKey operation "requestBody" content
  | responses : UnderKey operation "responses" (table content)
  | sharedParameters : UnderKey pathItem "parameters" (list parameter)
  | operations {key : String} {method : HttpMethod}
      (isMethod : HttpMethod.ofName? key = some method) : UnderKey pathItem key operation
  | entries {item : Place} (key : String) : UnderKey (table item) key item
  | unread {place : Place} {key : String} (notRead : place.isRead key = false) (inner : Place) :
      UnderKey place key inner

/-- What stands at an index of a sequence at a place, if there are schemas in it: the items of
a list, the schemas of a list under `items`, and the fields of a record that is written as a
sequence. -/
inductive AtIndex : Place → Nat → Place → Prop where
  | items {item : Place} (index : Nat) : AtIndex (list item) index item
  | schemas (index : Nat) : AtIndex schema index schema
  | parameterSchema : AtIndex parameter 3 schema
  | mediaTypeSchema : AtIndex mediaType 0 schema
  | mediaTypes : AtIndex content 0 (table mediaType)
  | parameters : AtIndex operation 4 (list parameter)
  | requestBody : AtIndex operation 5 content
  | responses : AtIndex operation 6 (table content)
  | unread (index : Nat) (inner : Place) : AtIndex unread index inner

end Place

/-- An edit of one schema object in a value at a place. -/
inductive Edit : Place → Value → Value → Prop where
  /-- Keywords that are not modelled are added, removed or changed. -/
  | keywords {old new : List (String × Value)}
      (same : old.filter isModelled = new.filter isModelled) :
      Edit .schema (.mapping old) (.mapping new)
  /-- The keywords, which are distinct in every object that is read, are put in another order. -/
  | order {old new : List (String × Value)} (distinct : (old.map Prod.fst).Nodup)
      (reordered : old.Perm new) : Edit .schema (.mapping old) (.mapping new)
  | underKey {place inner : Place} {key : String} {old new : Value}
      (stands : place.UnderKey key inner) (edit : Edit inner old new)
      (before after : List (String × Value)) :
      Edit place (.mapping (before ++ (key, old) :: after))
        (.mapping (before ++ (key, new) :: after))
  | atIndex {place inner : Place} {old new : Value} {before : List Value}
      (stands : place.AtIndex before.length inner) (edit : Edit inner old new)
      (after : List Value) :
      Edit place (.sequence (before ++ old :: after)) (.sequence (before ++ new :: after))

/-- Two values are alike as what stands at a place. -/
def Place.Alike : Place → Value → Value → Prop
  | schema => SchemaAlike
  | parameter => ParameterAlike
  | mediaType => RecordAlike "RawMediaType" mediaFields
  | unread => fun _ _ => True
  | content => ContentAlike
  | operation => OperationAlike
  | pathItem => PathItemAlike
  | list item => fun old new => old = new ∨ ∃ items others, old = .sequence items ∧
      new = .sequence others ∧ List.Forall₂ item.Alike items others
  | table item => fun old new => old = new ∨ ∃ entries others, old = .mapping entries ∧
      new = .mapping others ∧ EntriesAlike (fun _ => item.Alike) entries others

theorem Place.alike_refl (place : Place) (value : Value) : place.Alike value value := by
  cases place with
  | schema | unread => trivial
  | parameter => exact PartAlike.refl _ _ value
  | mediaType => exact RecordAlike.refl _ _ value
  | content => exact ContentAlike.refl value
  | operation => exact OperationAlike.refl value
  | pathItem => exact PathItemAlike.refl value
  | list | table => exact Or.inl rfl

section Readings

variable {place inner : Place} {key : String} {old new : Value}
  {alike : String → Value → Value → Prop}

/-- Nothing that is edited is absent, before or after. -/
theorem Edit.ne_null (edit : Edit place old new) : old ≠ .null ∧ new ≠ .null := by
  cases edit <;> exact ⟨nofun, nofun⟩

theorem readsAlike_optional (edit : Edit place old new) (values : alike key old new) :
    (Shape.optional .value).ReadsAlike alike key old new := by
  obtain ⟨notNull, otherNotNull⟩ := edit.ne_null
  have read : ∀ value : Value, value ≠ .null →
      (Shape.optional .value).ofValue value = .ok (some value) := by
    intro value notNull
    cases value <;> first | rfl | exact absurd rfl notNull
  rw [Shape.ReadsAlike, read old notNull, read new otherNotNull]
  exact .ok (.some values)

theorem readsAlike_list (refl : ∀ key value, alike key value value)
    (lists : (Place.list place).Alike old new)
    (each : ∀ old new, place.Alike old new → alike key old new) :
    (Shape.list .value).ReadsAlike alike key old new := by
  rcases lists with rfl | ⟨items, others, rfl, rfl, pairs⟩
  · exact .refl (Shape.alike_refl refl key _) _
  · exact AttemptsAlike.mapM (fun old new values => .ok (each old new values)) pairs

theorem readsAlike_table (refl : ∀ key value, alike key value value) {shape : Shape}
    (tables : (Place.table place).Alike old new)
    (each : ∀ old new, place.Alike old new → shape.ReadsAlike alike key old new) :
    (Shape.table shape).ReadsAlike alike key old new := by
  rcases tables with rfl | ⟨entries, others, rfl, rfl, pairs⟩
  · exact .refl (Shape.alike_refl refl key _) _
  · refine AttemptsAlike.mapM ?_ pairs
    rintro ⟨name, value⟩ ⟨_, other⟩ ⟨rfl, values⟩
    exact (each value other values).map fun _ _ results => ⟨rfl, results⟩

theorem readsAlike_underParameter (stands : Place.parameter.UnderKey key inner)
    (edit : Edit inner old new) (values : inner.Alike old new) :
    parameterFields.ReadsAlike (fun _ => SchemaAlike) key old new := by
  cases stands with
  | parameterSchema => exact readsAlike_optional edit values
  | unread notRead =>
      rw [Place.isRead, Bool.or_eq_false_iff] at notRead
      exact parameterFields.readsAlike_of_not_mem (by simpa using notRead.2)

theorem readsAlike_underMediaType (stands : Place.mediaType.UnderKey key inner)
    (edit : Edit inner old new) (values : inner.Alike old new) :
    mediaFields.ReadsAlike (fun _ => SchemaAlike) key old new := by
  cases stands with
  | mediaTypeSchema => exact readsAlike_optional edit values
  | unread notRead =>
      exact mediaFields.readsAlike_of_not_mem (by simpa [Place.isRead] using notRead)

theorem readsAlike_underContent (stands : Place.content.UnderKey key inner)
    (values : inner.Alike old new) :
    contentFields.ReadsAlike (fun _ => SchemaAlike) key old new := by
  cases stands with
  | mediaTypes => exact readsAlike_table (fun _ => SchemaAlike.refl) values fun _ _ media => media
  | unread notRead =>
      rw [Place.isRead, Bool.or_eq_false_iff] at notRead
      exact contentFields.readsAlike_of_not_mem (by simpa using notRead.2)

theorem readsAlike_underOperation (stands : Place.operation.UnderKey key inner)
    (edit : Edit inner old new) (values : inner.Alike old new) :
    operationFields.ReadsAlike FieldAlike key old new := by
  cases stands with
  | parameters =>
      exact readsAlike_list FieldAlike.refl values fun _ _ parameters => parameters
  | requestBody => exact readsAlike_optional edit values
  | responses =>
      exact readsAlike_table FieldAlike.refl values fun _ _ responses => .ok responses
  | unread notRead =>
      exact operationFields.readsAlike_of_not_mem (by simpa [Place.isRead] using notRead)

/-- The value of another key does not decide where a reference leads. -/
theorem reference?_exchange (notReference : key ≠ "$ref") (old new : Value)
    (before after : List (String × Value)) :
    reference? (.mapping (before ++ (key, old) :: after)) =
      reference? (.mapping (before ++ (key, new) :: after)) := by
  have other : ("$ref" == key) = false := beq_eq_false_iff_ne.mpr notReference.symm
  simp [reference?, Value.get?, Value.entries?, List.lookup_append, List.lookup_cons, other]

theorem keywordAlike_underSchema (stands : Place.schema.UnderKey key inner)
    (values : inner.Alike old new) : KeywordAlike key old new := by
  cases stands with
  | items =>
      exact ⟨fun no => absurd no (by decide), fun no => absurd no (by decide), fun _ => values⟩
  | properties =>
      refine ⟨fun no => absurd no (by decide), fun _ => ?_, fun no => absurd no (by decide)⟩
      rcases values with rfl | ⟨members, others, rfl, rfl, membersAlike⟩
      · rfl
      · exact congrArg some (membersOf_alike membersAlike)
  | alternatives isComposition =>
      -- of a composition nothing but its presence counts, whatever its schemas are
      have others : ∀ other ∈ compositionKeywords,
          other ∉ plainKeywords ∧ other ≠ "properties" ∧ other ≠ "items" := by decide
      obtain ⟨notPlain, notProperties, notItems⟩ := others key isComposition
      exact .of_other notPlain notProperties notItems old new
  | unread notRead =>
      have notModelled : key ∉ modelledKeywords := by simpa [Place.isRead] using notRead
      simp only [modelledKeywords, List.mem_append, not_or, List.mem_cons] at notModelled
      obtain ⟨⟨notPlain, -⟩, notProperties, notItems, -⟩ := notModelled
      exact .of_other notPlain notProperties notItems old new

theorem itemEntryAlike_underPathItem (stands : Place.pathItem.UnderKey key inner)
    (values : inner.Alike old new) : ItemEntryAlike key old new := by
  cases stands with
  | sharedParameters =>
      refine ⟨fun _ => ?_, fun no => absurd no (by decide)⟩
      rcases values with rfl | ⟨parameters, others, rfl, rfl, parametersAlike⟩
      · exact List.forall₂_same.mpr fun _ _ => PartAlike.refl _ _ _
      · exact parametersAlike
  | operations isMethod =>
      refine ⟨?_, fun _ => values⟩
      rintro rfl
      cases isMethod
  | unread notRead =>
      rw [Place.isRead, Bool.or_eq_false_iff, beq_eq_false_iff_ne] at notRead
      exact ⟨fun isShared => absurd isShared notRead.1,
        fun isMethod => absurd isMethod (Bool.eq_false_iff.mp notRead.2)⟩

theorem alike_underKey (stands : place.UnderKey key inner) (edit : Edit inner old new)
    (values : inner.Alike old new) (before after : List (String × Value)) :
    place.Alike (.mapping (before ++ (key, old) :: after))
      (.mapping (before ++ (key, new) :: after)) := by
  cases place with
  | schema =>
      have entries := EntriesAlike.exchange KeywordAlike.refl
        (keywordAlike_underSchema stands values) before after
      exact (keywordsAlike_of_entriesAlike entries).schemaAlike
  | parameter =>
      refine ⟨reference?_exchange ?_ old new before after, ?_⟩
      · cases stands with
        | parameterSchema => decide
        | unread notRead => exact fun same => absurd notRead (same ▸ by decide)
      · exact Shape.ofValue_mapping_alike (fun _ => SchemaAlike.refl)
          (readsAlike_underParameter stands edit values) _ before after
  | mediaType =>
      exact Shape.ofValue_mapping_alike (fun _ => SchemaAlike.refl)
        (readsAlike_underMediaType stands edit values) _ before after
  | unread => trivial
  | content =>
      refine fun title => ⟨reference?_exchange ?_ old new before after, ?_⟩
      · cases stands with
        | mediaTypes => decide
        | unread notRead => exact fun same => absurd notRead (same ▸ by decide)
      · exact Shape.ofValue_mapping_alike (fun _ => SchemaAlike.refl)
          (readsAlike_underContent stands values) _ before after
  | operation =>
      exact Shape.ofValue_mapping_alike FieldAlike.refl
        (readsAlike_underOperation stands edit values) _ before after
  | pathItem =>
      have entries := EntriesAlike.exchange ItemEntryAlike.refl
        (itemEntryAlike_underPathItem stands values) before after
      exact .some entries
  | list item =>
      cases stands with
      | unread notRead => exact Bool.noConfusion notRead
  | table item =>
      cases stands with
      | entries =>
          have entries : EntriesAlike (fun _ => inner.Alike) (before ++ (key, old) :: after)
              (before ++ (key, new) :: after) :=
            .exchange (fun _ => inner.alike_refl) values before after
          exact Or.inr ⟨_, _, rfl, rfl, entries⟩
      | unread notRead => exact Bool.noConfusion notRead

theorem alike_atIndex {before : List Value} (stands : place.AtIndex before.length inner)
    (edit : Edit inner old new) (values : inner.Alike old new) (after : List Value) :
    place.Alike (.sequence (before ++ old :: after)) (.sequence (before ++ new :: after)) := by
  -- the cases of what stands at an index need it as a variable
  generalize position : before.length = index at stands
  cases place with
  | schema => rfl
  | parameter =>
      refine ⟨rfl, Shape.ofValue_sequence_alike (fun _ => SchemaAlike.refl) before after ?_ _⟩
      rw [position]
      cases stands with
      | parameterSchema => exact readsAlike_underParameter .parameterSchema edit values
  | mediaType =>
      refine Shape.ofValue_sequence_alike (fun _ => SchemaAlike.refl) before after ?_ _
      rw [position]
      cases stands with
      | mediaTypeSchema => exact readsAlike_underMediaType .mediaTypeSchema edit values
  | content =>
      refine fun title => ⟨rfl,
        Shape.ofValue_sequence_alike (fun _ => SchemaAlike.refl) before after ?_ _⟩
      rw [position]
      cases stands with
      | mediaTypes => exact readsAlike_underContent .mediaTypes values
  | operation =>
      refine Shape.ofValue_sequence_alike FieldAlike.refl before after ?_ _
      rw [position]
      cases stands with
      | parameters => exact readsAlike_underOperation .parameters edit values
      | requestBody => exact readsAlike_underOperation .requestBody edit values
      | responses => exact readsAlike_underOperation .responses edit values
  | unread => trivial
  | pathItem | table => cases stands
  | list item =>
      cases stands
      exact Or.inr ⟨_, _, rfl, rfl, forall₂_exchange (Place.alike_refl _) values before after⟩

end Readings

/-- What an edit makes of a value is alike to it. -/
theorem Edit.alike {place : Place} {old new : Value} (edit : Edit place old new) :
    place.Alike old new := by
  induction edit with
  | keywords same =>
      refine (keywordsAlike_of_lookup_eq fun keyword modelled => ?_).schemaAlike
      rw [← lookup_filter_isModelled modelled, same, lookup_filter_isModelled modelled]
  | order distinct reordered =>
      exact (keywordsAlike_of_lookup_eq fun _ _ => lookup_eq_of_perm distinct reordered).schemaAlike
  | underKey stands edit before after values => exact alike_underKey stands edit values before after
  | atIndex stands edit after values => exact alike_atIndex stands edit values after

end TypedClient.Document
