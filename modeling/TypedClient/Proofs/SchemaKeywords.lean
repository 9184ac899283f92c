import TypedClient.Proofs.AlikeLowering

/-!
# The keywords of a schema

What a schema object is lowered to depends on eight keywords: on some by their value, on
compositions by being there, on `items` by the node of its schema and on `properties` by the
nodes of its members. Objects that agree in these are alike, whatever else they hold.
-/

namespace TypedClient.SchemaNode

open Json Document

/-- The modelled keywords without schemas below them. -/
def plainKeywords : List String :=
  ["$ref", "type", "required"]

/-- The keywords that decide what a schema object is lowered to. -/
def modelledKeywords : List String :=
  plainKeywords ++ compositionKeywords ++ ["properties", "items"]

def isModelled (entry : String × Value) : Bool :=
  modelledKeywords.contains entry.1

/-- The nodes of the members, if a value is a mapping of schemas. -/
def memberNodes? (value : Value) : Option (List (String × SchemaNode)) :=
  value.entries?.map membersOf

/-- Two values of a modelled keyword make no difference. -/
structure KeywordAlike (keyword : String) (old new : Value) : Prop where
  value : keyword ∈ plainKeywords → old = new
  properties : keyword = "properties" → memberNodes? old = memberNodes? new
  items : keyword = "items" → SchemaAlike old new

/-- Two schema objects agree in the modelled keywords. -/
def KeywordsAlike (old new : List (String × Value)) : Prop :=
  ∀ keyword ∈ modelledKeywords,
    Option.Rel (KeywordAlike keyword) (old.lookup keyword) (new.lookup keyword)

theorem KeywordAlike.refl (keyword : String) (value : Value) : KeywordAlike keyword value value :=
  ⟨fun _ => rfl, fun _ => rfl, fun _ => rfl⟩

/-- Of other keywords nothing but their presence counts, if anything. -/
theorem KeywordAlike.of_other {keyword : String} (notPlain : keyword ∉ plainKeywords)
    (notProperties : keyword ≠ "properties") (notItems : keyword ≠ "items") (old new : Value) :
    KeywordAlike keyword old new :=
  ⟨fun isPlain => absurd isPlain notPlain, fun isProperties => absurd isProperties notProperties,
    fun isItems => absurd isItems notItems⟩

theorem keywordsAlike_of_lookup_eq {old new : List (String × Value)}
    (same : ∀ keyword ∈ modelledKeywords, old.lookup keyword = new.lookup keyword) :
    KeywordsAlike old new := by
  intro keyword modelled
  rw [same keyword modelled]
  cases new.lookup keyword with
  | none => exact .none
  | some value => exact .some (.refl keyword value)

theorem keywordsAlike_of_entriesAlike {old new : List (String × Value)}
    (entries : EntriesAlike KeywordAlike old new) : KeywordsAlike old new :=
  fun keyword _ => entries.lookup keyword

theorem itemOf_eq (entries : List (String × Value)) :
    itemOf entries = ((entries.lookup "items").map ofValue).getD .any := by
  induction entries with
  | nil => rfl
  | cons entry rest ih =>
      obtain ⟨key, value⟩ := entry
      by_cases isItems : key = "items"
      · simp [itemOf, isItems]
      · have other : ("items" == key) = false := beq_eq_false_iff_ne.mpr (Ne.symm isItems)
        simp [itemOf, isItems, List.lookup_cons, other, ih]

theorem propertiesOf_eq (entries : List (String × Value)) :
    propertiesOf entries = (entries.lookup "properties").bind memberNodes? := by
  induction entries with
  | nil => rfl
  | cons entry rest ih =>
      obtain ⟨key, value⟩ := entry
      by_cases isProperties : key = "properties"
      · cases value <;> simp [propertiesOf, isProperties, memberNodes?, Value.entries?]
      · have other : ("properties" == key) = false :=
          beq_eq_false_iff_ne.mpr (Ne.symm isProperties)
        have skipped : propertiesOf ((key, value) :: rest) = propertiesOf rest := by
          cases value <;> simp [propertiesOf, isProperties]
        rw [skipped, ih, List.lookup_cons, other]

theorem membersOf_eq_map (members : List (String × Value)) :
    membersOf members = members.map fun (name, value) => (name, ofValue value) := by
  induction members with
  | nil => rfl
  | cons member rest ih => rw [membersOf, ih, List.map_cons]

theorem membersOf_alike {members others : List (String × Value)}
    (alike : EntriesAlike (fun _ => SchemaAlike) members others) :
    membersOf members = membersOf others := by
  rw [membersOf_eq_map, membersOf_eq_map, ← List.forall₂_eq_eq_eq]
  exact List.rel_map (fun _ _ pair => Prod.ext pair.1 pair.2) alike

section Objects

variable {old new : List (String × Value)} {keyword : String}

theorem KeywordsAlike.hasKey_eq (keywords : KeywordsAlike old new)
    (modelled : keyword ∈ modelledKeywords) : hasKey old keyword = hasKey new keyword := by
  have found := keywords keyword modelled
  unfold hasKey
  generalize old.lookup keyword = value, new.lookup keyword = other at found
  cases found <;> rfl

theorem KeywordsAlike.lookup_eq (keywords : KeywordsAlike old new)
    (plain : keyword ∈ plainKeywords) : old.lookup keyword = new.lookup keyword := by
  have found := keywords keyword (List.mem_append_left _ (List.mem_append_left _ plain))
  generalize old.lookup keyword = value, new.lookup keyword = other at found
  cases found with
  | none => rfl
  | some values => exact congrArg some (values.value plain)

theorem KeywordsAlike.formOf_eq (keywords : KeywordsAlike old new) : formOf old = formOf new := by
  have pointer : old.lookup "$ref" = new.lookup "$ref" :=
    keywords.lookup_eq (by decide)
  have declared : declaredType? old = declaredType? new := by
    rw [declaredType?, declaredType?, keywords.lookup_eq (by decide)]
  have composed : compositionKeywords.any (hasKey old) = compositionKeywords.any (hasKey new) := by
    rw [Bool.eq_iff_iff, List.any_eq_true, List.any_eq_true]
    refine exists_congr fun keyword => and_congr_right fun isComposition => ?_
    rw [keywords.hasKey_eq (List.mem_append_left _ (List.mem_append_right _ isComposition))]
  have hasProperties : hasKey old "properties" = hasKey new "properties" :=
    keywords.hasKey_eq (by decide)
  have hasItems : hasKey old "items" = hasKey new "items" := keywords.hasKey_eq (by decide)
  unfold formOf
  rw [pointer, composed, declared, hasProperties, hasItems]

theorem KeywordsAlike.itemOf_eq (keywords : KeywordsAlike old new) : itemOf old = itemOf new := by
  have found := keywords "items" (by decide)
  rw [SchemaNode.itemOf_eq, SchemaNode.itemOf_eq]
  generalize old.lookup "items" = value, new.lookup "items" = other at found
  cases found with
  | none => rfl
  | some values => exact values.items rfl

theorem KeywordsAlike.propertiesOf_eq (keywords : KeywordsAlike old new) :
    propertiesOf old = propertiesOf new := by
  have found := keywords "properties" (by decide)
  rw [SchemaNode.propertiesOf_eq, SchemaNode.propertiesOf_eq]
  generalize old.lookup "properties" = value, new.lookup "properties" = other at found
  cases found with
  | none => rfl
  | some values => exact values.properties rfl

theorem KeywordsAlike.schemaAlike (keywords : KeywordsAlike old new) :
    SchemaAlike (.mapping old) (.mapping new) := by
  have required : requiredNames old = requiredNames new := by
    rw [requiredNames, requiredNames, keywords.lookup_eq (by decide)]
  unfold SchemaAlike
  simp only [ofValue, keywords.formOf_eq, keywords.itemOf_eq, keywords.propertiesOf_eq, required]

theorem lookup_filter_isModelled (modelled : keyword ∈ modelledKeywords)
    (entries : List (String × Value)) :
    (entries.filter isModelled).lookup keyword = entries.lookup keyword := by
  induction entries with
  | nil => rfl
  | cons entry rest ih =>
      obtain ⟨key, value⟩ := entry
      by_cases found : keyword = key
      · subst found
        simp [isModelled, modelled]
      · have other : (keyword == key) = false := beq_eq_false_iff_ne.mpr found
        cases kept : isModelled (key, value) <;> simp [kept, List.lookup_cons, other, ih]

/-- Where keys are distinct, their order does not matter. -/
theorem lookup_eq_of_perm (distinct : (old.map Prod.fst).Nodup) (reordered : old.Perm new) :
    old.lookup keyword = new.lookup keyword := by
  induction reordered with
  | nil => rfl
  | cons entry _ ih =>
      rw [List.lookup_cons, List.lookup_cons, ih distinct.tail]
  | swap first second rest =>
      obtain ⟨firstKey, firstValue⟩ := first
      obtain ⟨secondKey, secondValue⟩ := second
      have apart : firstKey ≠ secondKey := by
        rintro rfl
        simp at distinct
      by_cases isFirst : keyword = firstKey
      · simp [List.lookup_cons, isFirst, beq_eq_false_iff_ne.mpr apart]
      · simp [List.lookup_cons, beq_eq_false_iff_ne.mpr isFirst]
  | trans first _ ih otherIH =>
      exact (ih distinct).trans (otherIH ((first.map Prod.fst).nodup_iff.mp distinct))

end Objects

end TypedClient.SchemaNode
