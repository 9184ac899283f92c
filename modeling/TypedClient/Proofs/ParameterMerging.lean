import TypedClient.Proofs.LoweringIssues

/-!
# Merging parameters

The parameters that a path item shares and those of an operation are merged by name and
place. An entry that gives no parameter changes nothing. Of those that give one, the last of
a name and place decides, so that the entries of an operation outweigh the shared ones, and
it stands where the first one was.
-/

namespace TypedClient

namespace Keyed

variable {α κ : Type} [DecidableEq κ] {key : α → κ}

theorem map_key_put (item : α) (list : List α) :
    (put key item list).map key =
      if key item ∈ list.map key then list.map key else list.map key ++ [key item] := by
  induction list with
  | nil => rfl
  | cons old rest ih =>
      unfold put
      by_cases same : key old = key item
      · simp [same]
      · have different : key item ≠ key old := Ne.symm same
        by_cases later : key item ∈ rest.map key
        · rw [if_pos later] at ih
          simp [same, ih, later]
        · rw [if_neg later] at ih
          simp [same, different, ih, later]

/-- Putting items appends the keys that are new, in order of first appearance. -/
theorem map_key_putAll (items into : List α) :
    (putAll key items into).map key =
      into.map key ++ firstsFrom id (into.map key) (items.map key) := by
  induction items generalizing into with
  | nil => exact (List.append_nil _).symm
  | cons item rest ih =>
      have step : putAll key (item :: rest) into = putAll key rest (put key item into) := rfl
      rw [step, ih, map_key_put, List.map_cons, firstsFrom_cons]
      by_cases known : key item ∈ into.map key
      · have sameKeys : ∀ name, name ∈ into.map key ↔ name ∈ key item :: into.map key :=
          fun name => ⟨List.mem_cons_of_mem _, fun member =>
            (List.mem_cons.mp member).elim (fun same => same ▸ known) id⟩
        rw [if_pos known, id, if_pos known, firstsFrom_congr sameKeys]
      · have sameKeys : ∀ name, name ∈ into.map key ++ [key item] ↔
            name ∈ key item :: into.map key :=
          fun name => by simp [or_comm]
        rw [if_neg known, id, if_neg known, firstsFrom_congr sameKeys, List.append_assoc]
        rfl

theorem find?_putAll (items : List α) (name : κ) (into : List α) :
    (putAll key items into).find? (fun item => key item = name) =
      (items.filter fun item => key item = name).getLast?.or
        (into.find? fun item => key item = name) := by
  induction items generalizing into with
  | nil => rfl
  | cons item rest ih =>
      have step : putAll key (item :: rest) into = putAll key rest (put key item into) := rfl
      rw [step, ih, find?_put]
      by_cases same : key item = name
      · rw [if_pos same, List.filter_cons_of_pos (by simpa using same), List.getLast?_cons]
        cases (rest.filter fun item => key item = name).getLast? <;> rfl
      · rw [if_neg same, List.filter_cons_of_neg (by simpa using same)]

theorem find?_key_eq_some_iff {list : List α} (distinct : (list.map key).Nodup) {item : α} :
    list.find? (fun other => key other = key item) = some item ↔ item ∈ list := by
  refine ⟨List.mem_of_find?_eq_some, fun member => ?_⟩
  cases found : list.find? fun other => key other = key item with
  | none => simpa using List.find?_eq_none.mp found item member
  | some other =>
      have sameKey : key other = key item := by simpa using List.find?_some found
      rw [List.inj_on_of_nodup_map distinct (List.mem_of_find?_eq_some found) member sameKey]

end Keyed

namespace Document

open Json

/-- An entry gives a parameter if its references lead to an entry that can be read and that is
for the path or the query. A parameter of the path is required whatever its entry says. -/
inductive GivesParameter (components : ComponentsEntry) (value : Value) : Parameter → Prop where
  | ofPath {target : Value} {entry : ParameterEntry}
      (finds : OperationPart.parameter.Finds components value target)
      (reads : ParameterEntry.ofValue target = .ok entry) (isPath : entry.location = "path") :
      GivesParameter components value
        ⟨entry.name, .path, true, entry.schema.map SchemaNode.ofValue⟩
  | ofQuery {target : Value} {entry : ParameterEntry}
      (finds : OperationPart.parameter.Finds components value target)
      (reads : ParameterEntry.ofValue target = .ok entry) (isQuery : entry.location = "query") :
      GivesParameter components value
        ⟨entry.name, .query, entry.required, entry.schema.map SchemaNode.ofValue⟩

/-- The parameter that an entry is lowered to, if it can be used. -/
def lowered? (components : ComponentsEntry) (value : Value) : Option Parameter :=
  usable? (lowerParameter components value)

/-- Of the entries that give a parameter of some name and place, the last one gives this
parameter. -/
def IsLastGiven (components : ComponentsEntry) (values : List Value) (parameter : Parameter) :
    Prop :=
  ∃ before value after, values = before ++ value :: after ∧
    GivesParameter components value parameter ∧
    ∀ later ∈ after, ∀ other, GivesParameter components later other →
      Parameter.identity other ≠ Parameter.identity parameter

/-- Some entry gives a parameter of a name and place. -/
def IsGiven (components : ComponentsEntry) (values : List Value)
    (identity : String × ParameterLocation) : Prop :=
  ∃ value ∈ values, ∃ parameter, GivesParameter components value parameter ∧
    Parameter.identity parameter = identity

/-- What is known of the parameters that shared entries and those of an operation come to. -/
structure MergesParameters (components : ComponentsEntry) (shared own : List Value)
    (parameters : List Parameter) : Prop where
  distinct : (parameters.map Parameter.identity).Nodup
  pathRequired : ∀ parameter ∈ parameters, parameter.location = .path → parameter.required = true
  isLast : ∀ parameter, parameter ∈ parameters ↔
    IsLastGiven components (shared ++ own) parameter
  ownFirst : ∀ parameter, parameter ∈ parameters ↔
    IsLastGiven components own parameter ∨
      IsLastGiven components shared parameter ∧
        ¬ IsGiven components own (Parameter.identity parameter)
  order : parameters.map Parameter.identity =
    firsts id (((shared ++ own).filterMap (lowered? components)).map Parameter.identity)

section Entries

variable {components : ComponentsEntry} {value : Value} {values : List Value}
  {parameter : Parameter}

theorem locationOf?_eq_some_iff {text : String} {location : ParameterLocation} :
    locationOf? text = some location ↔
      text = "path" ∧ location = .path ∨ text = "query" ∧ location = .query := by
  by_cases isPath : text = "path"
  · subst isPath
    have found : locationOf? "path" = some .path := rfl
    have notQuery : "path" ≠ "query" := by decide
    simp [found, notQuery, eq_comm]
  · by_cases isQuery : text = "query"
    · subst isQuery
      have found : locationOf? "query" = some .query := rfl
      simp [found, isPath, eq_comm]
    · have nowhere : locationOf? text = none := by
        unfold locationOf?
        split
        · contradiction
        · contradiction
        · rfl
      simp [nowhere, isPath, isQuery]

theorem givesParameter_iff :
    GivesParameter components value parameter ↔
      ∃ target entry location, OperationPart.parameter.Finds components value target ∧
        ParameterEntry.ofValue target = .ok entry ∧ locationOf? entry.location = some location ∧
        ⟨entry.name, location, entry.required || location = .path,
          entry.schema.map SchemaNode.ofValue⟩ = parameter := by
  constructor
  · rintro (⟨finds, reads, isPath⟩ | ⟨finds, reads, isQuery⟩)
    · exact ⟨_, _, .path, finds, reads, locationOf?_eq_some_iff.mpr (Or.inl ⟨isPath, rfl⟩), by simp⟩
    · exact ⟨_, _, .query, finds, reads, locationOf?_eq_some_iff.mpr (Or.inr ⟨isQuery, rfl⟩),
        by simp⟩
  · rintro ⟨target, entry, location, finds, reads, located, rfl⟩
    rcases locationOf?_eq_some_iff.mp located with ⟨isPath, rfl⟩ | ⟨isQuery, rfl⟩
    · simpa using GivesParameter.ofPath finds reads isPath
    · simpa using GivesParameter.ofQuery finds reads isQuery

theorem lowered?_eq_some_iff :
    lowered? components value = some parameter ↔ GivesParameter components value parameter := by
  rw [givesParameter_iff]
  unfold lowered? lowerParameter
  cases followed : follow .parameters components.parameters value with
  | error issue =>
      refine iff_of_false (by simp [usable?, bind, Except.bind]) ?_
      rintro ⟨target, entry, location, finds, -⟩
      exact OperationPart.not_breaksOff finds (follow_eq_error_iff.mp followed)
  | ok target =>
      have finds : OperationPart.parameter.Finds components value target :=
        OperationPart.finds_iff.mpr followed
      have unique : ∀ other, OperationPart.parameter.Finds components value other ↔
          other = target :=
        fun other => ⟨fun also => also.unique finds, fun same => same ▸ finds⟩
      simp only [unique, exists_and_left, exists_eq_left]
      cases read : ParameterEntry.ofValue target with
      | error fault => simp [usable?, bind, Except.bind, read]
      | ok entry =>
          cases located : locationOf? entry.location <;>
            simp [usable?, bind, Except.bind, pure, Except.pure, read, located]

theorem GivesParameter.unique {other : Parameter}
    (gives : GivesParameter components value parameter)
    (alsoGives : GivesParameter components value other) : parameter = other :=
  Option.some.inj ((lowered?_eq_some_iff.mpr gives).symm.trans (lowered?_eq_some_iff.mpr alsoGives))

theorem isLastGiven_singleton :
    IsLastGiven components [value] parameter ↔ GivesParameter components value parameter := by
  constructor
  · rintro ⟨before, last, after, split, gives, -⟩
    obtain rfl : value = last := by
      cases before with
      | nil => exact (List.cons.inj split).1
      | cons first before => simp at split
    exact gives
  · exact fun gives => ⟨[], value, [], rfl, gives, by simp⟩

/-- The entries that come later outweigh those before them. -/
theorem isLastGiven_append {first second : List Value} :
    IsLastGiven components (first ++ second) parameter ↔
      IsLastGiven components second parameter ∨
        IsLastGiven components first parameter ∧
          ¬ IsGiven components second (Parameter.identity parameter) := by
  constructor
  · rintro ⟨before, value, after, split, gives, noLater⟩
    rcases List.append_eq_append_iff.mp split with ⟨between, rfl, rfl⟩ | ⟨between, rfl, tail⟩
    · exact Or.inl ⟨between, value, after, rfl, gives, noLater⟩
    · cases between with
      | nil => exact Or.inl ⟨[], value, after, tail.symm, gives, noLater⟩
      | cons next between =>
          obtain ⟨rfl, rfl⟩ := List.cons.inj tail
          refine Or.inr ⟨⟨before, value, between, rfl, gives, fun later member =>
            noLater later (List.mem_append_left _ member)⟩, ?_⟩
          rintro ⟨later, member, other, alsoGives, same⟩
          exact noLater later (List.mem_append_right _ member) other alsoGives same
  · rintro (⟨before, value, after, rfl, gives, noLater⟩ |
      ⟨⟨before, value, after, rfl, gives, noLater⟩, notGiven⟩)
    · exact ⟨first ++ before, value, after, (List.append_assoc _ _ _).symm, gives, noLater⟩
    · refine ⟨before, value, after ++ second, by simp, gives, ?_⟩
      intro later member other also same
      rcases List.mem_append.mp member with early | late
      · exact noLater later early other also same
      · exact notGiven ⟨later, late, other, also, same⟩

/-- The last parameter of a name and place that is lowered is the one that is given last. -/
theorem getLast?_filter_eq_some_iff :
    ((values.filterMap (lowered? components)).filter fun other =>
        Parameter.identity other = Parameter.identity parameter).getLast? = some parameter ↔
      IsLastGiven components values parameter := by
  induction values using List.reverseRecOn with
  | nil => simp [IsLastGiven]
  | append_singleton earlier value ih =>
      rw [isLastGiven_append, isLastGiven_singleton, ← ih, List.filterMap_append,
        List.filter_append, List.getLast?_append]
      have isGiven : IsGiven components [value] (Parameter.identity parameter) ↔
          ∃ other, GivesParameter components value other ∧
            Parameter.identity other = Parameter.identity parameter := by
        simp [IsGiven]
      rw [isGiven]
      -- the last entry decides if it gives a parameter of this name and place
      cases lowered : lowered? components value with
      | none =>
          have nothing : ∀ other, ¬ GivesParameter components value other := fun other gives => by
            cases lowered.symm.trans (lowered?_eq_some_iff.mpr gives)
          simp [lowered, nothing]
      | some other =>
          have gives := lowered?_eq_some_iff.mp lowered
          have given : ∀ another, GivesParameter components value another ↔ another = other :=
            fun another => ⟨fun also => also.unique gives, fun same => same ▸ gives⟩
          by_cases same : Parameter.identity other = Parameter.identity parameter
          · simp [lowered, given, same, eq_comm]
          · have different : parameter ≠ other := fun equal => same (equal ▸ rfl)
            simp [lowered, given, same, different]

theorem mergeParameters_eq (components : ComponentsEntry) (values : List Value) :
    mergeParameters (values.map (lowerParameter components)) =
      Keyed.putAll Parameter.identity (values.filterMap (lowered? components)) [] := by
  rw [mergeParameters, List.filterMap_map]
  rfl

/-- Names and places come in the order of the first entries that can be used. -/
theorem map_identity_mergeParameters (components : ComponentsEntry) (values : List Value) :
    (mergeParameters (values.map (lowerParameter components))).map Parameter.identity =
      firsts id ((values.filterMap (lowered? components)).map Parameter.identity) := by
  rw [mergeParameters_eq, Keyed.map_key_putAll]
  rfl

theorem nodup_map_identity_mergeParameters (components : ComponentsEntry) (values : List Value) :
    ((mergeParameters (values.map (lowerParameter components))).map Parameter.identity).Nodup := by
  rw [map_identity_mergeParameters, ← List.map_id (firsts id _)]
  exact nodup_map_firsts

theorem mem_mergeParameters_iff :
    parameter ∈ mergeParameters (values.map (lowerParameter components)) ↔
      IsLastGiven components values parameter := by
  rw [← Keyed.find?_key_eq_some_iff (nodup_map_identity_mergeParameters components values),
    mergeParameters_eq, Keyed.find?_putAll, List.find?_nil, Option.or_none,
    getLast?_filter_eq_some_iff]

end Entries

/-- The parameters of an operation have names and places of their own, and those of the path
are required. Each is what the last usable entry of its name and place gives, with the entries
of the operation after the shared ones, and it stands where the first usable entry was. -/
theorem lowerOperation_mergesParameters [MediaTypeParser] (components : ComponentsEntry)
    (shared : List Value) (path : String) (method : HttpMethod) (entry : OperationEntry) :
    ∃ operation issues,
      lowerOperation components shared path method entry = .lowered operation issues ∧
      MergesParameters components shared entry.parameters operation.parameters ∧
      ∀ value parameter, lowered? components value = some parameter ↔
        GivesParameter components value parameter := by
  refine ⟨_, _, rfl, ⟨nodup_map_identity_mergeParameters _ _, ?pathRequired,
    fun _ => mem_mergeParameters_iff, fun _ => mem_mergeParameters_iff.trans isLastGiven_append,
    map_identity_mergeParameters _ _⟩, fun _ _ => lowered?_eq_some_iff⟩
  case pathRequired =>
    intro parameter member isPath
    obtain ⟨_, _, _, -, gives, -⟩ := mem_mergeParameters_iff.mp member
    cases gives with
    | ofPath => rfl
    | ofQuery => cases isPath

end Document

end TypedClient
