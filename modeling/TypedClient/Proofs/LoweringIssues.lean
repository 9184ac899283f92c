import TypedClient.Proofs.LoweredOperations
import TypedClient.Proofs.ReferenceChains

/-!
# What lowering reports

A parameter entry, a body or a response is lost if its references break off or if the entry
they lead to cannot be read. Every lost part of an operation leaves a warning with the label
of the operation, with one exception: a response that cannot be read is passed over in
silence. There are no other warnings about parts of operations, but for bodies without a
JSON media type.
-/

namespace TypedClient.Document

open Json

section References

variable {area : ComponentSection} {pool : List (String × Value)} {value target : Value}
  {issue : OperationIssue}

/-- The references of a value lead to an entry that is none, within the limit. -/
def Resolves (area : ComponentSection) (pool : List (String × Value)) (value target : Value) :
    Prop :=
  ∃ count < maxReferenceHops, Hops area pool count value target ∧ reference? target = none

/-- The references of a value lead nowhere, or further than the limit. -/
inductive BreaksOff (area : ComponentSection) (pool : List (String × Value)) (value : Value) :
    OperationIssue → Prop where
  | atPointer {issue : OperationIssue} {count : Nat} {last : Value}
      (within : count < maxReferenceHops) (hops : Hops area pool count value last)
      (ends : EndsWith area pool last (.error issue)) : BreaksOff area pool value issue
  | tooLong {last : Value} (hops : Hops area pool maxReferenceHops value last) :
      BreaksOff area pool value .chainTooLong

theorem follow_eq_ok_iff :
    follow area pool value = .ok target ↔ Resolves area pool value target := by
  rw [follow, followFrom_eq_iff]
  constructor
  · rintro (⟨count, within, last, hops, ends⟩ | ⟨no, -⟩)
    · cases ends with
      | entry noReference => exact ⟨count, within, hops, noReference⟩
    · cases no
  · rintro ⟨count, within, hops, noReference⟩
    exact Or.inl ⟨count, within, target, hops, .entry noReference⟩

theorem follow_eq_error_iff :
    follow area pool value = .error issue ↔ BreaksOff area pool value issue := by
  rw [follow, followFrom_eq_iff]
  constructor
  · rintro (⟨count, within, last, hops, ends⟩ | ⟨isTooLong, last, hops⟩)
    · exact .atPointer within hops ends
    · cases isTooLong
      exact .tooLong hops
  · rintro (⟨within, hops, ends⟩ | hops)
    · exact Or.inl ⟨_, within, _, hops, ends⟩
    · exact Or.inr ⟨rfl, _, hops⟩

theorem exists_breaksOff_iff :
    (∃ issue, BreaksOff area pool value issue) ↔ ∀ target, ¬ Resolves area pool value target := by
  simp only [← follow_eq_error_iff, ← follow_eq_ok_iff]
  cases follow area pool value <;> simp

end References

theorem firstJson?_eq_none_iff [MediaTypeParser] {entry : ContentEntry} :
    entry.firstJson? = none ↔ ∀ media ∈ entry.content, isJsonMediaType media.1 = false := by
  simp [ContentEntry.firstJson?]

/-- A part of an operation whose entry can be a reference to a component. -/
inductive OperationPart where
  | parameter
  | body
  | response
  deriving DecidableEq, Repr

namespace OperationPart

def area : OperationPart → ComponentSection
  | parameter => .parameters
  | body => .requestBodies
  | response => .responses

/-- The references of the entry of a part lead to a value. -/
def Finds (components : ComponentsEntry) (part : OperationPart) (value target : Value) : Prop :=
  Resolves part.area (components.pool part.area) value target

/-- A value cannot be read as a part. -/
def Faults : OperationPart → Value → Fault → Prop
  | parameter, value, fault => ParameterEntry.ofValue value = .error fault
  | body, value, fault => ContentEntry.ofRequestBody value = .error fault
  | response, value, fault => ContentEntry.ofResponse value = .error fault

/-- The entry of a part is lost: it cannot be found or it cannot be read. -/
inductive IsLost (components : ComponentsEntry) (part : OperationPart) (value : Value) : Prop where
  | unresolved (noTarget : ∀ target, ¬ part.Finds components value target)
  | unreadable {target : Value} {fault : Fault} (finds : part.Finds components value target)
      (faults : part.Faults target fault)

variable {components : ComponentsEntry} {part : OperationPart} {value target other : Value}
  {issue found : OperationIssue}

theorem finds_iff :
    part.Finds components value target ↔
      follow part.area (components.pool part.area) value = .ok target :=
  follow_eq_ok_iff.symm

theorem Finds.unique (finds : part.Finds components value target)
    (alsoFinds : part.Finds components value other) : target = other :=
  Except.ok.inj ((finds_iff.mp finds).symm.trans (finds_iff.mp alsoFinds))

theorem not_breaksOff (finds : part.Finds components value target) :
    ¬ BreaksOff part.area (components.pool part.area) value issue :=
  fun breaksOff => exists_breaksOff_iff.mp ⟨issue, breaksOff⟩ target finds

variable [MediaTypeParser]

/-- What is wrong with the entry of a part. -/
inductive Reports (components : ComponentsEntry) :
    OperationPart → Value → OperationIssue → Prop where
  | unresolved {part : OperationPart} {value : Value} {issue : OperationIssue}
      (breaksOff : BreaksOff part.area (components.pool part.area) value issue) :
      Reports components part value issue
  | malformedParameter {value target : Value} {fault : Fault}
      (finds : parameter.Finds components value target)
      (faults : parameter.Faults target fault) :
      Reports components .parameter value (.malformedParameter fault)
  | malformedBody {value target : Value} {fault : Fault}
      (finds : body.Finds components value target) (faults : body.Faults target fault) :
      Reports components .body value (.malformedBody fault)
  | noJsonBody {value target : Value} {entry : ContentEntry}
      (finds : body.Finds components value target)
      (reads : ContentEntry.ofRequestBody target = .ok entry) (notEmpty : entry.content ≠ [])
      (noJson : ∀ media ∈ entry.content, isJsonMediaType media.1 = false) :
      Reports components .body value (.noJsonBody (entry.content.map Prod.fst))

theorem reports_iff_of_breaksOff
    (breaksOff : BreaksOff part.area (components.pool part.area) value found) :
    Reports components part value issue ↔ found = issue := by
  have nothing : ∀ target, ¬ part.Finds components value target :=
    exists_breaksOff_iff.mp ⟨found, breaksOff⟩
  constructor
  · intro reports
    cases reports with
    | unresolved also =>
        -- both ends are what following the references gives
        have refused := follow_eq_error_iff.mpr breaksOff
        exact Except.error.inj (refused.symm.trans (follow_eq_error_iff.mpr also))
    | malformedParameter finds | malformedBody finds | noJsonBody finds =>
        exact absurd finds (nothing _)
  · rintro rfl
    exact .unresolved breaksOff

theorem reports_parameter_iff (finds : parameter.Finds components value target) :
    Reports components .parameter value issue ↔
      ∃ fault, ParameterEntry.ofValue target = .error fault ∧
        issue = .malformedParameter fault := by
  constructor
  · intro reports
    cases reports with
    | unresolved breaksOff => exact absurd breaksOff (not_breaksOff finds)
    | malformedParameter also faults =>
        cases finds.unique also
        exact ⟨_, faults, rfl⟩
  · rintro ⟨fault, faults, rfl⟩
    exact .malformedParameter finds faults

theorem reports_body_iff (finds : body.Finds components value target) :
    Reports components .body value issue ↔
      (∃ fault, ContentEntry.ofRequestBody target = .error fault ∧
        issue = .malformedBody fault) ∨
      ∃ entry, ContentEntry.ofRequestBody target = .ok entry ∧ entry.content ≠ [] ∧
        entry.firstJson? = none ∧ issue = .noJsonBody (entry.content.map Prod.fst) := by
  constructor
  · intro reports
    cases reports with
    | unresolved breaksOff => exact absurd breaksOff (not_breaksOff finds)
    | malformedBody also faults =>
        cases finds.unique also
        exact Or.inl ⟨_, faults, rfl⟩
    | noJsonBody also reads notEmpty noJson =>
        cases finds.unique also
        exact Or.inr ⟨_, reads, notEmpty, firstJson?_eq_none_iff.mpr noJson, rfl⟩
  · rintro (⟨fault, faults, rfl⟩ | ⟨entry, reads, notEmpty, noJson, rfl⟩)
    · exact .malformedBody finds faults
    · exact .noJsonBody finds reads notEmpty (firstJson?_eq_none_iff.mp noJson)

theorem not_reports_response (finds : response.Finds components value target) :
    ¬ Reports components .response value issue := by
  intro reports
  cases reports with
  | unresolved breaksOff => exact not_breaksOff finds breaksOff

/-- A lost part is reported, unless it is a response that was found. -/
theorem exists_reports_iff_of_isLost (isLost : part.IsLost components value) :
    (∃ issue, Reports components part value issue) ↔
      ¬ (part = .response ∧ ∃ target, part.Finds components value target) := by
  cases isLost with
  | unresolved noTarget =>
      obtain ⟨issue, breaksOff⟩ := exists_breaksOff_iff.mpr noTarget
      refine iff_of_true ⟨issue, .unresolved breaksOff⟩ ?_
      rintro ⟨-, target, finds⟩
      exact noTarget target finds
  | unreadable finds faults =>
      cases part with
      | parameter => exact iff_of_true ⟨_, .malformedParameter finds faults⟩ (by simp)
      | body => exact iff_of_true ⟨_, .malformedBody finds faults⟩ (by simp)
      | response =>
          refine iff_of_false ?_ (not_not_intro ⟨rfl, _, finds⟩)
          rintro ⟨issue, reports⟩
          exact not_reports_response finds reports

theorem issueOf?_lowerParameter_eq_some_iff :
    issueOf? (lowerParameter components value) = some issue ↔
      Reports components .parameter value issue := by
  unfold lowerParameter
  cases followed : follow .parameters components.parameters value with
  | error found =>
      have breaksOff := follow_eq_error_iff.mp followed
      rw [@reports_iff_of_breaksOff components .parameter value issue found _ breaksOff]
      exact Option.some_inj
  | ok target =>
      have finds : parameter.Finds components value target := finds_iff.mpr followed
      rw [reports_parameter_iff finds]
      cases read : ParameterEntry.ofValue target with
      | error fault => simp [issueOf?, bind, Except.bind, read, eq_comm]
      | ok entry =>
          cases located : locationOf? entry.location <;>
            simp [issueOf?, bind, Except.bind, pure, Except.pure, read, located]

theorem mem_lowerRequestBody_iff :
    issue ∈ (lowerRequestBody components value).2 ↔ Reports components .body value issue := by
  unfold lowerRequestBody
  cases followed : follow .requestBodies components.requestBodies value with
  | error found =>
      have breaksOff := follow_eq_error_iff.mp followed
      rw [@reports_iff_of_breaksOff components .body value issue found _ breaksOff]
      simp [eq_comm]
  | ok target =>
      have finds : body.Finds components value target := finds_iff.mpr followed
      rw [reports_body_iff finds]
      cases read : ContentEntry.ofRequestBody target with
      | error fault => simp [read]
      | ok entry =>
          by_cases empty : entry.content = []
          · simp [read, empty]
          · cases json : entry.firstJson? with
            | none => simp [read, empty, json]
            | some schema => cases schema <;> simp [read, empty, json]

theorem mem_lowerResponse_iff :
    issue ∈ (lowerResponse components value).2 ↔ Reports components .response value issue := by
  unfold lowerResponse
  cases followed : follow .responses components.responses value with
  | error found =>
      have breaksOff := follow_eq_error_iff.mp followed
      rw [@reports_iff_of_breaksOff components .response value issue found _ breaksOff]
      simp [eq_comm]
  | ok target =>
      -- a response that cannot be read is taken for one that is missing
      have finds : response.Finds components value target := finds_iff.mpr followed
      refine iff_of_false ?_ (not_reports_response finds)
      cases read : ContentEntry.ofResponse target <;> simp [read]

end OperationPart

/-- The entry of a part of an operation; operations of one path share parameters. -/
inductive OperationEntry.HasPart (shared : List Value) (operation : OperationEntry) :
    OperationPart → Value → Prop where
  | shared {value : Value} (member : value ∈ shared) : HasPart shared operation .parameter value
  | parameter {value : Value} (member : value ∈ operation.parameters) :
      HasPart shared operation .parameter value
  | body {value : Value} (isBody : operation.requestBody = some value) :
      HasPart shared operation .body value
  | response {value : Value} (isResponse : operation.responses.lookup "200" = some value) :
      HasPart shared operation .response value

/-- The entry of a part of an operation of a document that can be read, with the label of the
operation. -/
inductive DocumentEntry.HasPart (entry : DocumentEntry) :
    String → OperationPart → Value → Prop where
  | ofOperation {path key : String} {item value partValue : Value}
      {entries : List (String × Value)} {method : HttpMethod} {operation : OperationEntry}
      {part : OperationPart} (isPath : (path, item) ∈ entry.paths)
      (isItem : item.entries? = some entries) (isEntry : (key, value) ∈ entries)
      (isMethod : HttpMethod.ofName? key = some method)
      (reads : OperationEntry.ofValue value = .ok operation)
      (hasPart : operation.HasPart (sharedParameters entries) part partValue) :
      HasPart entry (Operation.labelOf method path) part partValue

section Operations

variable {components : ComponentsEntry} {shared : List Value} {path label : String}
  {method : HttpMethod} {operation : OperationEntry} {issue : OperationIssue}

theorem exists_hasPart_iff {property : OperationPart → Value → Prop} :
    (∃ part value, operation.HasPart shared part value ∧ property part value) ↔
      (∃ value ∈ shared ++ operation.parameters, property .parameter value) ∨
      (∃ value, operation.requestBody = some value ∧ property .body value) ∨
      ∃ value, operation.responses.lookup "200" = some value ∧ property .response value := by
  constructor
  · rintro ⟨_, value, member | member | isBody | isResponse, holds⟩
    · exact Or.inl ⟨value, List.mem_append_left _ member, holds⟩
    · exact Or.inl ⟨value, List.mem_append_right _ member, holds⟩
    · exact Or.inr (Or.inl ⟨value, isBody, holds⟩)
    · exact Or.inr (Or.inr ⟨value, isResponse, holds⟩)
  · rintro (⟨value, member, holds⟩ | ⟨value, isBody, holds⟩ | ⟨value, isResponse, holds⟩)
    · rcases List.mem_append.mp member with isShared | isOwn
      · exact ⟨_, value, .shared isShared, holds⟩
      · exact ⟨_, value, .parameter isOwn, holds⟩
    · exact ⟨_, value, .body isBody, holds⟩
    · exact ⟨_, value, .response isResponse, holds⟩

variable [MediaTypeParser]

theorem mem_parameterIssues_iff {values : List Value} :
    issue ∈ (values.map (lowerParameter components)).filterMap issueOf? ↔
      ∃ value ∈ values, OperationPart.Reports components .parameter value issue := by
  simp only [List.filterMap_map, List.mem_filterMap, Function.comp_apply,
    OperationPart.issueOf?_lowerParameter_eq_some_iff]

theorem exists_lowerOperation_eq (components : ComponentsEntry) (shared : List Value)
    (path : String) (method : HttpMethod) (operation : OperationEntry) :
    ∃ lowered issues,
      lowerOperation components shared path method operation = .lowered lowered issues ∧
      lowered.label = Operation.labelOf method path ∧
      ∀ issue, issue ∈ issues ↔ ∃ part value, operation.HasPart shared part value ∧
        OperationPart.Reports components part value issue := by
  refine ⟨_, _, rfl, rfl, fun issue => ?_⟩
  rw [exists_hasPart_iff, List.mem_append, List.mem_append, mem_parameterIssues_iff, or_assoc]
  refine or_congr Iff.rfl (or_congr ?body ?response)
  case body => cases operation.requestBody <;> simp [OperationPart.mem_lowerRequestBody_iff]
  case response =>
    cases operation.responses.lookup "200" <;> simp [OperationPart.mem_lowerResponse_iff]

theorem mem_warnings_lowerItemEntry_iff {key label : String} {value : Value} :
    (∃ outcome, lowerItemEntry components shared path (key, value) = some outcome ∧
        .operationSpecific label issue ∈ outcome.warnings) ↔
      ∃ method operation, HttpMethod.ofName? key = some method ∧
        OperationEntry.ofValue value = .ok operation ∧ label = Operation.labelOf method path ∧
        ∃ part partValue, operation.HasPart shared part partValue ∧
          OperationPart.Reports components part partValue issue := by
  unfold lowerItemEntry
  cases isMethod : HttpMethod.ofName? key with
  | none => simp
  | some method =>
      cases read : OperationEntry.ofValue value with
      | error fault => simp [Outcome.warnings]
      | ok operation =>
          obtain ⟨lowered, issues, isLowered, sameLabel, reported⟩ :=
            exists_lowerOperation_eq components shared path method operation
          simp [isLowered, Outcome.warnings, sameLabel, reported, eq_comm, and_comm]

theorem mem_lowerPath_iff {item : Value} {outcome : Outcome} :
    outcome ∈ lowerPath components path item ↔
      ∃ entries, item.entries? = some entries ∧ ∃ member ∈ entries,
        lowerItemEntry components (sharedParameters entries) path member = some outcome := by
  unfold lowerPath
  cases item.entries? <;> simp

theorem mem_warnings_outcomes_iff {entry : DocumentEntry} :
    .operationSpecific label issue ∈ (outcomes entry).flatMap Outcome.warnings ↔
      ∃ part value, entry.HasPart label part value ∧
        OperationPart.Reports entry.components part value issue := by
  simp only [List.mem_flatMap, outcomes, mem_lowerPath_iff]
  constructor
  · rintro ⟨outcome, ⟨⟨path, item⟩, isPath, entries, isItem, ⟨key, value⟩, isEntry, isLowered⟩,
      isWarning⟩
    obtain ⟨method, operation, isMethod, reads, rfl, part, partValue, hasPart, reports⟩ :=
      mem_warnings_lowerItemEntry_iff.mp ⟨outcome, isLowered, isWarning⟩
    exact ⟨part, partValue, .ofOperation isPath isItem isEntry isMethod reads hasPart, reports⟩
  · rintro ⟨part, partValue, ⟨isPath, isItem, isEntry, isMethod, reads, hasPart⟩, reports⟩
    obtain ⟨outcome, isLowered, isWarning⟩ := mem_warnings_lowerItemEntry_iff.mpr
      ⟨_, _, isMethod, reads, rfl, part, partValue, hasPart, reports⟩
    exact ⟨outcome, ⟨_, isPath, _, isItem, _, isEntry, isLowered⟩, isWarning⟩

end Operations

end TypedClient.Document

namespace TypedClient

open Document Json

/-- A document warns about a part of an operation exactly if the part reports it, and of the
parts that are lost all report, but for responses that are found and cannot be read. -/
theorem ApiDocument.reportsLosses [MediaTypeParser] {entry : DocumentEntry}
    {document : ApiDocument} (accepted : ofEntry entry = .ok document) :
    (∀ label issue, .operationSpecific label issue ∈ document.warnings ↔
      ∃ part value, entry.HasPart label part value ∧
        OperationPart.Reports entry.components part value issue) ∧
    (∀ label part value, entry.HasPart label part value → part.IsLost entry.components value →
      (part = .response → ∀ target, ¬ part.Finds entry.components value target) →
      ∃ issue, .operationSpecific label issue ∈ document.warnings) ∧
    ∀ value target issue, OperationPart.response.Finds entry.components value target →
      ¬ OperationPart.Reports entry.components .response value issue := by
  have reported : ∀ label issue, .operationSpecific label issue ∈ document.warnings ↔
      ∃ part value, entry.HasPart label part value ∧
        OperationPart.Reports entry.components part value issue := by
    intro label issue
    rw [(outcomes_of_ofEntry accepted).2]
    exact mem_warnings_outcomes_iff
  refine ⟨reported, ?_, fun _ _ _ => OperationPart.not_reports_response⟩
  intro label part value hasPart isLost notFound
  obtain ⟨issue, reports⟩ := (OperationPart.exists_reports_iff_of_isLost isLost).mpr
    fun ⟨isResponse, target, finds⟩ => notFound isResponse target finds
  exact ⟨issue, (reported label issue).mpr ⟨part, value, hasPart, reports⟩⟩

section Samples

attribute [local instance] MediaTypeParser.ofGrammar

/-- A document with one path item. -/
def entryOf (path : String) (item : List (String × Value)) : DocumentEntry where
  openapi := some "3.0.0"
  swagger := none
  info := ⟨"", "", none⟩
  paths := [(path, .mapping item)]
  components := ⟨[], [], [], []⟩

/-- A mapping whose content is no table of media types. -/
def contentless : Value :=
  .mapping [("content", .number (.integer 5))]

/-- A shared parameter that is a text. -/
def lossyEntry : DocumentEntry :=
  entryOf "/pets" [("parameters", .sequence [.text "id"]), ("get", .mapping [])]

theorem ApiDocument.reportsLosses_lossy :
    ∃ document, ofEntry lossyEntry = .ok document ∧
      ∃ issue, .operationSpecific "GET /pets" issue ∈ document.warnings := by
  have hasPart : lossyEntry.HasPart "GET /pets" .parameter (.text "id") :=
    @DocumentEntry.HasPart.ofOperation lossyEntry "/pets" "get" _ _ _ _ .get _ _
      (List.mem_singleton_self _) rfl (List.mem_cons_of_mem _ (List.mem_singleton_self _)) rfl rfl
      (.shared (List.mem_singleton_self _))
  have finds : OperationPart.parameter.Finds lossyEntry.components (.text "id") (.text "id") :=
    ⟨0, by decide, .here _, rfl⟩
  have isLost : OperationPart.parameter.IsLost lossyEntry.components (.text "id") :=
    .unreadable finds rfl
  refine ⟨_, rfl, ?_⟩
  exact (@reportsLosses _ lossyEntry _ rfl).2.1 "GET /pets" .parameter (.text "id") hasPart isLost
    fun isResponse => absurd isResponse (by decide)

/-- A response that cannot be read. -/
def silentEntry : DocumentEntry :=
  entryOf "/a" [("get", .mapping [("responses", .mapping [("200", contentless)])])]

theorem not_reports_unreadableResponse :
    ¬ ∀ (entry : DocumentEntry) (document : ApiDocument), ApiDocument.ofEntry entry = .ok document →
      ∀ label part value, entry.HasPart label part value → part.IsLost entry.components value →
        ∃ issue, .operationSpecific label issue ∈ document.warnings := by
  intro reportsAll
  have hasPart : silentEntry.HasPart "GET /a" .response contentless :=
    @DocumentEntry.HasPart.ofOperation silentEntry "/a" "get" _ _ _ _ .get _ _
      (List.mem_singleton_self _) rfl (List.mem_singleton_self _) rfl rfl (.response rfl)
  have finds : OperationPart.response.Finds silentEntry.components contentless contentless :=
    ⟨0, by decide, .here _, rfl⟩
  have isLost : OperationPart.response.IsLost silentEntry.components contentless :=
    .unreadable finds rfl
  obtain ⟨issue, reported⟩ := reportsAll silentEntry _ rfl _ _ _ hasPart isLost
  exact List.not_mem_nil reported

end Samples

end TypedClient
