import TypedClient.Document.Basic
import TypedClient.Proofs.FirstOccurrences
import TypedClient.Proofs.WarningKinds
import Mathlib.Data.List.Forall2

/-!
# Where operations come from

Every entry of a path item whose key is an HTTP method becomes an operation, or a
warning that it is skipped if it cannot be read. Operations come in the order of their
entries, and their keys count them.
-/

namespace TypedClient

namespace Document

open Json

/-- An entry of a path item whose key is an HTTP method. -/
structure MethodEntry where
  path : String
  method : HttpMethod
  value : Value

/-- The method entries of a path item; an item that is no mapping has none. -/
def methodEntriesOf (path : String) (item : Value) : List MethodEntry :=
  (item.entries?.getD []).filterMap fun entry =>
    (HttpMethod.ofName? entry.1).map fun method => ⟨path, method, entry.2⟩

/-- The method entries of a document, in document order. -/
def methodEntries (entry : DocumentEntry) : List MethodEntry :=
  entry.paths.flatMap fun item => methodEntriesOf item.1 item.2

namespace MethodEntry

/-- Why a method entry cannot be read. -/
def fault? (entry : MethodEntry) : Option Fault :=
  match OperationEntry.ofValue entry.value with
  | .ok _ => none
  | .error fault => some fault

/-- Where an operation comes from: its path and its method. -/
def place (entry : MethodEntry) : String × HttpMethod :=
  (entry.path, entry.method)

def skipWarning? (entry : MethodEntry) : Option Warning :=
  entry.fault?.map (.operationSkipped (Operation.labelOf entry.method entry.path))

end MethodEntry

/-- The outcome of a method entry. -/
inductive Outcome.IsOf (entry : MethodEntry) : Outcome → Prop where
  | skipped {fault : Fault} (unreadable : entry.fault? = some fault) :
      IsOf entry (.skipped (Operation.labelOf entry.method entry.path) fault)
  | lowered {operation : Operation} {issues : List OperationIssue}
      (readable : entry.fault? = none)
      (samePlace : (operation.path, operation.method) = entry.place)
      (tagsDistinct : operation.tags.Nodup) : IsOf entry (.lowered operation issues)

section Outcomes

variable [MediaTypeParser]

theorem isOf_lowerItemEntry {components : ComponentsEntry} {shared : List Value} {path key : String}
    {value : Value} {method : HttpMethod} (isMethod : HttpMethod.ofName? key = some method) :
    ∃ outcome, lowerItemEntry components shared path (key, value) = some outcome ∧
      outcome.IsOf ⟨path, method, value⟩ := by
  simp only [lowerItemEntry, isMethod, Option.map_some]
  refine ⟨_, rfl, ?_⟩
  cases read : OperationEntry.ofValue value with
  | error fault => exact .skipped (by simp only [MethodEntry.fault?, read])
  | ok operation =>
      exact .lowered (by simp only [MethodEntry.fault?, read]) rfl (nodup_eraseDups _)

theorem isOf_lowerPath (components : ComponentsEntry) (path : String) (item : Value) :
    List.Forall₂ Outcome.IsOf (methodEntriesOf path item) (lowerPath components path item) := by
  have throughEntries : ∀ (shared : List Value) (entries : List (String × Value)),
      List.Forall₂ Outcome.IsOf
        (entries.filterMap fun entry =>
          (HttpMethod.ofName? entry.1).map fun method => ⟨path, method, entry.2⟩)
        (entries.filterMap (lowerItemEntry components shared path)) := by
    intro shared entries
    induction entries with
    | nil => exact .nil
    | cons entry rest ih =>
        obtain ⟨key, value⟩ := entry
        cases isMethod : HttpMethod.ofName? key with
        | none => simpa [lowerItemEntry, isMethod] using ih
        | some method =>
            obtain ⟨outcome, lowered, isOf⟩ :=
              @isOf_lowerItemEntry _ components shared path key value method isMethod
            simp only [List.filterMap_cons, lowered, isMethod, Option.map_some]
            exact .cons isOf ih
  unfold methodEntriesOf lowerPath
  cases item.entries? with
  | none => exact .nil
  | some entries => exact throughEntries _ entries

/-- The outcomes of a document are those of its method entries. -/
theorem isOf_outcomes (entry : DocumentEntry) :
    List.Forall₂ Outcome.IsOf (methodEntries entry) (outcomes entry) := by
  unfold methodEntries outcomes
  induction entry.paths with
  | nil => exact .nil
  | cons item rest ih =>
      rw [List.flatMap_cons, List.flatMap_cons]
      exact List.rel_append (isOf_lowerPath entry.components item.1 item.2) ih

end Outcomes

namespace Outcome

variable {label : String} {fault : Fault} {operation : Operation} {issues : List OperationIssue}

@[simp] theorem operation?_skipped : (skipped label fault).operation? = none :=
  rfl

@[simp] theorem operation?_lowered : (lowered operation issues).operation? = some operation :=
  rfl

theorem ofKind_warnings_skipped : Warning.ofKind .operationSkipped (skipped label fault).warnings =
    [.operationSkipped label fault] :=
  rfl

theorem ofKind_warnings_lowered :
    Warning.ofKind .operationSkipped (lowered operation issues).warnings = [] := by
  refine Warning.ofKind_eq_nil fun warning member => ?_
  obtain ⟨issue, _, rfl⟩ := List.mem_map.mp member
  exact Warning.Kind.noConfusion

end Outcome

section Accounts

variable {entries : List MethodEntry} {results : List Outcome}

theorem places_eq_of_isOf (isOf : List.Forall₂ Outcome.IsOf entries results) :
    ((results.filterMap Outcome.operation?).map fun operation =>
        (operation.path, operation.method)) =
      (entries.filter fun entry => entry.fault?.isNone).map MethodEntry.place := by
  induction isOf with
  | nil => rfl
  | @cons entry outcome _ _ first _ ih =>
      cases first with
      | skipped unreadable => simpa [List.filterMap_cons, unreadable] using ih
      | lowered readable samePlace => simpa [readable, samePlace] using ih

theorem skipped_eq_of_isOf (isOf : List.Forall₂ Outcome.IsOf entries results) :
    Warning.ofKind .operationSkipped (results.flatMap Outcome.warnings) =
      entries.filterMap MethodEntry.skipWarning? := by
  induction isOf with
  | nil => rfl
  | @cons entry outcome _ _ first _ ih =>
      rw [List.flatMap_cons, Warning.ofKind_append, ih]
      cases first with
      | skipped unreadable =>
          simp [MethodEntry.skipWarning?, unreadable, Outcome.ofKind_warnings_skipped]
      | lowered readable _ _ =>
          simp [MethodEntry.skipWarning?, readable, Outcome.ofKind_warnings_lowered]

theorem tags_nodup_of_isOf (isOf : List.Forall₂ Outcome.IsOf entries results)
    {operation : Operation} (member : operation ∈ results.filterMap Outcome.operation?) :
    operation.tags.Nodup := by
  induction isOf with
  | nil => exact absurd member List.not_mem_nil
  | @cons entry outcome _ _ first _ ih =>
      cases first with
      | skipped _ =>
          rw [List.filterMap_cons, Outcome.operation?_skipped] at member
          exact ih member
      | lowered _ _ tagsDistinct =>
          rw [List.filterMap_cons, Outcome.operation?_lowered] at member
          rcases List.mem_cons.mp member with rfl | later
          · exact tagsDistinct
          · exact ih later

/-- Every method entry can be read or is skipped with a warning. -/
theorem length_methodEntries (entries : List MethodEntry) :
    entries.length = (entries.filter fun entry => entry.fault?.isNone).length +
      (entries.filterMap MethodEntry.skipWarning?).length := by
  induction entries with
  | nil => rfl
  | cons entry rest ih =>
      cases fault : entry.fault? with
      | none => simp [MethodEntry.skipWarning?, fault, ih, Nat.add_right_comm]
      | some _ => simp [MethodEntry.skipWarning?, fault, ih, Nat.add_assoc]

end Accounts

theorem operationsOf_eq (results : List Outcome) :
    operationsOf results = (results.filterMap Outcome.operation?).zipIdx.map
      fun indexed => { indexed.1 with key := indexed.2 } := by
  rw [operationsOf, List.mapIdx_eq_zipIdx_map]

/-- Keys count the operations. -/
theorem map_key_operationsOf (results : List Outcome) :
    (operationsOf results).map Operation.key = List.range (operationsOf results).length := by
  rw [operationsOf_eq, List.map_map, List.length_map, List.length_zipIdx, List.range_eq_range',
    ← List.zipIdx_map_snd]
  rfl

/-- What does not depend on the key is as it was lowered. -/
theorem map_operationsOf {α : Type} {respect : Operation → α}
    (keyless : ∀ operation key, respect { operation with key := key } = respect operation)
    (results : List Outcome) :
    (operationsOf results).map respect = (results.filterMap Outcome.operation?).map respect := by
  rw [operationsOf_eq, List.map_map]
  conv_rhs => rw [← List.zipIdx_map_fst 0 (results.filterMap Outcome.operation?), List.map_map]
  exact List.map_congr_left fun indexed _ => keyless indexed.1 indexed.2

end Document

open Document

/-- What is known of a document that was lowered from an entry. -/
structure ApiDocument.IsLowered (entry : DocumentEntry) (document : ApiDocument) : Prop where
  places_eq : (document.operations.map fun operation => (operation.path, operation.method)) =
    ((methodEntries entry).filter fun entry => entry.fault?.isNone).map MethodEntry.place
  skipped_eq : Warning.ofKind .operationSkipped document.warnings =
    (methodEntries entry).filterMap MethodEntry.skipWarning?
  keys_eq : document.operations.map Operation.key = List.range document.operations.length
  tagsDistinct : ∀ operation ∈ document.operations, operation.tags.Nodup
  kinds : ∀ warning ∈ document.warnings,
    warning.kind = .operationSkipped ∨ warning.kind = .operationSpecific

variable [MediaTypeParser]

/-- A document that is accepted holds the outcomes of its entries. -/
theorem ApiDocument.outcomes_of_ofEntry {entry : DocumentEntry} {document : ApiDocument}
    (accepted : ofEntry entry = .ok document) :
    document.operations = operationsOf (outcomes entry) ∧
      document.warnings = (outcomes entry).flatMap Outcome.warnings := by
  unfold ofEntry at accepted
  split at accepted
  · cases accepted
  · cases accepted
  · split at accepted
    · cases accepted
      exact ⟨rfl, rfl⟩
    · cases accepted

theorem ApiDocument.isLowered_of_ofEntry {entry : DocumentEntry} {document : ApiDocument}
    (accepted : ofEntry entry = .ok document) : document.IsLowered entry := by
  have documentEq := outcomes_of_ofEntry accepted
  have isOf := isOf_outcomes entry
  refine ⟨?places_eq, ?skipped_eq, ?keys_eq, ?tagsDistinct, ?kinds⟩
  case places_eq =>
    rw [documentEq.1, @map_operationsOf _ (fun operation => (operation.path, operation.method))
      fun _ _ => rfl]
    exact places_eq_of_isOf isOf
  case skipped_eq =>
    rw [documentEq.2]
    exact skipped_eq_of_isOf isOf
  case keys_eq =>
    rw [documentEq.1]
    exact map_key_operationsOf _
  case tagsDistinct =>
    intro operation member
    have isTags : operation.tags ∈ document.operations.map Operation.tags :=
      List.mem_map_of_mem member
    rw [documentEq.1, @map_operationsOf _ Operation.tags fun _ _ => rfl] at isTags
    obtain ⟨lowered, loweredMem, same⟩ := List.mem_map.mp isTags
    exact same ▸ tags_nodup_of_isOf isOf loweredMem
  case kinds =>
    intro warning member
    rw [documentEq.2] at member
    obtain ⟨outcome, _, isWarning⟩ := List.mem_flatMap.mp member
    exact kind_outcome isWarning

end TypedClient
