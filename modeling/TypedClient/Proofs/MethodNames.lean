import TypedClient.Proofs.IdentifierScheme
import TypedClient.Proofs.OperationAccounts

/-!
# What a method name tells

The name of a client method starts with the lower-case name of its HTTP method, and nothing
that a path adds to it starts with a lower-case letter. So the name tells the HTTP method, and
an operation that is refused for its name has the HTTP method of the one that took the name.
-/

namespace TypedClient

namespace HttpMethod

theorem isLower_of_mem_name {method : HttpMethod} {c : Char} (member : c ∈ method.name.toList) :
    c.isLower = true := by
  have allLower : method.name.toList.all Char.isLower = true := by cases method <;> decide
  exact List.all_eq_true.mp allLower c member

theorem name_injective {method other : HttpMethod} (same : method.name = other.name) :
    method = other := by
  cases method <;> cases other <;> first | rfl | exact absurd same (by decide)

end HttpMethod

/-- Letters and digits that do not start with a lower-case letter. -/
structure IsNameTail (text : List Char) : Prop where
  alphanum : ∀ c ∈ text, c.isAlphanum = true
  notLower : ∀ c ∈ text.head?, c.isLower = false

namespace IsNameTail

variable {text other : List Char}

theorem nil : IsNameTail [] :=
  ⟨by simp, by simp⟩

theorem append (tail : IsNameTail text) (otherTail : IsNameTail other) :
    IsNameTail (text ++ other) where
  alphanum c member := (List.mem_append.mp member).elim (tail.alphanum c) (otherTail.alphanum c)
  notLower := by
    cases text with
    | nil => exact otherTail.notLower
    | cons first rest => exact tail.notLower

theorem flatMap {α : Type} {items : List α} {textOf : α → List Char}
    (tails : ∀ item ∈ items, IsNameTail (textOf item)) : IsNameTail (items.flatMap textOf) := by
  induction items with
  | nil => exact nil
  | cons item rest ih =>
      rw [List.forall_mem_cons] at tails
      exact tails.1.append (ih tails.2)

theorem takeWhile_isLower_append (tail : IsNameTail other)
    (allLower : ∀ c ∈ text, c.isLower = true) : (text ++ other).takeWhile Char.isLower = text := by
  have nothingMore : other.takeWhile Char.isLower = [] := by
    cases other with
    | nil => rfl
    | cons first rest =>
        rw [List.takeWhile_cons, tail.notLower first rfl]
        rfl
  rw [List.takeWhile_append_of_pos allLower, nothingMore, List.append_nil]

end IsNameTail

theorem Identifier.head?_pascalFrom {text : List Char} {c : Char}
    (isHead : c ∈ (pascalFrom true text).head?) : c.isLower = false := by
  induction text with
  | nil => cases isHead
  | cons first rest ih =>
      unfold pascalFrom at isHead
      split at isHead
      · cases isHead
        exact Char.isLower_toUpper_eq_false first
      · exact ih isHead

namespace Path

open Text

/-- The parts of a text between its slashes. -/
structure IsSplit (text : List Char) (parts : List (List Char)) : Prop where
  notEmpty : parts ≠ []
  slashFree : ∀ part ∈ parts, '/' ∉ part
  joined : ['/'].intercalate parts = text

theorem isSplit_iff {text : List Char} {parts : List (List Char)} :
    IsSplit text parts ↔ parts = splitAtChar '/' text := by
  rw [splitAtChar_eq_splitOn]
  constructor
  · rintro ⟨notEmpty, slashFree, rfl⟩
    exact (List.splitOn_intercalate '/' slashFree notEmpty).symm
  · rintro rfl
    refine ⟨List.splitOn_ne_nil '/' text, ?_, List.intercalate_splitOn '/'⟩
    exact splitAtChar_eq_splitOn '/' text ▸ not_mem_of_mem_splitAtChar

/-- One segment `api` at the start is dropped, and nothing else. -/
inductive DropsApi : List (List Char) → List (List Char) → Prop where
  | api (others : List (List Char)) : DropsApi ("api".toList :: others) others
  | nothing {segments : List (List Char)} (noApi : segments.head? ≠ some "api".toList) :
      DropsApi segments segments

/-- The segments of a path that name a method: the parts between slashes that are not empty,
less one `api` at the start. -/
def IsNamedBy (path : String) (segments : List (List Char)) : Prop :=
  ∃ parts, IsSplit path.toList parts ∧ DropsApi (parts.filter fun part => part ≠ []) segments

theorem dropsApi_iff {all rest : List (List Char)} :
    DropsApi all rest ↔
      rest = match all with
        | first :: others => if first == "api".toList then others else first :: others
        | [] => [] := by
  constructor
  · intro drops
    cases drops with
    | api others => rfl
    | nothing noApi =>
        cases all with
        | nil => rfl
        | cons first others =>
            have different : ¬ (first == "api".toList) = true := by simpa using noApi
            exact (if_neg different).symm
  · rintro rfl
    cases all with
    | nil => exact .nothing (by simp)
    | cons first others =>
        by_cases isApi : first = "api".toList
        · subst isApi
          exact .api others
        · have different : ¬ (first == "api".toList) = true := by simpa using isApi
          change DropsApi _ (if first == "api".toList then others else first :: others)
          rw [if_neg different]
          exact .nothing fun same => isApi (Option.some.inj same)

theorem isNamedBy_iff {path : String} {segments : List (List Char)} :
    IsNamedBy path segments ↔ segments = namingSegments path.toList := by
  have filterEq : (splitAtChar '/' path.toList).filter (fun part => part ≠ []) =
      Path.segments path.toList := by
    refine List.filter_congr fun part _ => ?_
    cases part <;> rfl
  simp only [IsNamedBy, isSplit_iff, exists_eq_left, filterEq, dropsApi_iff]
  rfl

variable [Conversions]

theorem isNameTail_wordChars (text : List Char) : IsNameTail (wordChars text) where
  alphanum _ := isAlphanum_of_mem_wordChars
  notLower c isHead := by
    unfold wordChars at isHead
    split at isHead
    · cases text with
      | nil => cases isHead
      | cons first rest =>
          cases isHead
          exact Char.isLower_toUpper_eq_false first
    · exact Identifier.head?_pascalFrom isHead

theorem isNameTail_segmentNameChars (segment : List Char) :
    IsNameTail (segmentNameChars segment) := by
  refine .flatMap fun piece _ => ?_
  cases piece with
  | literal text => exact isNameTail_wordChars text
  | placeholder name =>
      have byTail : IsNameTail ['B', 'y'] :=
        ⟨List.forall_mem_cons.mpr ⟨by decide, List.forall_mem_singleton.mpr (by decide)⟩,
          fun _ isHead => Option.some.inj isHead ▸ by decide⟩
      exact byTail.append (isNameTail_wordChars name)

theorem functionName_eq {path : String} {segments : List (List Char)}
    (named : IsNamedBy path segments) (method : HttpMethod) :
    (functionName method path).toList =
      method.name.toList ++ segments.flatMap segmentNameChars := by
  rw [functionName, String.toList_ofList, isNamedBy_iff.mp named]

/-- The lower-case letters that a name starts with are the HTTP method. -/
theorem takeWhile_isLower_functionName (method : HttpMethod) (path : String) :
    (functionName method path).toList.takeWhile Char.isLower = method.name.toList := by
  rw [functionName_eq (isNamedBy_iff.mpr rfl)]
  exact (IsNameTail.flatMap fun segment _ => isNameTail_segmentNameChars segment)
    |>.takeWhile_isLower_append fun _ => HttpMethod.isLower_of_mem_name

theorem method_eq_of_functionName_eq {method other : HttpMethod} {path otherPath : String}
    (same : functionName method path = functionName other otherPath) : method = other := by
  have names := takeWhile_isLower_functionName method path
  rw [same, takeWhile_isLower_functionName] at names
  exact HttpMethod.name_injective (String.toList_injective names.symm)

/-- How the name of a method is made of the HTTP method and the segments of the path. -/
structure NamesMethod (method : HttpMethod) (path name : String) : Prop where
  lowerCase : ∀ c ∈ method.name.toList, c.isLower = true
  startsWithMethod : ∃ rest, name.toList = method.name.toList ++ rest ∧ IsNameTail rest
  named : ∃! segments, IsNamedBy path segments
  composed : ∀ segments, IsNamedBy path segments →
    name.toList = method.name.toList ++ segments.flatMap segmentNameChars

theorem namesMethod_functionName (method : HttpMethod) (path : String) :
    NamesMethod method path (functionName method path) where
  lowerCase _ := HttpMethod.isLower_of_mem_name
  startsWithMethod := ⟨_, functionName_eq (isNamedBy_iff.mpr rfl) method,
    .flatMap fun segment _ => isNameTail_segmentNameChars segment⟩
  named := ⟨_, isNamedBy_iff.mpr rfl, fun _ => isNamedBy_iff.mp⟩
  composed _ named := functionName_eq named method

end Path

namespace Grouping

variable [Text.Conversions] {known : List String} {defaultTag : String}
  {renamed : List (DeclarationName × String)} {operations : List Operation}

/-- A warning of a name that is used already tells of an operation under the tag, whose HTTP
method is that of the method with this name in the module of the tag. -/
def RefusesLikeMethod (grouping : Grouping) (defaultTag : String) (operations : List Operation)
    (tag label function : String) : Prop :=
  ∃ refused ∈ operations, tag ∈ refused.effectiveTags defaultTag ∧ refused.label = label ∧
    refused.functionName = function ∧
    ∃ module ∈ grouping.modules, module.tag = tag ∧
      ∃ taken ∈ module.methods, taken.functionName = function ∧ taken.method = refused.method

theorem Reflects.exists_method {grouping : Grouping} {done : List (Operation × String)}
    (reflects : grouping.Reflects known renamed done) {placement : Operation × String}
    (member : placement ∈ done) :
    ∃ module ∈ grouping.modules, module.tag = placement.2 ∧
      ∃ taken ∈ module.methods, taken.functionName = placement.1.functionName ∧
        taken.method = placement.1.method := by
  obtain ⟨module, moduleMem, isTag⟩ :=
    List.mem_map.mp (reflects.mem_tags_iff.mpr (List.mem_map_of_mem member))
  have placed : placement.1 ∈ placedUnder module.tag done :=
    mem_placedUnder.mpr (isTag ▸ member)
  -- the first operation of this name under the tag was taken, and its name tells its HTTP method
  obtain ⟨kept, keptMem, sameName⟩ := List.mem_map.mp (mem_map_firsts.mpr
    (List.mem_map_of_mem (f := Operation.functionName) placed))
  have sameMethod : kept.method = placement.1.method :=
    Path.method_eq_of_functionName_eq sameName
  refine ⟨module, moduleMem, isTag, (kept.compile known).1.method, ?_, sameName, sameMethod⟩
  rw [(reflects.holds_of_mem moduleMem).methods_eq]
  exact List.mem_map.mpr ⟨kept, keptMem, rfl⟩

theorem refusesLikeMethod_ofOperations (keysApart : Operation.KeysApart operations)
    {tag label function : String}
    (warned : .duplicateFunctionName tag label function ∈
      (ofOperations known defaultTag renamed operations).warnings) :
    (ofOperations known defaultTag renamed operations).RefusesLikeMethod defaultTag operations
      tag label function := by
  have reflects : (ofOperations known defaultTag renamed operations).Reflects known renamed
      (placementsOf defaultTag operations) := reflects_ofOperations defaultTag keysApart
  have ofKind : .duplicateFunctionName tag label function ∈
      (repeats placementName (placementsOf defaultTag operations)).map refusal := by
    rw [← reflects.refusals_eq]
    exact List.mem_filter.mpr ⟨warned, decide_eq_true rfl⟩
  obtain ⟨⟨refused, _⟩, repeated, isRefusal⟩ := List.mem_map.mp ofKind
  cases isRefusal
  have placed := firsts_append_repeats_perm.mem_iff.mp (List.mem_append_right _ repeated)
  obtain ⟨refusedMem, carries⟩ := mem_placementsOf.mp placed
  exact ⟨refused, refusedMem, carries, rfl, rfl, reflects.exists_method placed⟩

end Grouping

/-- Method names are made segment by segment after the HTTP method, they tell the HTTP method,
and an operation is refused only for a method of its own HTTP method. -/
theorem Operation.functionName_tellsMethod [Text.Conversions] :
    (∀ method path, Path.NamesMethod method path (Path.functionName method path)) ∧
      (∀ method path other otherPath,
        Path.functionName method path = Path.functionName other otherPath → method = other) ∧
      ∀ known defaultTag renamed operations, Operation.KeysApart operations →
        ∀ tag label function, .duplicateFunctionName tag label function ∈
            (Grouping.ofOperations known defaultTag renamed operations).warnings →
          (Grouping.ofOperations known defaultTag renamed operations).RefusesLikeMethod defaultTag
            operations tag label function :=
  ⟨Path.namesMethod_functionName, fun _ _ _ _ => Path.method_eq_of_functionName_eq,
    fun _ _ _ _ keysApart _ _ _ => Grouping.refusesLikeMethod_ofOperations keysApart⟩

section Sample

attribute [local instance] Text.Conversions.unchanged

/-- Two paths that differ in an `api` at the start and a slash at the end. -/
def petsTwice : List Operation :=
  [⟨0, .get, "/pets", [], [], none, none, none, none, false⟩,
    ⟨1, .get, "/api/pets/", [], [], none, none, none, none, false⟩]

theorem Operation.functionName_tellsMethod_petsTwice :
    Operation.KeysApart petsTwice ∧
      .duplicateFunctionName "common" "GET /api/pets/" "getPets" ∈
        (Grouping.ofOperations [] defaultTag [] petsTwice).warnings ∧
      (Grouping.ofOperations [] defaultTag [] petsTwice).RefusesLikeMethod defaultTag petsTwice
        "common" "GET /api/pets/" "getPets" := by
  have keysApart : Operation.KeysApart petsTwice := Operation.keysApart_of_nodup (by decide)
  have warnings : (Grouping.ofOperations [] defaultTag [] petsTwice).warnings =
      [.duplicateFunctionName "common" "GET /api/pets/" "getPets"] := by
    cbv
  have warned := warnings ▸ List.mem_singleton_self _
  exact ⟨keysApart, warned,
    functionName_tellsMethod.2.2 [] defaultTag [] petsTwice keysApart _ _ _ warned⟩

end Sample

end TypedClient
