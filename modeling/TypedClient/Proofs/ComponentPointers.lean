import TypedClient.Schema.Resolution

/-!
# Pointers to components

In a pointer the name of a component is one token: a tilde in it is written `~0`, and a slash
`~1`. Reading undoes the slashes first and then the tildes. In between, a tilde stands only
before a `0`, so that nothing is taken for an escape that was not written as one.
-/

namespace TypedClient

open Text

/-- A name with its tildes escaped. -/
def escapeTildes (name : List Char) : List Char :=
  name.flatMap fun c => if c = '~' then ['~', '0'] else [c]

/-- A name as it stands in a pointer. -/
def escapeName (name : List Char) : List Char :=
  (escapeTildes name).flatMap fun c => if c = '/' then ['~', '1'] else [c]

/-- The pointer to a component of a section by a token. -/
def pointerTo (area : ComponentSection) (token : List Char) : String :=
  String.ofList ("#/components/".toList ++ (area.key.toList ++ '/' :: token))

/-- The pointer to a component of a section by its name. -/
def pointerToName (area : ComponentSection) (name : String) : String :=
  pointerTo area (escapeName name.toList)

section Escaping

variable {c first second meant : Char} {name rest : List Char}

theorem replacePair_pair (rest : List Char) : replacePair first second meant
    (first :: second :: rest) = meant :: replacePair first second meant rest := by
  rw [replacePair, beq_self_eq_true, beq_self_eq_true]
  rfl

theorem replacePair_cons (notFirst : c ≠ first) (rest : List Char) :
    replacePair first second meant (c :: rest) = c :: replacePair first second meant rest := by
  cases rest with
  | nil => rfl
  | cons next rest =>
      have differs : (c == first && next == second) = false := by simp [notFirst]
      rw [replacePair, differs]
      rfl

theorem replacePair_cons_cons (notSecond : c ≠ second) (rest : List Char) :
    replacePair first second meant (first :: c :: rest) =
      first :: replacePair first second meant (c :: rest) := by
  have differs : (first == first && c == second) = false := by simp [notSecond]
  rw [replacePair, differs]
  rfl

/-- Undoing the slashes leaves the tildes as they were escaped. -/
theorem replacePair_escapeName (name : List Char) :
    replacePair '~' '1' '/' (escapeName name) = escapeTildes name := by
  induction name with
  | nil => rfl
  | cons c name ih =>
      by_cases isTilde : c = '~'
      · subst isTilde
        change replacePair '~' '1' '/' ('~' :: '0' :: escapeName name) = '~' :: '0' :: _
        rw [replacePair_cons_cons (by decide), replacePair_cons (by decide), ih]
        rfl
      · by_cases isSlash : c = '/'
        · subst isSlash
          change replacePair '~' '1' '/' ('~' :: '1' :: escapeName name) = '/' :: _
          rw [replacePair_pair, ih]
          rfl
        · have written : escapeName (c :: name) = c :: escapeName name := by
            simp [escapeName, escapeTildes, isTilde, isSlash]
          rw [written, replacePair_cons isTilde, ih]
          simp [escapeTildes, isTilde]

theorem replacePair_escapeTildes (name : List Char) :
    replacePair '~' '0' '~' (escapeTildes name) = name := by
  induction name with
  | nil => rfl
  | cons c name ih =>
      by_cases isTilde : c = '~'
      · subst isTilde
        change replacePair '~' '0' '~' ('~' :: '0' :: escapeTildes name) = _
        rw [replacePair_pair, ih]
      · have written : escapeTildes (c :: name) = c :: escapeTildes name := by
          simp [escapeTildes, isTilde]
        rw [written, replacePair_cons isTilde, ih]

theorem unescapeName_escapeName (name : List Char) : unescapeName (escapeName name) = name := by
  rw [unescapeName, replacePair_escapeName, replacePair_escapeTildes]

theorem slash_not_mem_escapeName (name : List Char) : '/' ∉ escapeName name := by
  intro member
  obtain ⟨c, -, isWritten⟩ := List.mem_flatMap.mp member
  split at isWritten
  · simp at isWritten
  · rename_i notSlash
    exact notSlash (List.mem_singleton.mp isWritten).symm

theorem escapeName_ne_nil (hasText : name ≠ []) : escapeName name ≠ [] := by
  intro isEmpty
  have undone := unescapeName_escapeName name
  rw [isEmpty] at undone
  exact hasText undone.symm

end Escaping

section Reading

variable {area other : ComponentSection} {token : List Char} {reference name : String}

theorem ComponentSection.slash_not_mem_key (area : ComponentSection) : '/' ∉ area.key.toList := by
  cases area <;> decide

theorem ComponentSection.key_injective (same : area.key.toList = other.key.toList) :
    area = other := by
  cases area <;> cases other <;> simp_all [key]

theorem toList_pointerTo (area : ComponentSection) (token : List Char) :
    (pointerTo area token).toList =
      "#/components/".toList ++ (area.key.toList ++ '/' :: token) :=
  String.toList_ofList

/-- A reference names a component exactly if it points to it by one token. -/
theorem componentName?_eq_some_iff : componentName? area reference = some name ↔
    ∃ token, token ≠ [] ∧ '/' ∉ token ∧ reference = pointerTo area token ∧
      name = String.ofList (unescapeName token) := by
  simp only [componentName?, Option.bind_eq_bind, Option.bind_eq_some_iff,
    dropBeginning?_eq_some_iff, Prod.exists, cutAtChar?_eq_some_iff, Option.ite_none_right_eq_some,
    Option.some.injEq, Bool.and_eq_true, beq_iff_eq, Bool.not_eq_true', List.isEmpty_eq_false_iff,
    List.contains_eq_mem, decide_eq_false_iff_not]
  constructor
  · rintro ⟨inner, isReference, found, token, ⟨-, rfl⟩, ⟨⟨rfl, hasText⟩, noSlash⟩, rfl⟩
    refine ⟨token, hasText, noSlash, String.toList_injective ?_, rfl⟩
    rw [isReference, toList_pointerTo]
  · rintro ⟨token, hasText, noSlash, rfl, rfl⟩
    exact ⟨_, toList_pointerTo area token, area.key.toList, token, ⟨area.slash_not_mem_key, rfl⟩,
      ⟨⟨rfl, hasText⟩, noSlash⟩, rfl⟩

/-- Pointers differ in their section or in their token. -/
theorem pointerTo_inj {otherToken : List Char}
    (same : pointerTo area token = pointerTo other otherToken) :
    area = other ∧ token = otherToken := by
  have chars := List.append_cancel_left (String.ofList_injective same)
  have cut := cutAtChar?_append_separator area.slash_not_mem_key token
  rw [chars, cutAtChar?_append_separator other.slash_not_mem_key, Option.some.injEq,
    Prod.mk.injEq] at cut
  exact ⟨ComponentSection.key_injective cut.1.symm, cut.2.symm⟩

theorem componentName?_pointerToName (hasText : name ≠ "") :
    componentName? area (pointerToName area name) = some name := by
  have nameChars : name.toList ≠ [] := by simpa using hasText
  refine componentName?_eq_some_iff.mpr
    ⟨_, escapeName_ne_nil nameChars, slash_not_mem_escapeName _, rfl, ?_⟩
  rw [unescapeName_escapeName, String.ofList_toList]

theorem componentName?_pointerTo_other (different : other ≠ area) :
    componentName? other (pointerTo area token) = none := by
  rw [Option.eq_none_iff_forall_ne_some]
  intro name named
  obtain ⟨_, -, -, same, -⟩ := componentName?_eq_some_iff.mp named
  exact different (pointerTo_inj same).1.symm

end Reading

/-- A pointer made from the name of a component names this component in its section, and none in
any other; nothing but a pointer by one token names a component; and a schema that refers to a
component in this way has the type of the component. -/
theorem componentName?_roundTrips :
    (∀ area name, name ≠ "" → componentName? area (pointerToName area name) = some name ∧
      ∀ other, other ≠ area → componentName? other (pointerToName area name) = none) ∧
    (∀ area reference name, componentName? area reference = some name ↔
      ∃ token, token ≠ [] ∧ '/' ∉ token ∧ reference = pointerTo area token ∧
        name = String.ofList (unescapeName token)) ∧
    ∀ known name, name ≠ "" → name ∈ known →
      SchemaNode.resolveReference known (pointerToName .schemas name) =
        .ok (.named (.ofSchema name)) := by
  refine ⟨fun area name hasText => ?_, fun _ _ _ => componentName?_eq_some_iff,
    fun known name hasText isKnown => ?_⟩
  · exact ⟨componentName?_pointerToName hasText, fun _ => componentName?_pointerTo_other⟩
  have named : schemaName? (pointerToName .schemas name) = some name :=
    componentName?_pointerToName hasText
  have contained : known.contains name = true := List.contains_iff_mem.mpr isKnown
  rw [SchemaNode.resolveReference, named]
  exact if_pos contained

/-- A name that would be read wrongly if tildes were undone before slashes. -/
theorem componentName?_roundTrips_tildeSample :
    "~1/é" ≠ "" ∧ "~1/é" ∈ ["Pet", "~1/é"] ∧
      SchemaNode.resolveReference ["Pet", "~1/é"] "#/components/schemas/~01~1é" =
        .ok (.named (.ofSchema "~1/é")) := by
  have pointer : pointerToName .schemas "~1/é" = "#/components/schemas/~01~1é" := by decide
  have isKnown : "~1/é" ∈ ["Pet", "~1/é"] := by decide
  exact ⟨by decide, isKnown,
    pointer ▸ componentName?_roundTrips.2.2 ["Pet", "~1/é"] "~1/é" (by decide) isKnown⟩

end TypedClient
