/-!
# Splitting a text

A text is split at a character or after an exact beginning. A text with `n`
separators has `n + 1` parts, some of them possibly empty.
-/

namespace TypedClient.Text

/-- The parts of a text between the separators. -/
def splitAtChar (separator : Char) : List Char → List (List Char)
  | [] => [[]]
  | c :: rest =>
      if c == separator then
        [] :: splitAtChar separator rest
      else
        match splitAtChar separator rest with
        | [] => [[c]]
        | first :: others => (c :: first) :: others

theorem splitAtChar_eq_splitOn (separator : Char) (text : List Char) :
    splitAtChar separator text = text.splitOn separator := by
  induction text with
  | nil => rfl
  | cons c rest ih =>
      rw [splitAtChar, ih, List.splitOn_cons_eq_if_modifyHead]
      cases parts : rest.splitOn separator with
      | nil => exact absurd parts (List.splitOn_ne_nil separator rest)
      | cons first others => rfl

theorem not_mem_of_mem_splitAtChar {separator : Char} {text : List Char} :
    ∀ part ∈ splitAtChar separator text, separator ∉ part := by
  induction text with
  | nil => simp [splitAtChar]
  | cons c rest ih =>
      by_cases same : c = separator
      · simpa [splitAtChar, same] using ih
      · cases parts : splitAtChar separator rest with
        | nil => simp [splitAtChar, parts, same, Ne.symm same]
        | cons first others =>
            rw [parts, List.forall_mem_cons] at ih
            simpa [splitAtChar, parts, same, Ne.symm same] using ih

/-- The text before the first separator and the text after it. -/
def cutAtChar? (separator : Char) : List Char → Option (List Char × List Char)
  | [] => none
  | c :: rest =>
      if c == separator then
        some ([], rest)
      else
        (cutAtChar? separator rest).map fun (before, after) => (c :: before, after)

section Cutting

variable {separator : Char} {text front before after : List Char}

theorem cutAtChar?_append (absent : separator ∉ before) (text : List Char) :
    cutAtChar? separator (before ++ text) =
      (cutAtChar? separator text).map fun parts => (before ++ parts.1, parts.2) := by
  induction before with
  | nil => simp
  | cons c rest ih =>
      rw [List.mem_cons, not_or] at absent
      have different : (c == separator) = false := beq_false_of_ne (Ne.symm absent.1)
      rw [List.cons_append, cutAtChar?, different, if_neg Bool.false_ne_true, ih absent.2,
        Option.map_map]
      rfl

theorem cutAtChar?_append_separator (absent : separator ∉ before) (after : List Char) :
    cutAtChar? separator (before ++ separator :: after) = some (before, after) := by
  rw [cutAtChar?_append absent, cutAtChar?, beq_self_eq_true, if_pos rfl]
  simp

theorem exists_of_cutAtChar?_append (absent : separator ∉ front)
    (cut : cutAtChar? separator (front ++ text) = some (before, after)) :
    ∃ rest, before = front ++ rest ∧ cutAtChar? separator text = some (rest, after) := by
  rw [cutAtChar?_append absent] at cut
  obtain ⟨⟨rest, tail⟩, inText, equal⟩ := Option.map_eq_some_iff.mp cut
  obtain ⟨same, rfl⟩ := Prod.mk.inj equal
  exact ⟨rest, same.symm, inText⟩

theorem cutAtChar?_eq_some_iff : cutAtChar? separator text = some (before, after) ↔
    separator ∉ before ∧ text = before ++ separator :: after := by
  constructor
  · intro cut
    induction text generalizing before with
    | nil => simp [cutAtChar?] at cut
    | cons c rest ih =>
        unfold cutAtChar? at cut
        split at cut
        · rename_i same
          obtain ⟨rfl, rfl⟩ : [] = before ∧ rest = after := by simpa using cut
          exact ⟨List.not_mem_nil, by rw [beq_iff_eq.mp same, List.nil_append]⟩
        · rename_i different
          obtain ⟨⟨inner, tail⟩, cutRest, equal⟩ := Option.map_eq_some_iff.mp cut
          obtain ⟨rfl, rfl⟩ : c :: inner = before ∧ tail = after := by simpa using equal
          obtain ⟨absent, rfl⟩ := ih cutRest
          refine ⟨fun member => ?_, rfl⟩
          rcases List.mem_cons.mp member with same | inInner
          · exact different (beq_iff_eq.mpr same.symm)
          · exact absent inInner
  · rintro ⟨absent, rfl⟩
    exact cutAtChar?_append_separator absent after

theorem length_lt_of_cutAtChar? (found : cutAtChar? separator text = some (before, after)) :
    after.length < text.length := by
  obtain ⟨-, rfl⟩ := cutAtChar?_eq_some_iff.mp found
  rw [List.length_append, List.length_cons]
  omega

end Cutting

/-- The text after an exact beginning. -/
def dropBeginning? : (beginning text : List Char) → Option (List Char)
  | [], text => some text
  | _ :: _, [] => none
  | b :: beginning, c :: text => if b == c then dropBeginning? beginning text else none

theorem dropBeginning?_eq_some_iff {beginning text rest : List Char} :
    dropBeginning? beginning text = some rest ↔ text = beginning ++ rest := by
  induction beginning generalizing text with
  | nil => simp [dropBeginning?]
  | cons b beginning ih =>
      cases text with
      | nil => simp [dropBeginning?]
      | cons c text =>
          rw [dropBeginning?]
          by_cases same : b = c
          · subst same
            simp [ih]
          · simp [same, Ne.symm same]

/-- Whether a text starts with another one. -/
def beginsWith (beginning text : String) : Bool :=
  beginning.toList.isPrefixOf text.toList

end TypedClient.Text
