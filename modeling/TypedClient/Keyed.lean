/-!
# Lists with keys

A list of items with a key each, in order of first appearance. Putting an item
whose key is present replaces the old item where it stands.
-/

namespace TypedClient.Keyed

variable {α κ : Type} [DecidableEq κ]

/-- Puts an item in place of the one with its key, or at the end. -/
def put (key : α → κ) (item : α) : List α → List α
  | [] => [item]
  | old :: rest => if key old = key item then item :: rest else old :: put key item rest

/-- Puts items one after the other. -/
def putAll (key : α → κ) (items : List α) (into : List α) : List α :=
  items.foldl (fun list item => put key item list) into

theorem mem_put {key : α → κ} {item other : α} {list : List α}
    (member : other ∈ put key item list) : other = item ∨ other ∈ list := by
  induction list with
  | nil => simpa [put] using member
  | cons old rest ih =>
    unfold put at member
    split at member
    · rcases List.mem_cons.1 member with equal | inRest
      · exact .inl equal
      · exact .inr (List.mem_cons_of_mem _ inRest)
    · rcases List.mem_cons.1 member with equal | inRest
      · exact .inr (equal ▸ List.mem_cons_self)
      · exact (ih inRest).imp id (List.mem_cons_of_mem _)

/-- Putting a pair changes what is found under its key and nothing else. -/
theorem lookup_put [BEq κ] [LawfulBEq κ] {β : Type} (name other : κ) (value : β)
    (list : List (κ × β)) :
    (put Prod.fst (name, value) list).lookup other =
      if other = name then some value else list.lookup other := by
  induction list with
  | nil =>
    by_cases same : other = name
    · simp [put, same]
    · have different : (other == name) = false := by simp [same]
      simp [put, List.lookup_cons, same, different]
  | cons old rest ih =>
    obtain ⟨oldName, oldValue⟩ := old
    unfold put
    by_cases found : oldName = name
    · subst found
      by_cases same : other = oldName
      · simp [same]
      · have different : (other == oldName) = false := by simp [same]
        simp [List.lookup_cons, same, different]
    · by_cases same : other = oldName
      · subst same
        simp [found]
      · have different : (other == oldName) = false := by simp [same]
        simp only [found, if_false, List.lookup_cons, different]
        exact ih

/-- Putting an item changes what is found under its key and nothing else. -/
theorem find?_put (key : α → κ) (item : α) (name : κ) (list : List α) :
    (put key item list).find? (fun other => key other = name) =
      if key item = name then some item else list.find? fun other => key other = name := by
  induction list with
  | nil => by_cases same : key item = name <;> simp [put, same]
  | cons old rest ih =>
    unfold put
    split
    · rename_i found
      by_cases same : key item = name <;> simp [found, same]
    · rename_i different
      by_cases same : key old = name
      · have other : key item ≠ name := fun equal => different (same.trans equal.symm)
        simp [same, other]
      · simp [same, ih]

/-- An item put in place of another that agrees with it in some respect changes
nothing in that respect. -/
theorem map_put {β : Type} {respect : α → β} {key : α → κ} {item old : α} {list : List α}
    (found : (list.find? fun other => key other = key item) = some old)
    (agrees : respect item = respect old) : (put key item list).map respect = list.map respect := by
  induction list with
  | nil => simp at found
  | cons first rest ih =>
    unfold put
    split
    · rename_i same
      have isOld : first = old := by simpa [same] using found
      simp [agrees, isOld]
    · rename_i different
      have later : (rest.find? fun other => key other = key item) = some old := by
        simpa [different] using found
      simp [ih later]

end TypedClient.Keyed
