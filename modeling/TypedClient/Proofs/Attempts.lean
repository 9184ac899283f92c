import Mathlib.Data.List.Forall2

/-!
# Attempts

An attempt gives a result or an error. What is done in several steps succeeds exactly if
all steps do, and then its result is made from theirs.
-/

namespace TypedClient

section Steps

variable {ε ε' α β : Type} {attempt : Except ε α}

theorem bind_eq_ok_iff {next : α → Except ε β} {result : β} :
    attempt.bind next = .ok result ↔ ∃ value, attempt = .ok value ∧ next value = .ok result := by
  cases attempt <;> simp [Except.bind]

theorem map_eq_ok_iff {function : α → β} {result : β} :
    attempt.map function = .ok result ↔ ∃ value, attempt = .ok value ∧ function value = result := by
  cases attempt <;> simp [Except.map]

theorem mapError_eq_ok_iff {change : ε → ε'} {value : α} :
    attempt.mapError change = .ok value ↔ attempt = .ok value := by
  cases attempt <;> simp [Except.mapError]

end Steps

section Lists

variable {ε α β : Type} {function : α → Except ε β} {items : List α}

theorem exists_mapM_eq_ok (succeeds : ∀ item ∈ items, ∃ result, function item = .ok result) :
    ∃ results, items.mapM function = .ok results ∧
      List.Forall₂ (fun item result => function item = .ok result) items results := by
  induction items with
  | nil => exact ⟨[], rfl, .nil⟩
  | cons item rest ih =>
      obtain ⟨result, first⟩ := succeeds item List.mem_cons_self
      obtain ⟨results, others, pairs⟩ :=
        ih fun other member => succeeds other (List.mem_cons_of_mem _ member)
      refine ⟨result :: results, ?_, .cons first pairs⟩
      rw [List.mapM_cons, first, others]
      rfl

theorem forall₂_of_mapM_eq_ok {results : List β} (succeeded : items.mapM function = .ok results) :
    List.Forall₂ (fun item result => function item = .ok result) items results := by
  induction items generalizing results with
  | nil =>
      obtain rfl := Except.ok.inj succeeded
      exact .nil
  | cons item rest ih =>
      rw [List.mapM_cons] at succeeded
      obtain ⟨result, first, succeeded⟩ := bind_eq_ok_iff.mp succeeded
      obtain ⟨otherResults, others, succeeded⟩ := bind_eq_ok_iff.mp succeeded
      obtain rfl := Except.ok.inj succeeded
      exact .cons first (ih others)

theorem mapM_eq_ok_map {value : α → β}
    (succeeds : ∀ item ∈ items, function item = .ok (value item)) :
    items.mapM function = .ok (items.map value) := by
  induction items with
  | nil => rfl
  | cons item rest ih =>
      rw [List.forall_mem_cons] at succeeds
      rw [List.mapM_cons, succeeds.1, ih succeeds.2]
      rfl

end Lists

end TypedClient
