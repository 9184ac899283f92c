/-!
# Numbered names

A name that is already taken gets a number, counted from two. The search for the
least free number is bounded by the number of names that can be in its way.
-/

namespace TypedClient

/-- The least free number from `start` on, among the next `rounds` ones; the one
after them if none of them is free. -/
def leastFree (free : Nat → Bool) : (rounds start : Nat) → Nat
  | 0, start => start
  | rounds + 1, start => if free start then start else leastFree free rounds (start + 1)

/-- The first number that is appended to a name. -/
def firstNumber : Nat := 2

/-- The least number from two on whose name is not among the taken ones. -/
def freeNumber {α : Type} [BEq α] (nameOf : Nat → α) (taken : List α) : Nat :=
  leastFree (fun number => !taken.contains (nameOf number)) taken.length firstNumber

theorem le_leastFree (free : Nat → Bool) (rounds start : Nat) :
    start ≤ leastFree free rounds start := by
  induction rounds generalizing start with
  | zero => exact Nat.le_refl start
  | succ rounds ih =>
    unfold leastFree
    split
    · exact Nat.le_refl start
    · exact Nat.le_of_succ_le (ih (start + 1))

/-- Every number that the search passes over is taken. -/
theorem not_free_of_lt_leastFree {free : Nat → Bool} {rounds start number : Nat}
    (least : start ≤ number) (passed : number < leastFree free rounds start) :
    free number = false := by
  induction rounds generalizing start with
  | zero => exact absurd passed (Nat.not_lt.2 least)
  | succ rounds ih =>
    unfold leastFree at passed
    split at passed
    · exact absurd passed (Nat.not_lt.2 least)
    · rename_i taken
      rcases Nat.eq_or_lt_of_le least with equal | later
      · exact equal ▸ Bool.eq_false_iff.2 taken
      · exact ih later passed

end TypedClient
