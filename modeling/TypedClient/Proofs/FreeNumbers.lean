import TypedClient.Numbering
import Mathlib.Data.List.Nodup
import Mathlib.Data.List.Perm.Subperm

/-!
# The least free number

Where numbers give different names, a list of taken names can block no more numbers
than it has names. So the bounded search for a free number always ends at one, and
it is the least.
-/

namespace TypedClient

variable {α : Type} {nameOf : Nat → α}

/-- A list has room for no more numbered names than it is long. -/
theorem le_length_of_blocked (injective : Function.Injective nameOf) {list : List α}
    {bound : Nat} (blocked : ∀ number, firstNumber ≤ number → number < bound →
      nameOf number ∈ list) : bound ≤ list.length + firstNumber := by
  have distinct : ((List.range (bound - firstNumber)).map fun offset =>
      nameOf (offset + firstNumber)).Nodup := by
    refine List.Nodup.map (fun first second equal => ?_) List.nodup_range
    exact Nat.add_right_cancel (injective equal)
  have subset : ((List.range (bound - firstNumber)).map fun offset =>
      nameOf (offset + firstNumber)) ⊆ list := by
    intro name member
    obtain ⟨offset, offsetMem, rfl⟩ := List.mem_map.mp member
    have offsetLt := List.mem_range.mp offsetMem
    exact blocked _ (Nat.le_add_left _ _) (by omega)
  have fits := (List.subperm_of_subset distinct subset).length_le
  rw [List.length_map, List.length_range] at fits
  omega

/-- A search that finds nothing free runs to its end. -/
theorem leastFree_eq_of_not_free {free : Nat → Bool} {rounds start : Nat}
    (notFree : free (leastFree free rounds start) = false) :
    leastFree free rounds start = start + rounds := by
  induction rounds generalizing start with
  | zero => rfl
  | succ rounds ih =>
      unfold leastFree at notFree ⊢
      split at notFree
      · rename_i startFree
        rw [startFree] at notFree
        contradiction
      · rename_i startTaken
        rw [if_neg startTaken, ih notFree]
        omega

variable [BEq α] {taken : List α}

theorem firstNumber_le_freeNumber : firstNumber ≤ freeNumber nameOf taken :=
  le_leastFree _ _ _

variable [LawfulBEq α]

theorem mem_of_lt_freeNumber {number : Nat} (least : firstNumber ≤ number)
    (passed : number < freeNumber nameOf taken) : nameOf number ∈ taken := by
  have notFree := not_free_of_lt_leastFree least passed
  simpa using notFree

theorem freeNumber_not_mem (injective : Function.Injective nameOf) :
    nameOf (freeNumber nameOf taken) ∉ taken := by
  intro member
  have atEnd : freeNumber nameOf taken = firstNumber + taken.length :=
    leastFree_eq_of_not_free (by simpa [freeNumber] using member)
  have blocked : ∀ number, firstNumber ≤ number → number < freeNumber nameOf taken + 1 →
      nameOf number ∈ taken := by
    intro number least within
    rcases Nat.lt_or_eq_of_le (Nat.le_of_lt_succ within) with passed | rfl
    · exact mem_of_lt_freeNumber least passed
    · exact member
  have bound := le_length_of_blocked injective blocked
  omega

end TypedClient
