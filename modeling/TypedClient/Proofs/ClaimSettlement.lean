import TypedClient.Declaration.Disambiguation
import TypedClient.Proofs.FreeNumbers

/-!
# Settling claims

Claims are settled one after the other. Every settled claim has an identifier of its
own, and a default identifier is only ever taken by a name that claims it, since a
numbered one is nobody's default.
-/

namespace TypedClient.Disambiguation

theorem numberedIdentifier_injective (identifier : String) :
    Function.Injective (numberedIdentifier identifier) := by
  intro first second equal
  have sameDigits : Nat.toDigits 10 first = Nat.toDigits 10 second := by
    have characters := congrArg String.toList equal
    simpa [numberedIdentifier, Nat.toString_eq_ofList_toDigits] using characters
  rw [← @Nat.ofDigitChars_ten_toDigits first, sameDigits, Nat.ofDigitChars_ten_toDigits]

namespace Assignment

/-- The numbered identifier that a claim gets when its default is taken. -/
def numberedFor (reserved : List String) (assignment : Assignment) (claim : Claim) : String :=
  numberedIdentifier claim.identifier
    (freeNumber (numberedIdentifier claim.identifier) (reserved ++ assignment.taken))

/-- The identifier of a claim under an assignment. -/
def identifierOf (assignment : Assignment) (claim : Claim) : String :=
  (assignment.renamed.lookup claim.name).getD claim.identifier

variable {reserved : List String} {assignment : Assignment} {claim : Claim}

theorem settle_of_not_mem (free : claim.identifier ∉ assignment.taken) :
    assignment.settle reserved claim =
      ⟨claim.identifier :: assignment.taken, assignment.renamed⟩ :=
  if_neg (by simpa using free)

theorem settle_of_mem (isTaken : claim.identifier ∈ assignment.taken) :
    assignment.settle reserved claim =
      ⟨assignment.numberedFor reserved claim :: assignment.taken,
        Keyed.put Prod.fst (claim.name, assignment.numberedFor reserved claim)
          assignment.renamed⟩ :=
  if_pos (by simpa using isTaken)

theorem numberedFor_not_mem :
    assignment.numberedFor reserved claim ∉ reserved ++ assignment.taken :=
  freeNumber_not_mem (numberedIdentifier_injective claim.identifier)

/-- Settling a claim concerns no other name. -/
theorem lookup_settle_of_ne {name : DeclarationName} (different : name ≠ claim.name) :
    (assignment.settle reserved claim).renamed.lookup name = assignment.renamed.lookup name := by
  by_cases isTaken : claim.identifier ∈ assignment.taken
  · rw [settle_of_mem isTaken, Keyed.lookup_put, if_neg different]
  · rw [settle_of_not_mem isTaken]

theorem lookup_foldl_settle {claims : List Claim} {name : DeclarationName}
    (absent : name ∉ claims.map Claim.name) :
    (claims.foldl (settle reserved) assignment).renamed.lookup name =
      assignment.renamed.lookup name := by
  induction claims generalizing assignment with
  | nil => rfl
  | cons claim rest ih =>
      rw [List.map_cons, List.mem_cons, not_or] at absent
      rw [List.foldl_cons, ih absent.2, lookup_settle_of_ne absent.1]

/-- What holds once some claims are settled: each has an identifier of its own, and a
taken default identifier belongs to one of them. -/
structure HasSettled (assignment : Assignment) (reserved : List String) (done : List Claim) :
    Prop where
  taken_eq : assignment.taken = (done.map assignment.identifierOf).reverse
  distinct : assignment.taken.Nodup
  unlisted : ∀ name, name ∉ done.map Claim.name → assignment.renamed.lookup name = none
  defaultsTaken : ∀ claim ∈ done, claim.identifier ∈ assignment.taken
  claimed : ∀ identifier ∈ assignment.taken, identifier ∈ reserved →
    identifier ∈ done.map Claim.identifier

theorem hasSettled_nil (reserved : List String) : HasSettled ⟨[], []⟩ reserved [] where
  taken_eq := rfl
  distinct := List.nodup_nil
  unlisted := fun _ _ => rfl
  defaultsTaken := fun _ member => absurd member List.not_mem_nil
  claimed := fun _ member => absurd member List.not_mem_nil

/-- A free default identifier goes to its claimant. -/
theorem identifierOf_settle_of_not_mem {done : List Claim}
    (settled : assignment.HasSettled reserved done) (fresh : claim.name ∉ done.map Claim.name)
    (free : claim.identifier ∉ assignment.taken) :
    (assignment.settle reserved claim).identifierOf claim = claim.identifier := by
  rw [settle_of_not_mem free, identifierOf, settled.unlisted _ fresh, Option.getD_none]

theorem identifierOf_settle_of_mem (isTaken : claim.identifier ∈ assignment.taken) :
    (assignment.settle reserved claim).identifierOf claim =
      assignment.numberedFor reserved claim := by
  rw [settle_of_mem isTaken, identifierOf, Keyed.lookup_put, if_pos rfl, Option.getD_some]

/-- A claim takes an identifier that was not taken. -/
theorem taken_settle {done : List Claim} (settled : assignment.HasSettled reserved done)
    (fresh : claim.name ∉ done.map Claim.name) :
    (assignment.settle reserved claim).taken =
        (assignment.settle reserved claim).identifierOf claim :: assignment.taken ∧
      (assignment.settle reserved claim).identifierOf claim ∉ assignment.taken := by
  by_cases isTaken : claim.identifier ∈ assignment.taken
  · rw [identifierOf_settle_of_mem isTaken, settle_of_mem isTaken]
    exact ⟨rfl, fun member => numberedFor_not_mem (List.mem_append_right _ member)⟩
  · rw [identifierOf_settle_of_not_mem settled fresh isTaken, settle_of_not_mem isTaken]
    exact ⟨rfl, isTaken⟩

theorem default_mem_taken_settle {done : List Claim}
    (settled : assignment.HasSettled reserved done) (fresh : claim.name ∉ done.map Claim.name) :
    claim.identifier ∈ (assignment.settle reserved claim).taken := by
  rw [(taken_settle settled fresh).1]
  by_cases isTaken : claim.identifier ∈ assignment.taken
  · exact List.mem_cons_of_mem _ isTaken
  · rw [identifierOf_settle_of_not_mem settled fresh isTaken]
    exact List.mem_cons_self

theorem HasSettled.settle {done : List Claim} (settled : assignment.HasSettled reserved done)
    (fresh : claim.name ∉ done.map Claim.name) :
    (assignment.settle reserved claim).HasSettled reserved (done ++ [claim]) := by
  obtain ⟨takenEq, notTaken⟩ := @taken_settle reserved assignment claim done settled fresh
  have unchanged : done.map (assignment.settle reserved claim).identifierOf =
      done.map assignment.identifierOf := by
    refine List.map_congr_left fun other member => ?_
    have different : other.name ≠ claim.name := fun same =>
      fresh (same ▸ List.mem_map_of_mem member)
    rw [identifierOf, identifierOf, lookup_settle_of_ne different]
  refine ⟨?taken_eq, ?distinct, ?unlisted, ?defaultsTaken, ?claimed⟩
  case taken_eq =>
    rw [takenEq, List.map_append, unchanged, List.reverse_append, ← settled.taken_eq]
    rfl
  case distinct =>
    rw [takenEq]
    exact List.nodup_cons.mpr ⟨notTaken, settled.distinct⟩
  case unlisted =>
    intro name absent
    rw [List.map_append, List.mem_append, not_or] at absent
    have different : name ≠ claim.name := fun same => absent.2 (by simp [same])
    rw [lookup_settle_of_ne different]
    exact settled.unlisted name absent.1
  case defaultsTaken =>
    intro other member
    rcases List.mem_append.mp member with old | new
    · rw [takenEq]
      exact List.mem_cons_of_mem _ (settled.defaultsTaken other old)
    · rw [List.mem_singleton.mp new]
      exact default_mem_taken_settle settled fresh
  case claimed =>
    intro identifier member inReserved
    rw [takenEq, List.mem_cons] at member
    rw [List.map_append, List.mem_append]
    rcases member with isNew | old
    · right
      by_cases isTaken : claim.identifier ∈ assignment.taken
      · -- a numbered identifier is not reserved
        rw [identifierOf_settle_of_mem isTaken] at isNew
        subst isNew
        exact absurd (List.mem_append_left _ inReserved) numberedFor_not_mem
      · rw [identifierOf_settle_of_not_mem settled fresh isTaken] at isNew
        exact List.mem_singleton.mpr isNew
    · exact Or.inl (settled.claimed identifier old inReserved)

/-- Claims of different names are settled in any number. -/
theorem HasSettled.foldl {done claims : List Claim} (settled : assignment.HasSettled reserved done)
    (distinct : ((done ++ claims).map Claim.name).Nodup) :
    (claims.foldl (Assignment.settle reserved) assignment).HasSettled reserved
      (done ++ claims) := by
  induction claims generalizing assignment done with
  | nil => simpa using settled
  | cons claim rest ih =>
      have fresh : claim.name ∉ done.map Claim.name := by
        intro member
        rw [List.map_append, List.nodup_append] at distinct
        exact distinct.2.2 _ member _ List.mem_cons_self rfl
      have step := settled.settle fresh
      have regrouped : done ++ claim :: rest = (done ++ [claim]) ++ rest := by simp
      rw [regrouped] at distinct ⊢
      exact ih step distinct

end Assignment

end TypedClient.Disambiguation
