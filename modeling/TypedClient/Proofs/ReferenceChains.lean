import TypedClient.Document.Lowering

/-!
# Chains of references

A reference leads to an entry of the pool, which can be a reference itself. From a value
there is one way along references. It ends at an entry or at a pointer that leads nowhere,
or it never ends. Following looks at as many values of the way as there may be hops, so it
misses an end that is just as many hops away.
-/

namespace TypedClient.Document

open Json

section Chains

variable {area : ComponentSection} {pool : List (String × Value)} {value next last : Value}
  {count looks : Nat} {result : Except OperationIssue Value}

/-- A value is a reference to an entry of the pool. -/
def HopsTo (area : ComponentSection) (pool : List (String × Value)) (value target : Value) :
    Prop :=
  ∃ pointer name, reference? value = some pointer ∧ componentName? area pointer = some name ∧
    pool.lookup name = some target

/-- What there is at the end of the references: an entry that is none, or a pointer that
leads nowhere. -/
inductive EndsWith (area : ComponentSection) (pool : List (String × Value)) (value : Value) :
    Except OperationIssue Value → Prop where
  | entry (noReference : reference? value = none) : EndsWith area pool value (.ok value)
  | foreign {pointer : String} (isReference : reference? value = some pointer)
      (noName : componentName? area pointer = none) :
      EndsWith area pool value (.error (.foreignReference pointer area))
  | dangling {pointer name : String} (isReference : reference? value = some pointer)
      (named : componentName? area pointer = some name) (absent : pool.lookup name = none) :
      EndsWith area pool value (.error (.danglingReference pointer))

/-- A number of hops lead from one value to another. -/
inductive Hops (area : ComponentSection) (pool : List (String × Value)) :
    Nat → Value → Value → Prop where
  | here (value : Value) : Hops area pool 0 value value
  | hop {count : Nat} {value next last : Value} (first : HopsTo area pool value next)
      (rest : Hops area pool count next last) : Hops area pool (count + 1) value last

theorem endsWith_or_hopsTo (area : ComponentSection) (pool : List (String × Value))
    (value : Value) :
    (∃ result, EndsWith area pool value result) ∨ ∃ next, HopsTo area pool value next := by
  cases isReference : reference? value with
  | none => exact Or.inl ⟨_, .entry isReference⟩
  | some pointer =>
      cases named : componentName? area pointer with
      | none => exact Or.inl ⟨_, .foreign isReference named⟩
      | some name =>
          cases found : pool.lookup name with
          | none => exact Or.inl ⟨_, .dangling isReference named found⟩
          | some next => exact Or.inr ⟨next, pointer, name, isReference, named, found⟩

theorem followFrom_of_endsWith (ends : EndsWith area pool value result) (looks : Nat) :
    followFrom area pool (looks + 1) value = result := by
  cases ends with
  | entry noReference => simp only [followFrom, noReference]
  | foreign isReference noName => simp only [followFrom, isReference, noName]
  | dangling isReference named absent => simp only [followFrom, isReference, named, absent]

theorem followFrom_of_hopsTo (hops : HopsTo area pool value next) (looks : Nat) :
    followFrom area pool (looks + 1) value = followFrom area pool looks next := by
  obtain ⟨pointer, name, isReference, named, found⟩ := hops
  simp only [followFrom, isReference, named, found]

/-- The end is found if there is a look left for it. -/
theorem followFrom_eq_of_hops (hops : Hops area pool count value last)
    (ends : EndsWith area pool last result) (within : count < looks) :
    followFrom area pool looks value = result := by
  induction hops generalizing looks with
  | here value =>
      obtain ⟨looks, rfl⟩ := Nat.exists_eq_add_of_lt within
      exact followFrom_of_endsWith ends _
  | hop first _ ih =>
      cases looks with
      | zero => exact absurd within (Nat.not_lt_zero _)
      | succ looks =>
          rw [followFrom_of_hopsTo first]
          exact ih ends (Nat.lt_of_succ_lt_succ within)

theorem followFrom_eq_chainTooLong (hops : Hops area pool looks value last) :
    followFrom area pool looks value = .error .chainTooLong := by
  induction hops with
  | here value => rfl
  | hop first _ ih => rw [followFrom_of_hopsTo first, ih]

theorem exists_endsWith_or_hops (area : ComponentSection) (pool : List (String × Value))
    (looks : Nat) (value : Value) :
    (∃ result, ∃ count < looks, ∃ last, Hops area pool count value last ∧
      EndsWith area pool last result) ∨ ∃ last, Hops area pool looks value last := by
  induction looks generalizing value with
  | zero => exact Or.inr ⟨value, .here value⟩
  | succ looks ih =>
      rcases endsWith_or_hopsTo area pool value with ⟨result, ends⟩ | ⟨next, first⟩
      · exact Or.inl ⟨result, 0, Nat.succ_pos looks, value, .here value, ends⟩
      · rcases ih next with ⟨result, count, within, last, hops, ends⟩ | ⟨last, hops⟩
        · exact Or.inl ⟨result, count + 1, Nat.succ_lt_succ within, last, .hop first hops, ends⟩
        · exact Or.inr ⟨last, .hop first hops⟩

/-- What following comes to: the end, if it is fewer hops away than there are looks. -/
theorem followFrom_eq_iff :
    followFrom area pool looks value = result ↔
      (∃ count < looks, ∃ last, Hops area pool count value last ∧
        EndsWith area pool last result) ∨
      (result = .error .chainTooLong ∧ ∃ last, Hops area pool looks value last) := by
  constructor
  · rintro rfl
    rcases exists_endsWith_or_hops area pool looks value with
      ⟨result, count, within, last, hops, ends⟩ | ⟨last, hops⟩
    · rw [followFrom_eq_of_hops hops ends within]
      exact Or.inl ⟨count, within, last, hops, ends⟩
    · exact Or.inr ⟨followFrom_eq_chainTooLong hops, last, hops⟩
  · rintro (⟨count, within, last, hops, ends⟩ | ⟨rfl, last, hops⟩)
    · exact followFrom_eq_of_hops hops ends within
    · exact followFrom_eq_chainTooLong hops

namespace Hops

variable {more period : Nat} {node : Value}

theorem trans (hops : Hops area pool count value node) (others : Hops area pool more node last) :
    Hops area pool (more + count) value last := by
  induction hops with
  | here value => exact others
  | hop first _ ih => exact .hop first (ih others)

/-- On the way of many hops there is a value for every smaller number of them. -/
theorem exists_of_le (hops : Hops area pool count value last) (fewer : more ≤ count) :
    ∃ node, Hops area pool more value node := by
  induction hops generalizing more with
  | here value => exact ⟨value, Nat.le_zero.mp fewer ▸ .here value⟩
  | @hop count value next last first _ ih =>
      cases more with
      | zero => exact ⟨value, .here value⟩
      | succ more =>
          obtain ⟨node, rest⟩ := ih (Nat.le_of_succ_le_succ fewer)
          exact ⟨node, .hop first rest⟩

theorem exists_of_circle (hops : Hops area pool count value node)
    (circle : Hops area pool (period + 1) node node) (more : Nat) :
    ∃ last, Hops area pool more value last := by
  have rounds : ∀ number, Hops area pool ((period + 1) * number) node node := by
    intro number
    induction number with
    | zero => exact .here node
    | succ number ih => exact circle.trans ih
  have enough : more ≤ (period + 1) * more + count :=
    Nat.le_add_right_of_le (Nat.le_mul_of_pos_left more (Nat.succ_pos period))
  exact (hops.trans (rounds more)).exists_of_le enough

end Hops

end Chains

/-- Following finds exactly the ends that are fewer hops away than the limit. A chain of as
many hops as the limit counts as too long even if it ends there, and so does every chain that
runs into a circle. -/
theorem follow_spec (area : ComponentSection) (pool : List (String × Value)) (value : Value) :
    (∀ result, follow area pool value = result ↔
      (∃ count < maxReferenceHops, ∃ last, Hops area pool count value last ∧
        EndsWith area pool last result) ∨
      (result = .error .chainTooLong ∧ ∃ last, Hops area pool maxReferenceHops value last)) ∧
    ∀ count period node, Hops area pool count value node →
      Hops area pool (period + 1) node node → follow area pool value = .error .chainTooLong := by
  refine ⟨fun _ => followFrom_eq_iff, fun count period node hops circle => ?_⟩
  obtain ⟨last, long⟩ := hops.exists_of_circle circle maxReferenceHops
  exact followFrom_eq_chainTooLong long

def referenceTo (name : String) : Value :=
  .mapping [("$ref", .text ("#/components/parameters/" ++ name))]

/-- Two parameters that refer to each other. -/
def circlePool : List (String × Value) :=
  [("Ping", referenceTo "Pong"), ("Pong", referenceTo "Ping")]

theorem follow_spec_circlePool :
    Hops .parameters circlePool 1 (referenceTo "Ping") (referenceTo "Pong") ∧
      Hops .parameters circlePool 2 (referenceTo "Pong") (referenceTo "Pong") ∧
      follow .parameters circlePool (referenceTo "Ping") = .error .chainTooLong := by
  have ping : HopsTo .parameters circlePool (referenceTo "Ping") (referenceTo "Pong") :=
    ⟨"#/components/parameters/Ping", "Ping", rfl, rfl, rfl⟩
  have pong : HopsTo .parameters circlePool (referenceTo "Pong") (referenceTo "Ping") :=
    ⟨"#/components/parameters/Pong", "Pong", rfl, rfl, rfl⟩
  have toPong : Hops .parameters circlePool 1 (referenceTo "Ping") (referenceTo "Pong") :=
    .hop ping (.here _)
  have around : Hops .parameters circlePool 2 (referenceTo "Pong") (referenceTo "Pong") :=
    .hop pong toPong
  exact ⟨toPong, around, (follow_spec _ _ _).2 1 1 _ toPong around⟩

/-- Parameters of which each refers to the next one, and a last one that is no reference. From
a reference to the first, it takes as many hops to the last as the limit allows. -/
def chainPool : List (String × Value) :=
  ((List.range 15).map fun number =>
    (toString number, referenceTo (toString (number + 1)))) ++ [("15", .mapping [])]

theorem not_found_within_maxReferenceHops :
    ¬ ∀ (area : ComponentSection) (pool : List (String × Value)) (value target : Value),
      ∀ count ≤ maxReferenceHops, Hops area pool count value target →
        reference? target = none → follow area pool value = .ok target := by
  intro found
  have withOneMoreLook : followFrom .parameters chainPool (maxReferenceHops + 1)
      (referenceTo "0") = .ok (.mapping []) := rfl
  have tooLong : follow .parameters chainPool (referenceTo "0") = .error .chainTooLong := rfl
  rcases followFrom_eq_iff.mp withOneMoreLook with ⟨count, within, last, hops, ends⟩ | ⟨no, -⟩
  · cases ends with
    | entry noReference =>
        have reached := found _ _ _ _ count (Nat.le_of_lt_succ within) hops noReference
        cases tooLong.symm.trans reached
  · cases no

end TypedClient.Document
