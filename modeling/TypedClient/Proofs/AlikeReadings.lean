import TypedClient.Json.Conversion
import Mathlib.Data.List.Forall2

/-!
# Readings of alike values

When is a part of a value free to change without the reading along a shape being affected? A
reading hands plain values on as they are, so readings of two values are compared by what
they hand on: they fail with the same fault, or their results agree but for plain values that
are alike. If one entry of a record is exchanged, it is enough to compare the two readings of
that entry.
-/

namespace TypedClient.Json

/-- Two attempts fail with the same error, or their results are alike. -/
inductive AttemptsAlike {ε α : Type} (alike : α → α → Prop) : Except ε α → Except ε α → Prop where
  | error (error : ε) : AttemptsAlike alike (.error error) (.error error)
  | ok {first second : α} (results : alike first second) :
      AttemptsAlike alike (.ok first) (.ok second)

namespace AttemptsAlike

variable {ε α β : Type} {alike : α → α → Prop} {alikeThen : β → β → Prop}
  {first second : Except ε α}

theorem refl (same : ∀ result, alike result result) (attempt : Except ε α) :
    AttemptsAlike alike attempt attempt := by
  cases attempt with
  | error error => exact .error error
  | ok result => exact .ok (same result)

theorem bind {firstThen secondThen : α → Except ε β} (attempts : AttemptsAlike alike first second)
    (continued : ∀ result other, alike result other →
      AttemptsAlike alikeThen (firstThen result) (secondThen other)) :
    AttemptsAlike alikeThen (first >>= firstThen) (second >>= secondThen) := by
  cases attempts with
  | error error => exact .error error
  | ok results => exact continued _ _ results

theorem map {firstThen secondThen : α → β} (attempts : AttemptsAlike alike first second)
    (continued : ∀ result other, alike result other →
      alikeThen (firstThen result) (secondThen other)) :
    AttemptsAlike alikeThen (first.map firstThen) (second.map secondThen) := by
  cases attempts with
  | error error => exact .error error
  | ok results => exact .ok (continued _ _ results)

theorem mapM {γ : Type} {related : γ → γ → Prop} {function : γ → Except ε β} {items others : List γ}
    (each : ∀ item other, related item other →
      AttemptsAlike alikeThen (function item) (function other))
    (pairs : List.Forall₂ related items others) :
    AttemptsAlike (List.Forall₂ alikeThen) (items.mapM function) (others.mapM function) := by
  induction pairs with
  | nil => exact .ok .nil
  | cons pair _ ih =>
      rw [List.mapM_cons, List.mapM_cons]
      refine (each _ _ pair).bind fun result other results => ?_
      exact ih.bind fun _ _ rest => .ok (.cons results rest)

theorem foldlM {γ : Type} {related : γ → γ → Prop} {step : α → γ → Except ε α}
    {items others : List γ} {start otherStart : α}
    (each : ∀ state otherState item other, alike state otherState → related item other →
      AttemptsAlike alike (step state item) (step otherState other))
    (starts : alike start otherStart) (pairs : List.Forall₂ related items others) :
    AttemptsAlike alike (items.foldlM step start) (others.foldlM step otherStart) := by
  induction pairs generalizing start otherStart with
  | nil => exact .ok starts
  | cons pair _ ih =>
      rw [List.foldlM_cons, List.foldlM_cons]
      exact (each _ _ _ _ starts pair).bind fun _ _ states => ih states

theorem eq (attempts : AttemptsAlike Eq first second) : first = second := by
  cases attempts with
  | error error => rfl
  | ok results => rw [results]

end AttemptsAlike

/-- Exchanging an item for one that is related to it. -/
theorem forall₂_exchange {α : Type} {related : α → α → Prop} (refl : ∀ item, related item item)
    {old new : α} (exchanged : related old new) (before after : List α) :
    List.Forall₂ related (before ++ old :: after) (before ++ new :: after) :=
  List.rel_append (List.forall₂_same.mpr fun item _ => refl item)
    (.cons exchanged (List.forall₂_same.mpr fun item _ => refl item))

/-- Two lists of entries have the same keys in the same order, with values that are alike as
values of their key. -/
def EntriesAlike {α : Type} (alike : String → α → α → Prop) :
    List (String × α) → List (String × α) → Prop :=
  List.Forall₂ fun entry other => entry.1 = other.1 ∧ alike entry.1 entry.2 other.2

namespace EntriesAlike

section ByKey

variable {α : Type} {alike : String → α → α → Prop} {entries others : List (String × α)}

theorem refl (same : ∀ key value, alike key value value) (entries : List (String × α)) :
    EntriesAlike alike entries entries :=
  List.forall₂_same.mpr fun entry _ => ⟨rfl, same entry.1 entry.2⟩

theorem exchange (same : ∀ key value, alike key value value) {key : String} {old new : α}
    (exchanged : alike key old new) (before after : List (String × α)) :
    EntriesAlike alike (before ++ (key, old) :: after) (before ++ (key, new) :: after) :=
  forall₂_exchange (fun entry => ⟨rfl, same entry.1 entry.2⟩) ⟨rfl, exchanged⟩ before after

theorem lookup (entriesAlike : EntriesAlike alike entries others) (key : String) :
    Option.Rel (alike key) (entries.lookup key) (others.lookup key) := by
  induction entriesAlike with
  | nil => exact .none
  | @cons entry other _ _ pair _ ih =>
      obtain ⟨name, value⟩ := entry
      obtain ⟨otherName, otherValue⟩ := other
      obtain ⟨rfl, values⟩ := pair
      by_cases found : key = name
      · simpa [found] using Option.Rel.some values
      · simpa [List.lookup_cons, beq_eq_false_iff_ne.mpr found] using ih

theorem map_fst (entriesAlike : EntriesAlike alike entries others) :
    entries.map Prod.fst = others.map Prod.fst := by
  induction entriesAlike with
  | nil => rfl
  | cons pair _ ih => rw [List.map_cons, List.map_cons, pair.1, ih]

end ByKey

/-- The value of the first entry whose key is wanted. -/
theorem find? {α : Type} {alike : α → α → Prop} {entries others : List (String × α)}
    (entriesAlike : EntriesAlike (fun _ => alike) entries others) (isWanted : String → Bool) :
    Option.Rel alike ((entries.find? fun entry => isWanted entry.1).map Prod.snd)
      ((others.find? fun entry => isWanted entry.1).map Prod.snd) := by
  induction entriesAlike with
  | nil => exact .none
  | @cons entry other _ _ pair _ ih =>
      obtain ⟨sameKey, values⟩ := pair
      cases wanted : isWanted entry.1 with
      | true => simpa [wanted, ← sameKey] using Option.Rel.some values
      | false => simpa [wanted, ← sameKey] using ih

end EntriesAlike

section Readings

-- which plain values are alike in the field with a key
variable (alike : String → Value → Value → Prop)

mutual

/-- Two readings of a field agree but for plain values that are alike. -/
def Shape.Alike (key : String) : (shape : Shape) → shape.Carrier → shape.Carrier → Prop
  | .value, old, new => alike key old new
  | .text, old, new => old = new
  | .flag, old, new => old = new
  | .optional inner, old, new => Option.Rel (inner.Alike key) old new
  | .list item, old, new => List.Forall₂ (item.Alike key) old new
  | .table item, old, new => EntriesAlike (fun _ => item.Alike key) old new
  | .record _ fields, old, new => fields.Alike old new

def Fields.Alike : (fields : Fields) → fields.Carrier → fields.Carrier → Prop
  | .none, _, _ => True
  | .field key shape _ others, (first, rest), (otherFirst, otherRest) =>
      shape.Alike key first otherFirst ∧ others.Alike rest otherRest

end

/-- Two records that are read as far agree but for plain values that are alike. -/
def Fields.SlotsAlike : (fields : Fields) → fields.Slots → fields.Slots → Prop
  | .none, _, _ => True
  | .field key shape _ others, (slot, rest), (otherSlot, otherRest) =>
      Option.Rel (shape.Alike alike key) slot otherSlot ∧ others.SlotsAlike rest otherRest

/-- The two readings of a field's value are alike. -/
def Shape.ReadsAlike (shape : Shape) (key : String) (old new : Value) : Prop :=
  AttemptsAlike (shape.Alike alike key) (shape.ofValue old) (shape.ofValue new)

/-- If the key is that of a field, the field reads the two values alike. -/
def Fields.ReadsAlike : Fields → String → Value → Value → Prop
  | .none, _, _, _ => True
  | .field name shape _ others, key, old, new =>
      if name = key then shape.ReadsAlike alike name old new else others.ReadsAlike key old new

/-- If there is a field with this number, it reads the two values alike. -/
def Fields.ReadsAlikeAt : Fields → Nat → Value → Value → Prop
  | .none, _, _, _ => True
  | .field name shape _ _, 0, old, new => shape.ReadsAlike alike name old new
  | .field _ _ _ others, index + 1, old, new => others.ReadsAlikeAt index old new

variable {alike}

/-- The keys of the fields of a record. -/
def Fields.keys : Fields → List String
  | .none => []
  | .field key _ _ others => key :: others.keys

/-- A key that is no field's is not read. -/
theorem Fields.readsAlike_of_not_mem {key : String} {old new : Value} :
    (fields : Fields) → key ∉ fields.keys → fields.ReadsAlike alike key old new
  | .none, _ => trivial
  | .field name _ _ others, noField => by
      have notFirst : name ≠ key := fun same => noField (same ▸ List.mem_cons_self)
      rw [Fields.ReadsAlike, if_neg notFirst]
      exact others.readsAlike_of_not_mem fun later => noField (List.mem_cons_of_mem _ later)

mutual

theorem Shape.alike_refl (refl : ∀ key value, alike key value value) (key : String) :
    (shape : Shape) → (result : shape.Carrier) → shape.Alike alike key result result
  | .value, value => refl key value
  | .text, _ => rfl
  | .flag, _ => rfl
  | .optional _, none => .none
  | .optional inner, some result => .some (inner.alike_refl refl key result)
  | .list item, _ => List.forall₂_same.mpr fun result _ => item.alike_refl refl key result
  | .table item, entries => EntriesAlike.refl (fun _ => item.alike_refl refl key) entries
  | .record _ fields, result => fields.alike_refl refl result

theorem Fields.alike_refl (refl : ∀ key value, alike key value value) :
    (fields : Fields) → (result : fields.Carrier) → fields.Alike alike result result
  | .none, _ => trivial
  | .field key shape _ others, (first, rest) =>
      ⟨shape.alike_refl refl key first, others.alike_refl refl rest⟩

end

theorem Fields.noSlots_alike :
    (fields : Fields) → fields.SlotsAlike alike fields.noSlots fields.noSlots
  | .none => trivial
  | .field _ _ _ others => ⟨.none, others.noSlots_alike⟩

theorem Fields.place_field {name key : String} {shape : Shape} {absence : Absence}
    {others : Fields} (slot : Option shape.Carrier) (rest : others.Slots) (value : Value) :
    (Fields.field name shape absence others).place (slot, rest) key value =
      if name == key then (shape.ofValue value).map fun read => (some read, rest)
      else (others.place rest key value).map fun placed => (slot, placed) :=
  rfl

theorem Fields.place_alike {key : String} {old new : Value} :
    (fields : Fields) → (slots otherSlots : fields.Slots) →
      fields.SlotsAlike alike slots otherSlots → fields.ReadsAlike alike key old new →
      AttemptsAlike (fields.SlotsAlike alike) (fields.place slots key old)
        (fields.place otherSlots key new)
  | .none, _, _, _, _ => .ok trivial
  | .field name shape _ others, (slot, rest), (otherSlot, otherRest), ⟨slots, rests⟩, reads => by
      rw [Fields.ReadsAlike] at reads
      rw [Fields.place_field, Fields.place_field]
      by_cases named : name = key
      · rw [if_pos named] at reads
        rw [if_pos (beq_iff_eq.mpr named), if_pos (beq_iff_eq.mpr named)]
        exact reads.map fun _ _ results => ⟨.some results, rests⟩
      · rw [if_neg named] at reads
        rw [if_neg (mt beq_iff_eq.mp named), if_neg (mt beq_iff_eq.mp named)]
        exact (others.place_alike rest otherRest rests reads).map fun _ _ placed =>
          ⟨slots, placed⟩

theorem Fields.close_alike (refl : ∀ key value, alike key value value) :
    (fields : Fields) → (slots otherSlots : fields.Slots) →
      fields.SlotsAlike alike slots otherSlots →
      AttemptsAlike (fields.Alike alike) (fields.close slots) (fields.close otherSlots)
  | .none, _, _, _ => .ok trivial
  | .field key shape absence others, (slot, rest), (otherSlot, otherRest), ⟨slots, rests⟩ => by
      have following := others.close_alike refl rest otherRest rests
      have closed : ∀ first otherFirst : shape.Carrier, shape.Alike alike key first otherFirst →
          AttemptsAlike ((Fields.field key shape absence others).Alike alike)
            (others.close rest >>= fun following => .ok (first, following))
            (others.close otherRest >>= fun following => .ok (otherFirst, following)) :=
        fun _ _ first => following.bind fun _ _ following => .ok ⟨first, following⟩
      cases slots with
      | some first => exact closed _ _ first
      | none =>
          -- an absent field is absent in both records
          cases absence with
          | refused => exact .error (Fault.missingField key)
          | refusedInSequence | blank => exact closed _ _ (shape.alike_refl refl key shape.blank)

/-- Two lists of fields that are taken from the front of a sequence, with what is left of it. -/
def Fields.TakenAlike (alike : String → Value → Value → Prop) (fields : Fields)
    (taken other : fields.Carrier × List Value) : Prop :=
  fields.Alike alike taken.1 other.1 ∧ taken.2.length = other.2.length

theorem Fields.ofItems_alike (refl : ∀ key value, alike key value value) {old new : Value}
    (expected : String) (after : List Value) :
    (fields : Fields) → (index : Nat) → (before : List Value) →
      fields.ReadsAlikeAt alike before.length old new →
      AttemptsAlike (fields.TakenAlike alike)
        (fields.ofItems expected index (before ++ old :: after))
        (fields.ofItems expected index (before ++ new :: after))
  | .none, _, before, _ => .ok ⟨trivial, by simp⟩
  | .field _ _ _ others, index, [], reads => by
      have same : ∀ taken, others.TakenAlike alike taken taken :=
        fun taken => ⟨others.alike_refl refl taken.1, rfl⟩
      have following := AttemptsAlike.refl same (others.ofItems expected (index + 1) after)
      exact reads.bind fun _ _ first => following.bind fun _ _ taken =>
        .ok ⟨⟨first, taken.1⟩, taken.2⟩
  | .field key shape _ others, index, item :: before, reads => by
      have first := AttemptsAlike.refl (shape.alike_refl refl key) (shape.ofValue item)
      have following := others.ofItems_alike refl expected after (index + 1) before reads
      exact first.bind fun _ _ first => following.bind fun _ _ taken =>
        .ok ⟨⟨first, taken.1⟩, taken.2⟩

section Records

variable (refl : ∀ key value, alike key value value) {fields : Fields} {key : String}
  {old new : Value}

include refl

theorem Fields.readsAlike_refl (key : String) (value : Value) :
    (fields : Fields) → fields.ReadsAlike alike key value value
  | .none => trivial
  | .field name shape _ others => by
      rw [Fields.ReadsAlike]
      by_cases named : name = key
      · rw [if_pos named]
        exact .refl (shape.alike_refl refl name) _
      · rw [if_neg named]
        exact others.readsAlike_refl key value

/-- Exchanging the value of a key in a record that is written as a mapping. -/
theorem Shape.ofValue_mapping_alike (reads : fields.ReadsAlike alike key old new) (title : String)
    (before after : List (String × Value)) :
    AttemptsAlike (fields.Alike alike)
      ((Shape.record title fields).ofValue (.mapping (before ++ (key, old) :: after)))
      ((Shape.record title fields).ofValue (.mapping (before ++ (key, new) :: after))) := by
  have pairs : EntriesAlike (fields.ReadsAlike alike) (before ++ (key, old) :: after)
      (before ++ (key, new) :: after) :=
    .exchange (fun key value => fields.readsAlike_refl refl key value) reads before after
  have places : ∀ (slots otherSlots : fields.Slots) (entry other : String × Value),
      fields.SlotsAlike alike slots otherSlots →
      entry.1 = other.1 ∧ fields.ReadsAlike alike entry.1 entry.2 other.2 →
      AttemptsAlike (fields.SlotsAlike alike) (fields.place slots entry.1 entry.2)
        (fields.place otherSlots other.1 other.2) := by
    rintro slots otherSlots entry other slotsAlike ⟨sameKey, readsEntry⟩
    rw [← sameKey]
    exact fields.place_alike slots otherSlots slotsAlike readsEntry
  exact (AttemptsAlike.foldlM places fields.noSlots_alike pairs).bind fun slots otherSlots =>
    fields.close_alike refl slots otherSlots

/-- Exchanging an item in a record that is written as a sequence. -/
theorem Shape.ofValue_sequence_alike (before after : List Value)
    (reads : fields.ReadsAlikeAt alike before.length old new) (title : String) :
    AttemptsAlike (fields.Alike alike)
      ((Shape.record title fields).ofValue (.sequence (before ++ old :: after)))
      ((Shape.record title fields).ofValue (.sequence (before ++ new :: after))) := by
  have sameLength : (before ++ old :: after).length = (before ++ new :: after).length := by simp
  refine (fields.ofItems_alike refl _ after 0 before reads).bind fun taken other results => ?_
  have sameLeft : taken.2.isEmpty = other.2.isEmpty := by
    rw [Bool.eq_iff_iff, List.isEmpty_iff_length_eq_zero, List.isEmpty_iff_length_eq_zero,
      results.2]
  have sameExcess : refuseExcess (before ++ old :: after) taken.2 =
      refuseExcess (before ++ new :: after) other.2 := by
    rw [refuseExcess, refuseExcess, sameLength, sameLeft]
  refine AttemptsAlike.bind (?_ : AttemptsAlike Eq _ _) fun _ _ _ => .ok results.1
  rw [sameExcess]
  exact .refl (fun _ => rfl) _

end Records

end Readings

end TypedClient.Json
