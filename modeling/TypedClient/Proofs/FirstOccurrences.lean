import Mathlib.Algebra.Ring.Nat
import Mathlib.Data.List.Induction
import Mathlib.Data.List.Nodup

/-!
# First and repeated items

A list of items with keys falls apart into the items whose key comes for the first
time and those that repeat the key of an earlier one. The first items have all the
keys, each once. Where keys are distinct, an item is found once by its key.
-/

namespace TypedClient

section Marks

variable {α β κ : Type} [DecidableEq κ] {key : α → κ} {seen : List κ} {items : List α}

/-- Every item, with the mark whether its key is a seen one or that of an earlier
item. -/
def marks (key : α → κ) (seen : List κ) : List α → List (α × Bool)
  | [] => []
  | item :: rest => (item, decide (key item ∈ seen)) :: marks key (key item :: seen) rest

def firstsFrom (key : α → κ) (seen : List κ) (items : List α) : List α :=
  ((marks key seen items).filter fun marked => !marked.2).map Prod.fst

/-- The items whose key comes for the first time. -/
def firsts (key : α → κ) (items : List α) : List α :=
  firstsFrom key [] items

def repeatsFrom (key : α → κ) (seen : List κ) (items : List α) : List α :=
  ((marks key seen items).filter Prod.snd).map Prod.fst

/-- The items whose key is that of an earlier item. -/
def repeats (key : α → κ) (items : List α) : List α :=
  repeatsFrom key [] items

theorem map_fst_marks : (marks key seen items).map Prod.fst = items := by
  induction items generalizing seen with
  | nil => rfl
  | cons item rest ih => exact congrArg (item :: ·) ih

/-- Of the seen keys only those of the items matter. -/
theorem marks_congr_of_mem {others : List κ}
    (sameKeys : ∀ name ∈ items.map key, name ∈ seen ↔ name ∈ others) :
    marks key seen items = marks key others items := by
  induction items generalizing seen others with
  | nil => rfl
  | cons item rest ih =>
      rw [List.map_cons, List.forall_mem_cons] at sameKeys
      have sameNext : ∀ name ∈ rest.map key, name ∈ key item :: seen ↔ name ∈ key item :: others :=
        fun name member => by simp only [List.mem_cons, sameKeys.2 name member]
      simp only [marks, sameKeys.1, ih sameNext]

/-- The order and the number of the seen keys do not matter. -/
theorem marks_congr {others : List κ} (sameKeys : ∀ name, name ∈ seen ↔ name ∈ others) :
    marks key seen items = marks key others items :=
  marks_congr_of_mem fun name _ => sameKeys name

theorem marks_cons_of_mem {name : κ} (member : name ∈ seen) :
    marks key (name :: seen) items = marks key seen items :=
  marks_congr fun other => by simpa using fun same => same ▸ member

theorem marks_append {others : List α} :
    marks key seen (items ++ others) =
      marks key seen items ++ marks key ((items.map key).reverse ++ seen) others := by
  induction items generalizing seen with
  | nil => rfl
  | cons item rest ih => simp [marks, ih]

theorem firstsFrom_congr {others : List κ} (sameKeys : ∀ name, name ∈ seen ↔ name ∈ others) :
    firstsFrom key seen items = firstsFrom key others items := by
  rw [firstsFrom, firstsFrom, marks_congr sameKeys]

theorem firsts_append {others : List α} :
    firsts key (items ++ others) = firsts key items ++ firstsFrom key (items.map key) others := by
  have sameKeys : marks key ((items.map key).reverse ++ []) others =
      marks key (items.map key) others := marks_congr fun name => by simp
  simp only [firsts, firstsFrom, marks_append, sameKeys, List.filter_append, List.map_append]

theorem firstsFrom_cons {item : α} :
    firstsFrom key seen (item :: items) =
      if key item ∈ seen then firstsFrom key (key item :: seen) items
      else item :: firstsFrom key (key item :: seen) items := by
  by_cases known : key item ∈ seen <;> simp [firstsFrom, marks, known]

theorem repeatsFrom_cons {item : α} :
    repeatsFrom key seen (item :: items) =
      if key item ∈ seen then item :: repeatsFrom key (key item :: seen) items
      else repeatsFrom key (key item :: seen) items := by
  by_cases known : key item ∈ seen <;> simp [repeatsFrom, marks, known]

theorem firsts_concat {item : α} :
    firsts key (items ++ [item]) =
      if key item ∈ items.map key then firsts key items else firsts key items ++ [item] := by
  by_cases known : key item ∈ items.map key <;>
    simp [firsts, firstsFrom, marks_append, marks, known]

theorem repeats_concat {item : α} :
    repeats key (items ++ [item]) =
      if key item ∈ items.map key then repeats key items ++ [item] else repeats key items := by
  by_cases known : key item ∈ items.map key <;>
    simp [repeats, repeatsFrom, marks_append, marks, known]

/-- Every item is a first one or a repeated one. -/
theorem firsts_append_repeats_perm : (firsts key items ++ repeats key items).Perm items := by
  have parts := (List.filter_append_perm (fun marked => !marked.2) (marks key [] items)).map
    Prod.fst
  rw [List.map_append, map_fst_marks] at parts
  simpa [firsts, firstsFrom, repeats, repeatsFrom] using parts

theorem length_firsts_add_length_repeats :
    (firsts key items).length + (repeats key items).length = items.length := by
  rw [← List.length_append, firsts_append_repeats_perm.length_eq]

/-- Items whose keys are distinct and not yet seen do not repeat a key. -/
theorem marks_of_distinct (distinct : (items.map key).Nodup)
    (fresh : ∀ item ∈ items, key item ∉ seen) :
    marks key seen items = items.map fun item => (item, false) := by
  induction items generalizing seen with
  | nil => rfl
  | cons item rest ih =>
      rw [List.map_cons, List.nodup_cons] at distinct
      rw [List.forall_mem_cons] at fresh
      have freshRest : ∀ other ∈ rest, key other ∉ key item :: seen := by
        intro other member isSeen
        rcases List.mem_cons.mp isSeen with same | old
        · exact distinct.1 (same ▸ List.mem_map_of_mem member)
        · exact fresh.2 other member old
      rw [marks, ih distinct.2 freshRest, List.map_cons]
      simp only [fresh.1, decide_false]

theorem firsts_of_distinct (distinct : (items.map key).Nodup) : firsts key items = items := by
  rw [firsts, firstsFrom, marks_of_distinct distinct fun _ _ => List.not_mem_nil]
  simp [List.filter_map, Function.comp_def]

/-- Items with keys of their own stand before others without a change to these. -/
theorem marks_append_of_apart {others : List α} (distinct : (items.map key).Nodup)
    (apart : ∀ item ∈ items, ∀ other ∈ others, key item ≠ key other) :
    marks key [] (items ++ others) =
      (items.map fun item => (item, false)) ++ marks key [] others := by
  rw [marks_append, marks_of_distinct distinct fun _ _ => List.not_mem_nil]
  refine congrArg _ (marks_congr_of_mem fun name member => ?_)
  obtain ⟨other, otherMem, rfl⟩ := List.mem_map.mp member
  rw [List.append_nil, List.mem_reverse, List.mem_map]
  refine iff_of_false ?_ List.not_mem_nil
  rintro ⟨item, itemMem, same⟩
  exact apart item itemMem other otherMem same

theorem firsts_append_of_apart {others : List α} (distinct : (items.map key).Nodup)
    (apart : ∀ item ∈ items, ∀ other ∈ others, key item ≠ key other) :
    firsts key (items ++ others) = items ++ firsts key others := by
  rw [firsts, firstsFrom, marks_append_of_apart distinct apart, List.filter_append,
    List.map_append, List.filter_map]
  simp [firsts, firstsFrom, Function.comp_def]

theorem repeats_append_of_apart {others : List α} (distinct : (items.map key).Nodup)
    (apart : ∀ item ∈ items, ∀ other ∈ others, key item ≠ key other) :
    repeats key (items ++ others) = repeats key others := by
  rw [repeats, repeatsFrom, marks_append_of_apart distinct apart, List.filter_append,
    List.map_append, List.filter_map]
  simp [repeats, repeatsFrom, Function.comp_def]

/-- The first items of lists that go together by their keys go together. -/
theorem forall₂_firstsFrom {related : α → β → Prop} {otherKey : β → κ} {others : List β}
    (sameKey : ∀ item other, related item other → key item = otherKey other)
    (pairs : List.Forall₂ related items others) :
    List.Forall₂ related (firstsFrom key seen items) (firstsFrom otherKey seen others) := by
  induction pairs generalizing seen with
  | nil => exact .nil
  | cons pair _ ih =>
      rw [firstsFrom_cons, firstsFrom_cons, ← sameKey _ _ pair]
      split
      · exact ih
      · exact .cons pair ih

theorem mem_of_mem_firstsFrom {item : α} (member : item ∈ firstsFrom key seen items) :
    item ∈ items := by
  obtain ⟨marked, markedMem, rfl⟩ := List.mem_map.mp member
  have inItems := List.mem_map_of_mem (f := Prod.fst) (List.mem_of_mem_filter markedMem)
  rwa [map_fst_marks] at inItems

theorem mem_map_firstsFrom {name : κ} :
    name ∈ (firstsFrom key seen items).map key ↔ name ∈ items.map key ∧ name ∉ seen := by
  induction items generalizing seen with
  | nil => simp [firstsFrom, marks]
  | cons item rest ih =>
      rw [firstsFrom_cons, List.map_cons, List.mem_cons]
      by_cases isKey : name = key item
      · subst isKey
        by_cases known : key item ∈ seen <;> simp [known, ih]
      · by_cases known : key item ∈ seen <;> simp [known, ih, isKey]

/-- No key is lost with the repeated items. -/
theorem mem_map_firsts {name : κ} : name ∈ (firsts key items).map key ↔ name ∈ items.map key := by
  rw [firsts, mem_map_firstsFrom, and_iff_left List.not_mem_nil]

theorem nodup_map_firstsFrom : ((firstsFrom key seen items).map key).Nodup := by
  induction items generalizing seen with
  | nil => exact List.nodup_nil
  | cons item rest ih =>
      rw [firstsFrom_cons]
      split
      · exact ih
      · rw [List.map_cons, List.nodup_cons, mem_map_firstsFrom]
        exact ⟨fun member => member.2 List.mem_cons_self, ih⟩

theorem nodup_map_firsts : ((firsts key items).map key).Nodup :=
  nodup_map_firstsFrom

theorem firstsFrom_replicate {item : α} (copies : Nat) :
    firstsFrom key seen (List.replicate (copies + 1) item ++ items) =
      firstsFrom key seen (item :: items) := by
  induction copies with
  | zero => rfl
  | succ copies ih =>
      -- the second copy repeats the key of the first
      rw [← ih, List.replicate_succ, List.replicate_succ, List.cons_append, List.cons_append]
      simp only [firstsFrom_cons, List.mem_cons_self, if_true]
      rw [firstsFrom, marks_cons_of_mem List.mem_cons_self]
      rfl

/-- Copies that stand next to each other count as one item. -/
theorem firstsFrom_flatMap {copies : α → List α}
    (areCopies : ∀ item, ∀ other ∈ copies item, other = item) :
    firstsFrom key seen (items.flatMap copies) =
      firstsFrom key seen (items.filter fun item => !(copies item).isEmpty) := by
  induction items generalizing seen with
  | nil => rfl
  | cons item rest ih =>
      have replicated : copies item = List.replicate (copies item).length item :=
        List.eq_replicate_of_mem (areCopies item)
      rw [List.flatMap_cons, List.filter_cons]
      cases number : (copies item).length with
      | zero =>
          rw [List.length_eq_zero_iff.mp number]
          exact ih
      | succ number =>
          have notEmpty : (copies item).isEmpty = false := by
            rw [List.isEmpty_eq_false_iff_exists_mem, replicated, number]
            exact ⟨item, List.mem_cons_self⟩
          rw [notEmpty, replicated, number, firstsFrom_replicate]
          simp only [Bool.not_false, if_true, firstsFrom_cons, ih]

variable {rank : α → Nat}

/-- Whether a list has an item of the same key and a lower rank. -/
def hasLower (key : α → κ) (rank : α → Nat) (items : List α) (item : α) : Bool :=
  items.any fun earlier => decide (rank earlier < rank item) && decide (key earlier = key item)

/-- Where items of one key come in the order of a rank, an item repeats a key exactly
if there is an item of the same key and a lower rank. -/
theorem marks_eq_map
    (ordered : items.Pairwise fun first second =>
      key first = key second → rank first < rank second) :
    marks key seen items = items.map fun item =>
      (item, decide (key item ∈ seen) || hasLower key rank items item) := by
  induction items generalizing seen with
  | nil => rfl
  | cons first rest ih =>
      obtain ⟨firstLower, restOrdered⟩ := List.pairwise_cons.mp ordered
      rw [marks, ih restOrdered, List.map_cons]
      congr 1
      · have noLower : hasLower key rank (first :: rest) first = false := by
          simp only [hasLower, List.any_eq_false, Bool.and_eq_true, decide_eq_true_eq, not_and]
          intro later member lower same
          rcases List.mem_cons.mp member with rfl | isLater
          · exact Nat.lt_irrefl _ lower
          · exact absurd (firstLower later isLater same.symm) (Nat.lt_asymm lower)
        rw [noLower, Bool.or_false]
      · refine List.map_congr_left fun item member => ?_
        have byFirst : (rank first < rank item ∧ key first = key item) ↔ key item = key first :=
          ⟨fun both => both.2.symm, fun same => ⟨firstLower item member same.symm, same.symm⟩⟩
        simp [hasLower, byFirst, Bool.decide_or, ← Bool.decide_and, Bool.or_assoc,
          Bool.or_left_comm]

theorem firsts_eq_filter
    (ordered : items.Pairwise fun first second =>
      key first = key second → rank first < rank second) :
    firsts key items = items.filter fun item => !hasLower key rank items item := by
  simp [firsts, firstsFrom, marks_eq_map ordered, List.filter_map, Function.comp_def]

theorem repeats_eq_filter
    (ordered : items.Pairwise fun first second =>
      key first = key second → rank first < rank second) :
    repeats key items = items.filter fun item => hasLower key rank items item := by
  simp [repeats, repeatsFrom, marks_eq_map ordered, List.filter_map, Function.comp_def]

end Marks

/-- Erasing duplicates leaves the first items. -/
theorem eraseDups_eq_firsts {α : Type} [DecidableEq α] (items : List α) :
    items.eraseDups = firsts id items := by
  induction items using List.reverseRecOn with
  | nil => rfl
  | append_singleton earlier item ih =>
      rw [List.eraseDups_append, firsts_concat, ih, List.map_id]
      by_cases known : item ∈ earlier <;> simp [List.removeAll, known, List.eraseDups_cons]

theorem nodup_eraseDups {α : Type} [DecidableEq α] (items : List α) : items.eraseDups.Nodup := by
  have distinct : ((firsts id items).map id).Nodup := nodup_map_firsts
  rwa [List.map_id, ← eraseDups_eq_firsts] at distinct

section Counting

variable {α κ : Type}

/-- Where all items are apart, the one that has a property of its own is found once. -/
theorem filter_eq_singleton {apart : α → α → Prop} {property : α → Bool} {items : List α} {item : α}
    (allApart : items.Pairwise apart) (member : item ∈ items) (holds : property item = true)
    (unique : ∀ other ∈ items, property other = true → ¬ apart item other ∧ ¬ apart other item) :
    items.filter property = [item] := by
  induction items with
  | nil => exact absurd member List.not_mem_nil
  | cons first rest ih =>
      obtain ⟨firstApart, restApart⟩ := List.pairwise_cons.mp allApart
      have uniqueRest := fun other otherMem => unique other (List.mem_cons_of_mem first otherMem)
      rcases List.mem_cons.mp member with rfl | later
      · have noneLater : rest.filter property = [] :=
          List.filter_eq_nil_iff.mpr fun other otherMem otherHolds =>
            (uniqueRest other otherMem otherHolds).1 (firstApart other otherMem)
        rw [List.filter_cons_of_pos holds, noneLater]
      · have notFirst : ¬ property first = true := fun firstHolds =>
          (unique first List.mem_cons_self firstHolds).2 (firstApart item later)
        rw [List.filter_cons_of_neg notFirst, ih restApart later uniqueRest]

/-- Items are counted by their keys. -/
theorem sum_length_filter [DecidableEq κ] {key : α → κ} {keys : List κ} (distinct : keys.Nodup)
    {items : List α} (covered : ∀ item ∈ items, key item ∈ keys) :
    (keys.map fun name => (items.filter fun item => key item = name).length).sum =
      items.length := by
  induction keys generalizing items with
  | nil =>
      have empty : items = [] :=
        List.eq_nil_iff_forall_not_mem.mpr fun item member => List.not_mem_nil (covered item member)
      rw [empty]
      rfl
  | cons name rest ih =>
      obtain ⟨nameFresh, restDistinct⟩ := List.nodup_cons.mp distinct
      have restCovered : ∀ item ∈ items.filter fun item => !decide (key item = name),
          key item ∈ rest := by
        intro item member
        obtain ⟨itemMem, different⟩ := List.mem_filter.mp member
        exact (List.mem_cons.mp (covered item itemMem)).resolve_left (by simpa using different)
      have others : ∀ other ∈ rest, (items.filter fun item => key item = other) =
          (items.filter fun item => !decide (key item = name)).filter
            fun item => key item = other := by
        intro other otherMem
        rw [List.filter_filter]
        refine List.filter_congr fun item _ => ?_
        have different : other ≠ name := fun same => nameFresh (same ▸ otherMem)
        by_cases isOther : key item = other <;> simp [isOther, different]
      rw [List.map_cons, List.sum_cons, List.map_congr_left fun other member =>
        congrArg List.length (others other member), ih restDistinct restCovered,
        ← List.length_eq_length_filter_add]

end Counting

end TypedClient
