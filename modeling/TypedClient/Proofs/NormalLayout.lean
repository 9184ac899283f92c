import Mathlib.Data.List.Chain
import Mathlib.Data.List.DropRight
import TypedClient.Layout

/-!
# The normal layout of a text

Normalizing keeps the lines of a text that are not blank, without their trailing blanks, and
one blank line wherever blank lines stood between two of them. The lines of the result are the
same for either line ending, so that normalizing again changes no more than the endings.
-/

namespace TypedClient

namespace Text

def isBlankLine (line : List Char) : Bool :=
  line.all isBlank

/-- A line without trailing blanks. -/
def IsTrimmed (line : List Char) : Prop :=
  ∀ c ∈ line.getLast?, isBlank c = false

section Lines

variable {c : Char} {line rest text : List Char}

theorem lines_cons (notFeed : c ≠ '\n') (notPair : c = '\r' → rest.head? ≠ some '\n') :
    lines (c :: rest) =
      ((lines rest).head?.elim [c] (c :: ·)) :: (lines rest).tail := by
  rw [lines]
  · cases lines rest <;> rfl
  · exact notFeed
  · rintro after isReturn rfl
    exact notPair isReturn rfl

theorem IsTrimmed.of_cons (trimmed : IsTrimmed (c :: line)) : IsTrimmed line := by
  cases line with
  | nil => simp [IsTrimmed]
  | cons first line => rwa [IsTrimmed, List.getLast?_cons_cons] at trimmed

/-- A line is read back up to its ending. -/
theorem lines_append_ending (ending : LineEnding) (notFeed : '\n' ∉ line)
    (trimmed : IsTrimmed line) (rest : List Char) :
    lines (line ++ (ending.text.toList ++ rest)) = line :: lines rest := by
  induction line with
  | nil => cases ending <;> exact lines.eq_def _
  | cons c line ih =>
      rw [List.mem_cons, not_or] at notFeed
      have notPair : c = '\r' → (line ++ (ending.text.toList ++ rest)).head? ≠ some '\n' := by
        rintro rfl
        cases line with
        -- a carriage return just before the ending would be a trailing blank
        | nil => exact absurd (trimmed '\r' rfl) (by decide)
        | cons first line =>
            exact fun same => notFeed.2 (Option.some.inj same ▸ List.mem_cons_self)
      rw [List.cons_append, lines_cons (Ne.symm notFeed.1) notPair, ih notFeed.2 trimmed.of_cons]
      rfl

theorem lines_flatMap_append_ending (ending : LineEnding) {parts : List (List Char)}
    (notFeed : ∀ line ∈ parts, '\n' ∉ line) (trimmed : ∀ line ∈ parts, IsTrimmed line) :
    lines (parts.flatMap (· ++ ending.text.toList)) = parts := by
  induction parts with
  | nil => rfl
  | cons line parts ih =>
      rw [List.forall_mem_cons] at notFeed trimmed
      rw [List.flatMap_cons, List.append_assoc,
        lines_append_ending ending notFeed.1 trimmed.1, ih notFeed.2 trimmed.2]

theorem not_mem_of_mem_lines : ∀ line ∈ lines text, '\n' ∉ line := by
  fun_induction lines text with
  | case1 => simp
  | case2 rest ih => simpa using ih
  | case3 rest ih => simpa using ih
  | case4 c rest notFeed notPair noLines ih => simpa using Ne.symm notFeed
  | case5 c rest notFeed notPair first others isLines ih =>
      rw [isLines, List.forall_mem_cons] at ih
      simpa [Ne.symm notFeed] using ih

/-- A text is blank if its lines are, since the endings of the lines are blank. -/
theorem all_isBlank_of_lines (allBlank : ∀ line ∈ lines text, isBlankLine line = true) :
    text.all isBlank = true := by
  fun_induction lines text with
  | case1 => rfl
  | case2 rest ih => exact ih (List.forall_mem_cons.mp allBlank).2
  | case3 rest ih => exact ih (List.forall_mem_cons.mp allBlank).2
  | case4 c rest notFeed notPair noLines ih =>
      have restBlank : rest.all isBlank = true := ih (by simp [noLines])
      rw [List.all_cons, restBlank]
      exact allBlank [c] List.mem_cons_self
  | case5 c rest notFeed notPair first others isLines ih =>
      rw [isLines] at ih
      obtain ⟨firstBlank, othersBlank⟩ := List.forall_mem_cons.mp allBlank
      rw [isBlankLine, List.all_cons, Bool.and_eq_true] at firstBlank
      rw [List.all_cons, firstBlank.1, ih (List.forall_mem_cons.mpr ⟨firstBlank.2, othersBlank⟩)]
      rfl

end Lines

section Trailing

variable {line : List Char}

theorem trimEndChars_eq_rdropWhile (line : List Char) :
    trimEndChars line = line.rdropWhile isBlank :=
  rfl

theorem isTrimmed_trimEndChars (line : List Char) : IsTrimmed (trimEndChars line) := by
  intro c isLast
  obtain ⟨notEmpty, rfl⟩ := List.mem_getLast?_eq_getLast isLast
  exact Bool.not_eq_true _ ▸ List.rdropWhile_last_not isBlank line notEmpty

theorem IsTrimmed.trimEndChars_eq (trimmed : IsTrimmed line) : trimEndChars line = line := by
  refine List.rdropWhile_eq_self_iff.mpr fun notEmpty => ?_
  rw [trimmed _ (List.getLast?_eq_some_getLast notEmpty)]
  exact Bool.false_ne_true

theorem isEmpty_trimEndChars (line : List Char) :
    (trimEndChars line).isEmpty = isBlankLine line := by
  rw [Bool.eq_iff_iff, List.isEmpty_iff, trimEndChars_eq_rdropWhile, List.rdropWhile_eq_nil_iff,
    isBlankLine, List.all_eq_true]

theorem IsTrimmed.isEmpty_eq (trimmed : IsTrimmed line) : line.isEmpty = isBlankLine line := by
  rw [← isEmpty_trimEndChars, trimmed.trimEndChars_eq]

end Trailing

section BlankLines

variable {α β : Type} {blank : α → Bool} {items others : List α} {number : Nat}

/-- A blank item with this number of items before it that are not blank. -/
def HasBlankAfter (blank : α → Bool) (items : List α) (number : Nat) : Prop :=
  ∃ before item after, items = before ++ item :: after ∧ blank item = true ∧
    before.countP (fun earlier => !blank earlier) = number

/-- Between two items that are not blank, given by their positions among such items, stands a
blank one. -/
def BlankBetween (blank : α → Bool) (items : List α) (first second : Nat) : Prop :=
  ∃ number, HasBlankAfter blank items number ∧ first < number ∧ number ≤ second

theorem not_hasBlankAfter_nil : ¬ HasBlankAfter blank [] number := by
  rintro ⟨before, item, after, isSplit, -⟩
  simp at isSplit

theorem HasBlankAfter.le_countP (hasBlank : HasBlankAfter blank items number) :
    number ≤ items.countP fun item => !blank item := by
  obtain ⟨before, item, after, rfl, -, rfl⟩ := hasBlank
  rw [List.countP_append]
  exact Nat.le_add_right _ _

theorem hasBlankAfter_append : HasBlankAfter blank (items ++ others) number ↔
    HasBlankAfter blank items number ∨
      ∃ more, HasBlankAfter blank others more ∧
        number = items.countP (fun item => !blank item) + more := by
  constructor
  · rintro ⟨before, item, after, isSplit, isBlank, rfl⟩
    rcases List.append_eq_append_iff.mp isSplit with
      ⟨between, rfl, isOther⟩ | ⟨between, rfl, isOther⟩
    · exact Or.inr ⟨_, ⟨between, item, after, isOther, isBlank, rfl⟩, List.countP_append⟩
    · cases between with
      | nil =>
          -- the blank item is the first of the others
          refine Or.inr ⟨0, ⟨[], item, after, isOther.symm, isBlank, rfl⟩, ?_⟩
          rw [List.append_nil, Nat.add_zero]
      | cons next between =>
          obtain ⟨rfl, -⟩ := List.cons.inj isOther
          exact Or.inl ⟨before, item, between, rfl, isBlank, rfl⟩
  · rintro (⟨before, item, after, rfl, isBlank, rfl⟩ |
      ⟨_, ⟨before, item, after, rfl, isBlank, rfl⟩, rfl⟩)
    · exact ⟨before, item, after ++ others, by simp, isBlank, rfl⟩
    · exact ⟨items ++ before, item, after, by simp, isBlank, List.countP_append⟩

theorem hasBlankAfter_singleton {item : α} :
    HasBlankAfter blank [item] number ↔ blank item = true ∧ number = 0 := by
  constructor
  · rintro ⟨before, other, after, isSplit, isBlank, rfl⟩
    cases before with
    | nil => exact ⟨(List.cons.inj isSplit).1 ▸ isBlank, rfl⟩
    | cons first before => simp at isSplit
  · rintro ⟨isBlank, rfl⟩
    exact ⟨[], item, [], rfl, isBlank, rfl⟩

theorem hasBlankAfter_cons_blank {item : α} (isBlank : blank item = true) :
    HasBlankAfter blank (item :: items) number ↔ number = 0 ∨ HasBlankAfter blank items number := by
  rw [← List.singleton_append, hasBlankAfter_append, hasBlankAfter_singleton]
  simp [isBlank]

theorem hasBlankAfter_cons_text {item : α} (notBlank : blank item = false) :
    HasBlankAfter blank (item :: items) number ↔
      ∃ more, HasBlankAfter blank items more ∧ number = 1 + more := by
  rw [← List.singleton_append, hasBlankAfter_append, hasBlankAfter_singleton]
  simp [notBlank]

theorem hasBlankAfter_concat {item : α} : HasBlankAfter blank (items ++ [item]) number ↔
    HasBlankAfter blank items number ∨
      blank item = true ∧ number = items.countP fun item => !blank item := by
  simp [hasBlankAfter_append, hasBlankAfter_singleton]

theorem hasBlankAfter_map {toItem : β → α} {sources : List β} :
    HasBlankAfter blank (sources.map toItem) number ↔
      HasBlankAfter (blank ∘ toItem) sources number := by
  constructor
  · rintro ⟨before, item, after, isSplit, isBlank, rfl⟩
    obtain ⟨first, rest, rfl, rfl, isRest⟩ := List.map_eq_append_iff.mp isSplit
    obtain ⟨source, last, rfl, rfl, rfl⟩ := List.map_eq_cons_iff.mp isRest
    exact ⟨first, source, last, rfl, isBlank, by rw [List.countP_map]; rfl⟩
  · rintro ⟨before, item, after, rfl, isBlank, rfl⟩
    exact ⟨before.map toItem, toItem item, after.map toItem, by simp, isBlank,
      by rw [List.countP_map]; rfl⟩

theorem hasBlankAfter_congr {other : α → Bool} (same : items.map blank = items.map other) :
    HasBlankAfter blank items number ↔ HasBlankAfter other items number := by
  rw [← Function.id_comp blank, ← Function.id_comp other, ← hasBlankAfter_map,
    ← hasBlankAfter_map, same]

end BlankLines

end Text

namespace Layout

open Text

section Collapse

variable {afterEmpty : Bool} {line : List Char} {parts : List (List Char)} {number : Nat}

theorem collapse_text (hasText : line ≠ []) :
    collapse afterEmpty (line :: parts) = line :: collapse false parts := by
  cases line with
  | nil => exact absurd rfl hasText
  | cons c line => rfl

theorem mem_of_mem_collapse (member : line ∈ collapse afterEmpty parts) : line ∈ parts := by
  fun_induction collapse afterEmpty parts with
  | case1 => exact member
  | case2 afterEmpty first rest leftOut ih => exact List.mem_cons_of_mem _ (ih member)
  | case3 afterEmpty first rest kept ih =>
      exact List.mem_cons.mpr ((List.mem_cons.mp member).imp_right ih)

theorem head?_collapse : (collapse true parts).head? ≠ some [] := by
  induction parts with
  | nil => simp [collapse]
  | cons line rest ih =>
      by_cases isEmpty : line = []
      · subst isEmpty
        exact ih
      · rw [collapse_text isEmpty]
        exact fun same => isEmpty (Option.some.inj same)

theorem isChain_collapse :
    (collapse afterEmpty parts).IsChain fun first second => ¬ (first = [] ∧ second = []) := by
  fun_induction collapse afterEmpty parts with
  | case1 => exact .nil
  | case2 afterEmpty line rest leftOut ih => exact ih
  | case3 afterEmpty line rest kept ih =>
      refine ih.cons fun next isNext bothEmpty => ?_
      obtain ⟨rfl, rfl⟩ := bothEmpty
      exact head?_collapse isNext

theorem filter_collapse : (collapse afterEmpty parts).filter (fun line => !line.isEmpty) =
    parts.filter fun line => !line.isEmpty := by
  fun_induction collapse afterEmpty parts with
  | case1 => rfl
  | case2 afterEmpty line rest leftOut ih =>
      rw [Bool.and_eq_true] at leftOut
      rw [ih, List.filter_cons_of_neg (by rw [leftOut.1]; decide)]
  | case3 afterEmpty line rest kept ih => rw [List.filter_cons, List.filter_cons, ih]

theorem hasBlankAfter_collapse : HasBlankAfter List.isEmpty (collapse afterEmpty parts) number ↔
    HasBlankAfter List.isEmpty parts number ∧ (afterEmpty = true → number ≠ 0) := by
  induction parts generalizing afterEmpty number with
  | nil => simp [collapse, not_hasBlankAfter_nil]
  | cons line rest ih =>
      by_cases isEmpty : line = []
      · subst isEmpty
        rw [hasBlankAfter_cons_blank rfl]
        -- An empty line that is left out has as many lines of text before it as the empty line
        -- before, so that no number is lost. The start counts as an empty line, with number 0.
        cases afterEmpty with
        | true =>
            change HasBlankAfter List.isEmpty (collapse true rest) number ↔ _
            rw [ih]
            tauto
        | false =>
            change HasBlankAfter List.isEmpty ([] :: collapse true rest) number ↔ _
            rw [hasBlankAfter_cons_blank rfl, ih]
            tauto
      · have hasText : line.isEmpty = false := by simpa using isEmpty
        rw [collapse_text isEmpty, hasBlankAfter_cons_text hasText, hasBlankAfter_cons_text hasText]
        simp only [ih]
        constructor
        · rintro ⟨more, ⟨hasBlank, -⟩, rfl⟩
          exact ⟨⟨more, hasBlank, rfl⟩, fun _ => by omega⟩
        · rintro ⟨⟨more, hasBlank, rfl⟩, -⟩
          exact ⟨more, ⟨hasBlank, by simp⟩, rfl⟩

theorem dropFinalEmpty_eq_rdropWhile (parts : List (List Char)) :
    dropFinalEmpty parts = parts.rdropWhile List.isEmpty :=
  rfl

theorem getLast?_dropFinalEmpty : (dropFinalEmpty parts).getLast? ≠ some [] := by
  intro isLast
  obtain ⟨notEmpty, same⟩ := List.mem_getLast?_eq_getLast isLast
  have hasText : ¬ ((dropFinalEmpty parts).getLast notEmpty).isEmpty = true :=
    List.rdropWhile_last_not List.isEmpty parts notEmpty
  rw [← same] at hasText
  exact hasText rfl

theorem filter_dropFinalEmpty : (dropFinalEmpty parts).filter (fun line => !line.isEmpty) =
    parts.filter fun line => !line.isEmpty := by
  have leftOut : (parts.rtakeWhile List.isEmpty).filter (fun line => !line.isEmpty) = [] := by
    rw [List.filter_eq_nil_iff]
    intro line member
    rw [List.mem_rtakeWhile_imp member]
    decide
  have split : dropFinalEmpty parts ++ parts.rtakeWhile List.isEmpty = parts :=
    List.rdropWhile_append_rtakeWhile
  rw [← List.append_nil (List.filter _ _), ← leftOut, ← List.filter_append, split]

theorem hasBlankAfter_dropFinalEmpty : HasBlankAfter List.isEmpty (dropFinalEmpty parts) number ↔
    HasBlankAfter List.isEmpty parts number ∧
      number < parts.countP fun line => !line.isEmpty := by
  rw [dropFinalEmpty_eq_rdropWhile]
  induction parts using List.reverseRecOn with
  | nil => simp [not_hasBlankAfter_nil]
  | append_singleton parts line ih =>
      rw [hasBlankAfter_concat, List.countP_append, List.countP_singleton]
      by_cases isEmpty : line.isEmpty = true
      · rw [List.rdropWhile_concat_pos _ _ _ isEmpty, ih]
        simp only [isEmpty]
        constructor
        · rintro ⟨hasBlank, inside⟩
          exact ⟨Or.inl hasBlank, inside⟩
        · rintro ⟨hasBlank | ⟨-, rfl⟩, inside⟩
          · exact ⟨hasBlank, inside⟩
          · exact absurd inside (Nat.lt_irrefl _)
      · rw [List.rdropWhile_concat_neg _ _ _ isEmpty, hasBlankAfter_concat]
        have inside : HasBlankAfter List.isEmpty parts number →
            number < parts.countP (fun line => !line.isEmpty) + 1 :=
          fun hasBlank => Nat.lt_succ_of_le hasBlank.le_countP
        simp only [isEmpty]
        tauto

end Collapse

/-- Trimmed lines of which no two neighbours, and neither the first nor the last, are empty. -/
structure IsNormal (parts : List (List Char)) : Prop where
  notFeed : ∀ line ∈ parts, '\n' ∉ line
  trimmed : ∀ line ∈ parts, IsTrimmed line
  apart : parts.IsChain fun first second => ¬ (first = [] ∧ second = [])
  head_ne : parts.head? ≠ some []
  last_ne : parts.getLast? ≠ some []

section Normal

variable {parts : List (List Char)} {text : List Char}

theorem isNormal_normalLines (text : List Char) : IsNormal (normalLines text) := by
  have isPrefix : normalLines text <+: collapse true ((lines text).map trimEndChars) :=
    List.rdropWhile_prefix List.isEmpty _
  have trims : ∀ line ∈ normalLines text, ∃ source ∈ lines text, trimEndChars source = line :=
    fun line member => List.mem_map.mp (mem_of_mem_collapse (isPrefix.subset member))
  refine ⟨?notFeed, ?trimmed, isChain_collapse.prefix isPrefix, ?head_ne, getLast?_dropFinalEmpty⟩
  case notFeed =>
    intro line member feed
    obtain ⟨source, sourceMem, rfl⟩ := trims line member
    have sourcePrefix : trimEndChars source <+: source := List.rdropWhile_prefix isBlank _
    exact not_mem_of_mem_lines source sourceMem (sourcePrefix.subset feed)
  case trimmed =>
    intro line member
    obtain ⟨source, -, rfl⟩ := trims line member
    exact isTrimmed_trimEndChars source
  case head_ne =>
    intro isHead
    obtain ⟨others, isWhole⟩ := isPrefix
    rw [List.head?_eq_some_iff] at isHead
    obtain ⟨rest, isRest⟩ := isHead
    exact head?_collapse (by rw [← isWhole, isRest]; rfl)

theorem collapse_eq_self (apart : parts.IsChain fun first second => ¬ (first = [] ∧ second = []))
    {afterEmpty : Bool} (head_ne : afterEmpty = true → parts.head? ≠ some []) :
    collapse afterEmpty parts = parts := by
  induction parts generalizing afterEmpty with
  | nil => rfl
  | cons line rest ih =>
      obtain ⟨notBoth, restApart⟩ := List.isChain_cons.mp apart
      have kept : ¬ (line.isEmpty && afterEmpty) = true := by
        rw [Bool.and_eq_true, List.isEmpty_iff]
        rintro ⟨rfl, isAfter⟩
        exact head_ne isAfter rfl
      rw [collapse, if_neg kept, ih restApart]
      intro isEmpty isHead
      exact notBoth [] isHead ⟨List.isEmpty_iff.mp isEmpty, rfl⟩

theorem IsNormal.normalLines_eq (normal : IsNormal parts) (areLines : lines text = parts) :
    normalLines text = parts := by
  have trimmed : parts.map trimEndChars = parts :=
    (List.map_congr_left fun line member => (normal.trimmed line member).trimEndChars_eq).trans
      (List.map_id parts)
  rw [normalLines, areLines, trimmed, collapse_eq_self normal.apart fun _ => normal.head_ne]
  refine List.rdropWhile_eq_self_iff.mpr fun notEmpty isEmpty => ?_
  rw [List.isEmpty_iff] at isEmpty
  exact normal.last_ne (isEmpty ▸ List.getLast?_eq_some_getLast notEmpty)

theorem IsNormal.endsOnce (normal : IsNormal parts) (notEmpty : parts ≠ [])
    (ending : List Char) :
    ∃ body, parts.flatMap (· ++ ending) = body ++ ending ∧ IsTrimmed body := by
  obtain ⟨earlier, last, rfl⟩ := (List.eq_nil_or_concat' parts).resolve_left notEmpty
  refine ⟨earlier.flatMap (· ++ ending) ++ last, by simp, fun c isLast => ?_⟩
  have hasText : last ≠ [] := by
    rintro rfl
    exact normal.last_ne List.getLast?_concat
  rw [List.getLast?_append_of_ne_nil _ hasText] at isLast
  exact normal.trimmed last (List.mem_append_right _ List.mem_cons_self) c isLast

theorem intercalate_append_self (ending : List Char) (notEmpty : parts ≠ []) :
    ending.intercalate parts ++ ending = parts.flatMap (· ++ ending) := by
  induction parts with
  | nil => exact absurd rfl notEmpty
  | cons line rest ih =>
      cases rest with
      | nil => simp
      | cons next rest =>
          rw [List.intercalate_cons_cons, List.append_assoc, ih (List.cons_ne_nil _ _)]
          rfl

/-- The lines of a text in its normal layout. A text without normal lines has an empty one. -/
def laidOutLines (text : List Char) : List (List Char) :=
  if normalLines text = [] then [[]] else normalLines text

theorem toList_normalize (ending : LineEnding) (text : String) :
    (normalize ending text).toList =
      (laidOutLines text.toList).flatMap (· ++ ending.text.toList) := by
  have chars : (normalize ending text).toList =
      ending.text.toList.intercalate (normalLines text.toList) ++ ending.text.toList := by
    simp [normalize, String.toList_append, String.toList_intercalate, Function.comp_def]
  rw [chars, laidOutLines]
  split
  case isTrue noLines =>
    rw [noLines]
    simp
  case isFalse hasLines => exact intercalate_append_self _ hasLines

theorem lines_normalize (ending : LineEnding) (text : String) :
    lines (normalize ending text).toList = laidOutLines text.toList := by
  rw [toList_normalize, lines_flatMap_append_ending]
  all_goals
    unfold laidOutLines
    split
  · simp
  · exact (isNormal_normalLines _).notFeed
  · simp [IsTrimmed]
  · exact (isNormal_normalLines _).trimmed

theorem normalLines_normalize (ending : LineEnding) (text : String) :
    normalLines (normalize ending text).toList = normalLines text.toList := by
  have areLines := lines_normalize ending text
  unfold laidOutLines at areLines
  split at areLines
  case isTrue noLines =>
    rw [normalLines, areLines, noLines]
    rfl
  case isFalse => exact (isNormal_normalLines _).normalLines_eq areLines

theorem filter_normalLines (text : List Char) :
    (normalLines text).filter (fun line => !line.isEmpty) =
      ((lines text).filter fun line => !isBlankLine line).map trimEndChars := by
  rw [normalLines, filter_dropFinalEmpty, filter_collapse, List.filter_map]
  refine congrArg _ (List.filter_congr fun line _ => ?_)
  rw [Function.comp_apply, isEmpty_trimEndChars]

theorem hasBlankAfter_normalLines {number : Nat} :
    HasBlankAfter List.isEmpty (normalLines text) number ↔
      HasBlankAfter isBlankLine (lines text) number ∧ number ≠ 0 ∧
        number < (lines text).countP fun line => !isBlankLine line := by
  have trimsBlank : List.isEmpty ∘ trimEndChars = isBlankLine := funext isEmpty_trimEndChars
  have sameCount : ((lines text).map trimEndChars).countP (fun line => !line.isEmpty) =
      (lines text).countP fun line => !isBlankLine line := by
    rw [List.countP_map]
    exact List.countP_congr fun line _ => by rw [Function.comp_apply, isEmpty_trimEndChars]
  rw [normalLines, hasBlankAfter_dropFinalEmpty, hasBlankAfter_collapse, hasBlankAfter_map,
    trimsBlank, List.countP_eq_length_filter, filter_collapse, ← List.countP_eq_length_filter,
    sameCount]
  tauto

end Normal

/-- A text in its normal layout, compared with the text it was made from. -/
structure LaysOut (source : List Char) (ending : LineEnding) (output : List Char) : Prop where
  trimmed : ∀ line ∈ lines output, IsTrimmed line
  apart : (lines output).IsChain fun first second =>
    ¬ (isBlankLine first = true ∧ isBlankLine second = true)
  head_text : source.all isBlank = false → ∀ line ∈ (lines output).head?, isBlankLine line = false
  last_text : source.all isBlank = false →
    ∀ line ∈ (lines output).getLast?, isBlankLine line = false
  endsOnce : ∃ body, output = body ++ ending.text.toList ∧ IsTrimmed body
  text_eq : (lines output).filter (fun line => !isBlankLine line) =
    ((lines source).filter fun line => !isBlankLine line).map trimEndChars
  blankBetween_iff : ∀ first second,
    second < (lines source).countP (fun line => !isBlankLine line) →
      (BlankBetween isBlankLine (lines output) first second ↔
        BlankBetween isBlankLine (lines source) first second)

section Output

variable {source output : List Char} {ending : LineEnding}

/-- Only the ending is left of a blank text. -/
theorem laysOut_of_blank (noLines : normalLines source = []) (areLines : lines output = [[]])
    (isOutput : output = ending.text.toList) : LaysOut source ending output := by
  have noText := filter_normalLines source
  rw [noLines, List.filter_nil, eq_comm, List.map_eq_nil_iff] at noText
  have allBlank : ∀ line ∈ lines source, isBlankLine line = true := fun line member => by
    simpa using List.filter_eq_nil_iff.mp noText line member
  have notText := ne_false_of_eq_true (all_isBlank_of_lines allBlank)
  refine
    { trimmed := ?_, apart := ?_, head_text := fun hasText => absurd hasText notText
      last_text := fun hasText => absurd hasText notText
      endsOnce := ⟨[], isOutput, by simp [IsTrimmed]⟩, text_eq := ?_, blankBetween_iff := ?_ }
  · simp [areLines, IsTrimmed]
  · rw [areLines]
    exact .singleton _
  · rw [areLines, noText]
    rfl
  · intro first second inside
    rw [List.countP_eq_length_filter, noText] at inside
    exact absurd inside (Nat.not_lt_zero _)

theorem laysOut_of_normal (notEmpty : normalLines source ≠ [])
    (areLines : lines output = normalLines source)
    (isOutput : output = (normalLines source).flatMap (· ++ ending.text.toList)) :
    LaysOut source ending output := by
  have normal := isNormal_normalLines source
  -- a trimmed line is blank only if it is empty
  have sameBlank : ∀ line ∈ normalLines source, line.isEmpty = isBlankLine line :=
    fun line member => (normal.trimmed line member).isEmpty_eq
  have sameMarks : (normalLines source).map List.isEmpty = (normalLines source).map isBlankLine :=
    List.map_congr_left sameBlank
  have isText : ∀ line ∈ normalLines source, line ≠ [] → isBlankLine line = false :=
    fun line member hasText => by rw [← sameBlank line member]; simpa using hasText
  refine
    { trimmed := ?trimmed, apart := ?apart, head_text := ?head_text, last_text := ?last_text
      endsOnce := ?endsOnce, text_eq := ?text_eq, blankBetween_iff := ?blankBetween_iff }
  case trimmed =>
    rw [areLines]
    exact normal.trimmed
  case apart =>
    have marks : ((normalLines source).map List.isEmpty).IsChain fun first second =>
        ¬ (first = true ∧ second = true) :=
      (List.isChain_map List.isEmpty).mpr (by simpa using normal.apart)
    rw [sameMarks, List.isChain_map] at marks
    rw [areLines]
    exact marks
  case head_text =>
    rw [areLines]
    intro _ line isHead
    exact isText line (List.mem_of_mem_head? isHead) fun isEmpty =>
      normal.head_ne (isEmpty ▸ isHead)
  case last_text =>
    rw [areLines]
    intro _ line isLast
    exact isText line (List.mem_of_mem_getLast? isLast) fun isEmpty =>
      normal.last_ne (isEmpty ▸ isLast)
  case endsOnce =>
    rw [isOutput]
    exact normal.endsOnce notEmpty ending.text.toList
  case text_eq =>
    rw [areLines, ← filter_normalLines]
    exact List.filter_congr fun line member => by rw [sameBlank line member]
  case blankBetween_iff =>
    intro first second inside
    simp only [BlankBetween, areLines, ← hasBlankAfter_congr sameMarks,
      hasBlankAfter_normalLines]
    refine exists_congr fun number => ?_
    constructor
    · rintro ⟨⟨hasBlank, -, -⟩, isBetween⟩
      exact ⟨hasBlank, isBetween⟩
    · rintro ⟨hasBlank, isAfter, isBefore⟩
      exact ⟨⟨hasBlank, Nat.ne_of_gt (Nat.zero_lt_of_lt isAfter),
        Nat.lt_of_le_of_lt isBefore inside⟩, isAfter, isBefore⟩

end Output

/-- Normalizing lays a text out, the two line endings give the same lines, and normalizing again
gives what normalizing once gives. -/
theorem normalize_laysOut :
    (∀ ending text, LaysOut text.toList ending (normalize ending text).toList) ∧
      (∀ ending other text, (normalize ending text).toList =
        (lines (normalize other text).toList).flatMap (· ++ ending.text.toList)) ∧
      ∀ ending other text, normalize ending (normalize other text) = normalize ending text := by
  refine ⟨fun ending text => ?_, fun ending other text => ?_, fun ending other text => ?_⟩
  · by_cases noLines : normalLines text.toList = []
    · have noText : laidOutLines text.toList = [[]] := if_pos noLines
      refine laysOut_of_blank noLines ((lines_normalize ending text).trans noText) ?_
      rw [toList_normalize, noText]
      exact List.append_nil _
    · have isText : laidOutLines text.toList = normalLines text.toList := if_neg noLines
      refine laysOut_of_normal noLines ((lines_normalize ending text).trans isText) ?_
      rw [toList_normalize, isText]
  · rw [lines_normalize, toList_normalize]
  · have again := toList_normalize ending (normalize other text)
    rw [laidOutLines, normalLines_normalize] at again
    exact String.toList_injective (again.trans (toList_normalize ending text).symm)

example : normalize .crlf "\n\nimport a  \n\n\n\nclass X \x7b\n\x7d   \r\n\n" =
    "import a\r\n\r\nclass X \x7b\r\n\x7d\r\n" := by
  decide

end Layout

end TypedClient
