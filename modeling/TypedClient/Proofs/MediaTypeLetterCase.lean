import Mathlib
import TypedClient.MediaType

/-!
# Letter case in media types

Media types do not depend on the case of their letters, and neither does it depend on the case
whether a text is taken for JSON. The format that a server announces does, since its names are
compared exactly: the two readers agree on a text unless `json` is spelled in another case, or
is the suffix of a subtype that names YAML.
-/

namespace TypedClient

namespace Text

variable {c mark separator : Char} {text : List Char}

theorem toLower_eq_iff (notLetter : mark.isAlpha = false) : c.toLower = mark ↔ c = mark := by
  by_cases isUpper : c.isUpper = true
  · have letter : c.isAlpha = true := by simp [Char.isAlpha, isUpper]
    constructor
    · rintro rfl
      rw [Char.isAlpha_toLower_eq_isAlpha, letter] at notLetter
      cases notLetter
    · rintro rfl
      rw [letter] at notLetter
      cases notLetter
  · rw [Char.toLower_eq_of_not_isUpper isUpper]

theorem toLower_beq (notLetter : mark.isAlpha = false) : (c.toLower == mark) = (c == mark) := by
  rw [Bool.eq_iff_iff, beq_iff_eq, beq_iff_eq, toLower_eq_iff notLetter]

theorem isAlphanum_toLower (c : Char) : c.toLower.isAlphanum = c.isAlphanum := by
  by_cases isUpper : c.isUpper = true
  · have letter : c.isAlpha = true := by simp [Char.isAlpha, isUpper]
    rw [Char.isAlphanum, Char.isAlphanum, Char.isAlpha_toLower_eq_isAlpha, letter]
    rfl
  · rw [Char.toLower_eq_of_not_isUpper isUpper]

theorem cutAtChar?_map_toLower (notLetter : separator.isAlpha = false) (text : List Char) :
    cutAtChar? separator (text.map Char.toLower) = (cutAtChar? separator text).map
      (Prod.map (List.map Char.toLower) (List.map Char.toLower)) := by
  induction text with
  | nil => rfl
  | cons c rest ih =>
      rw [List.map_cons, cutAtChar?, cutAtChar?, toLower_beq notLetter, ih]
      split
      · rfl
      · rw [Option.map_map, Option.map_map]
        rfl

theorem all_map_toLower {keep : Char → Bool} (keeps : ∀ c, keep c.toLower = keep c)
    (text : List Char) : (text.map Char.toLower).all keep = text.all keep := by
  rw [List.all_map]
  exact congrArg text.all (funext keeps)

end Text

namespace MediaType

open Text

/-- The naming parts of a media type in lower case. -/
def lowered (media : MediaType) : MediaType :=
  ⟨media.type.toLower, media.subtype.toLower, media.suffixName.map String.toLower⟩

section Splitting

theorem isRestrictedChar_toLower (c : Char) : isRestrictedChar c.toLower = isRestrictedChar c := by
  have notLetters : ∀ mark ∈ "!#$&-^_.+%*'".toList, mark.isAlpha = false := by simp
  have sameMarks : c.toLower ∈ "!#$&-^_.+%*'".toList ↔ c ∈ "!#$&-^_.+%*'".toList := by
    constructor <;> intro member
    · rwa [(toLower_eq_iff (notLetters _ member)).mp rfl]
    · rwa [(toLower_eq_iff (notLetters _ member)).mpr rfl]
  rw [isRestrictedChar, isRestrictedChar, isAlphanum_toLower, Bool.eq_iff_iff]
  simp only [Bool.or_eq_true, List.contains_iff_mem, sameMarks]

theorem isPadding_toLower (c : Char) : isPadding c.toLower = isPadding c := by
  rw [isPadding, isPadding, toLower_beq (by decide), toLower_beq (by decide)]

theorem isRestrictedName_map_toLower (name : List Char) :
    isRestrictedName (name.map Char.toLower) = isRestrictedName name := by
  have sameStart : ∀ c : Char, (c.toLower.isAlphanum || c.toLower == '*') =
      (c.isAlphanum || c == '*') := fun c => by
    rw [isAlphanum_toLower, toLower_beq (by decide)]
  rw [isRestrictedName, isRestrictedName, all_map_toLower isRestrictedChar_toLower,
    List.length_map]
  cases name with
  | nil => rfl
  | cons c rest => simp only [List.map_cons, List.head?_cons, Option.any_some, sameStart]

theorem dropWhile_map_toLower {keep : Char → Bool} (keeps : ∀ c, keep c.toLower = keep c)
    (text : List Char) :
    (text.map Char.toLower).dropWhile keep = (text.dropWhile keep).map Char.toLower := by
  rw [List.dropWhile_map]
  exact congrArg (fun test => (text.dropWhile test).map Char.toLower) (funext keeps)

theorem takeWhile_map_toLower {keep : Char → Bool} (keeps : ∀ c, keep c.toLower = keep c)
    (text : List Char) :
    (text.map Char.toLower).takeWhile keep = (text.takeWhile keep).map Char.toLower := by
  rw [List.takeWhile_map]
  exact congrArg (fun test => (text.takeWhile test).map Char.toLower) (funext keeps)

theorem afterQuoted?_cons {c : Char} {rest : List Char}
    (noPair : ∀ next after, c = '\\' → rest = next :: after → False) :
    afterQuoted? (c :: rest) =
      if c == '"' then some rest else if c == '\n' then none else afterQuoted? rest := by
  rw [afterQuoted?]
  exact noPair

theorem afterQuoted?_map_toLower (text : List Char) :
    afterQuoted? (text.map Char.toLower) = (afterQuoted? text).map (List.map Char.toLower) := by
  induction text using afterQuoted?.induct with
  | case1 => rfl
  | case2 escaped rest ih => exact ih
  | case3 c rest noPair quoted =>
      obtain rfl := beq_iff_eq.mp quoted
      rfl
  | case4 c rest noPair notQuoted feed =>
      obtain rfl := beq_iff_eq.mp feed
      rfl
  | case5 c rest noPair notQuoted notFeed ih =>
      have noPairLower : ∀ next after,
          c.toLower = '\\' → rest.map Char.toLower = next :: after → False := by
        intro next after isBackslash isPair
        obtain ⟨first, others, rfl, -, -⟩ := List.map_eq_cons_iff.mp isPair
        exact noPair first others ((toLower_eq_iff (by decide)).mp isBackslash) rfl
      rw [List.map_cons, afterQuoted?_cons noPairLower, afterQuoted?_cons noPair,
        toLower_beq (by decide), toLower_beq (by decide), if_neg notQuoted, if_neg notFeed,
        if_neg notQuoted, if_neg notFeed, ih]

theorem afterValue?_map_toLower (text : List Char) :
    afterValue? (text.map Char.toLower) = (afterValue? text).map (List.map Char.toLower) := by
  cases text with
  | nil => rfl
  | cons c rest =>
      by_cases quoted : c = '"'
      · subst quoted
        exact afterQuoted?_map_toLower rest
      · have bare : ∀ {first : Char} {others : List Char}, first ≠ '"' →
            afterValue? (first :: others) = some ((first :: others).dropWhile isRestrictedChar) :=
          fun notQuote => by rw [afterValue?]; exact fun _ same => notQuote (List.cons.inj same).1
        rw [List.map_cons, bare (mt (toLower_eq_iff (by decide)).mp quoted), bare quoted,
          ← List.map_cons, dropWhile_map_toLower isRestrictedChar_toLower]
        rfl

theorem parametersValid_map_toLower (rounds : Nat) (text : List Char) :
    parametersValid rounds (text.map Char.toLower) = parametersValid rounds text := by
  have padding := all_map_toLower isPadding_toLower
  induction rounds generalizing text with
  | zero => rw [parametersValid, parametersValid, padding]
  | succ rounds ih =>
      rw [parametersValid, parametersValid, cutAtChar?_map_toLower (by decide), padding]
      cases cutAtChar? ';' text with
      | none => rfl
      | some parts =>
          simp only [Option.map_some, Prod.map, padding]
          rw [cutAtChar?_map_toLower (by decide)]
          cases cutAtChar? '=' parts.2 with
          | none => rfl
          | some parameter =>
              simp only [Option.map_some, Prod.map, isRestrictedName_map_toLower,
                dropWhile_map_toLower isPadding_toLower, afterValue?_map_toLower]
              cases afterValue? parameter.2 with
              | none => rfl
              | some rest => simp only [Option.map_some, ih]

theorem splitSuffix?_map_toLower (run : List Char) :
    splitSuffix? (run.map Char.toLower) = (splitSuffix? run).map fun (subtype, suffix, left) =>
      (subtype.map Char.toLower, suffix.map (List.map Char.toLower), left.map Char.toLower) := by
  have cut : cutAtLastPlus? (run.map Char.toLower) = (cutAtLastPlus? run).map
      (Prod.map (List.map Char.toLower) (List.map Char.toLower)) := by
    rw [cutAtLastPlus?, cutAtLastPlus?, ← List.map_reverse, cutAtChar?_map_toLower (by decide),
      Option.map_map, Option.map_map]
    refine Option.map_congr fun parts _ => ?_
    simp [Prod.map]
  rw [splitSuffix?, splitSuffix?, cut]
  rcases cutAtLastPlus? run with _ | ⟨subtype, _ | ⟨first, suffix⟩⟩
  · rfl
  · rfl
  · simp only [Option.map_some, Prod.map, List.map_cons, isRestrictedName_map_toLower]
    split <;> rfl

theorem lowered_mk (type subtype : List Char) (suffix : Option (List Char)) :
    lowered ⟨String.ofList type, String.ofList subtype, suffix.map String.ofList⟩ =
      ⟨String.ofList (type.map Char.toLower), String.ofList (subtype.map Char.toLower),
        (suffix.map (List.map Char.toLower)).map String.ofList⟩ := by
  have chars : ∀ text : List Char,
      (String.ofList text).toLower = String.ofList (text.map Char.toLower) := fun text =>
    String.toList_injective (by simp [String.toLower])
  rw [lowered, chars, chars, Option.map_map, Option.map_map]
  exact congrArg _ (Option.map_congr fun text _ => chars text)

/-- The parts of a text in lower case are the parts of the text, in lower case. -/
theorem parse?_toLower (text : String) : parse? text.toLower = (parse? text).map lowered := by
  have chars : text.toLower.toList = text.toList.map Char.toLower := String.toList_map
  have size : text.toLower.length = text.length := by simp [← String.length_toList, chars]
  rw [parse?, parse?, chars, size, cutAtChar?_map_toLower (by decide)]
  rcases cutAtChar? '/' text.toList with _ | ⟨type, rest⟩
  · rfl
  simp only [Option.map_some, Option.bind_eq_bind, Option.bind_some, Prod.map,
    isRestrictedName_map_toLower, takeWhile_map_toLower isRestrictedChar_toLower,
    dropWhile_map_toLower isRestrictedChar_toLower, splitSuffix?_map_toLower]
  rcases splitSuffix? (rest.takeWhile isRestrictedChar) with _ | ⟨subtype, suffix, left⟩
  · cases isRestrictedName type <;> rfl
  simp only [Option.map_some, Option.bind_some, isRestrictedName_map_toLower, ← List.map_append,
    parametersValid_map_toLower, ← lowered_mk]
  cases isRestrictedName type <;> cases isRestrictedName subtype <;>
    cases parametersValid text.length (left ++ rest.dropWhile isRestrictedChar) <;> rfl

end Splitting

section Naming

variable {media : MediaType} {left right : String}

/-- The subtype names YAML, spelled in lower case. -/
def NamesYaml (media : MediaType) : Prop :=
  media.subtype = "yaml" ∨ media.subtype = "x-yaml"

/-- The subtype or the suffix names JSON, spelled in lower case. -/
def NamesJson (media : MediaType) : Prop :=
  media.subtype = "json" ∨ media.suffixName = some "json"

instance : DecidablePred NamesYaml := fun _ => inferInstanceAs (Decidable (_ ∨ _))

instance : DecidablePred NamesJson := fun _ => inferInstanceAs (Decidable (_ ∨ _))

theorem equalsIgnoringCase_iff :
    equalsIgnoringCase left right = true ↔ left.toLower = right.toLower := by
  rw [equalsIgnoringCase, beq_iff_eq, ← String.toList_inj, String.toLower, String.toLower,
    String.toList_map, String.toList_map]

theorem toLower_formatNames :
    "json".toLower = "json" ∧ "yaml".toLower = "yaml" ∧ "x-yaml".toLower = "x-yaml" := by
  refine ⟨?_, ?_, ?_⟩ <;> exact String.toList_injective (by simp [String.toLower])

theorem NamesYaml.lowered (names : media.NamesYaml) : media.lowered.NamesYaml := by
  obtain ⟨-, yaml, xYaml⟩ := toLower_formatNames
  refine names.imp (fun isYaml => ?_) fun isYaml => ?_
  · rw [MediaType.lowered, isYaml, yaml]
  · rw [MediaType.lowered, isYaml, xYaml]

theorem NamesJson.lowered (names : media.NamesJson) : media.lowered.NamesJson := by
  obtain ⟨json, -, -⟩ := toLower_formatNames
  refine names.imp (fun isJson => ?_) fun isJson => ?_
  · rw [MediaType.lowered, isJson, json]
  · rw [MediaType.lowered, isJson, Option.map_some, json]

theorem lowered_lowered (media : MediaType) : media.lowered.lowered = media.lowered := by
  have again : ∀ text : String, text.toLower.toLower = text.toLower := fun text =>
    String.toList_injective (by simp [String.toLower])
  obtain ⟨type, subtype, suffix⟩ := media
  rw [lowered, lowered, again, again, Option.map_map]
  exact congrArg _ (Option.map_congr fun name _ => again name)

end Naming

end MediaType

namespace MediaTypeParser

open MediaType DocumentFormat

/-- Splitting keeps the case of letters: the parts of a text in lower case are the parts of the
text, in lower case. -/
def KeepsLetterCase [MediaTypeParser] : Prop :=
  ∀ text : String, parse? text.toLower = (parse? text).map lowered

section Readers

variable [MediaTypeParser] {text : String} {media : MediaType}

theorem isJsonMediaType_iff (read : parse? text = some media) :
    isJsonMediaType text = true ↔ media.lowered.NamesJson := by
  obtain ⟨type, subtype, suffix⟩ := media
  rw [isJsonMediaType, read]
  cases suffix <;> simp [NamesJson, lowered, equalsIgnoringCase_iff, toLower_formatNames.1]

theorem ofContentType?_eq (read : parse? text = some media) : ofContentType? text =
    if media.NamesYaml then some .yaml else if media.NamesJson then some .json else none := by
  rw [ofContentType?, read]
  simp only [Bool.or_eq_true, beq_iff_eq]
  rfl

theorem ofContentType?_eq_json_iff (read : parse? text = some media) :
    ofContentType? text = some .json ↔ media.NamesJson ∧ ¬ media.NamesYaml := by
  rw [ofContentType?_eq read]
  split_ifs <;> simp_all

/-- A text that is no media type has neither answer. -/
theorem readers_of_none (read : parse? text = none) :
    ofContentType? text = none ∧ isJsonMediaType text = false := by
  rw [ofContentType?, isJsonMediaType, read]
  exact ⟨rfl, rfl⟩

theorem isJsonMediaType_toLower (keepsCase : KeepsLetterCase) (text : String) :
    isJsonMediaType text.toLower = isJsonMediaType text := by
  have readLower := keepsCase text
  cases read : parse? text with
  | none =>
      rw [read, Option.map_none] at readLower
      rw [(readers_of_none readLower).2, (readers_of_none read).2]
  | some media =>
      rw [read, Option.map_some] at readLower
      rw [Bool.eq_iff_iff, isJsonMediaType_iff readLower, isJsonMediaType_iff read,
        lowered_lowered]

theorem agree_iff (text : String) :
    (ofContentType? text = some .json ↔ isJsonMediaType text = true) ↔
      ∀ media, parse? text = some media → media.lowered.NamesJson →
        media.NamesJson ∧ ¬ media.NamesYaml := by
  cases read : parse? text with
  | none => simp [readers_of_none read]
  | some media =>
      rw [ofContentType?_eq_json_iff read, isJsonMediaType_iff read]
      simp only [Option.some.injEq, forall_eq']
      exact ⟨fun agree => agree.mpr, fun named => ⟨fun isJson => isJson.1.lowered, named⟩⟩

theorem ofContentType?_toLower_iff (keepsCase : KeepsLetterCase) (text : String) :
    ofContentType? text.toLower = ofContentType? text ↔
      ∀ media, parse? text = some media →
        (media.lowered.NamesYaml → media.NamesYaml) ∧
          (media.lowered.NamesJson → media.NamesJson ∨ media.NamesYaml) := by
  have readLower := keepsCase text
  cases read : parse? text with
  | none =>
      rw [read, Option.map_none] at readLower
      simp [readers_of_none readLower, readers_of_none read]
  | some media =>
      rw [read, Option.map_some] at readLower
      rw [ofContentType?_eq readLower, ofContentType?_eq read]
      simp only [Option.some.injEq, forall_eq']
      by_cases yaml : media.NamesYaml
      · rw [if_pos yaml.lowered, if_pos yaml]
        exact iff_of_true rfl ⟨fun _ => yaml, fun _ => Or.inr yaml⟩
      by_cases yamlLower : media.lowered.NamesYaml
      · rw [if_pos yamlLower, if_neg yaml]
        refine iff_of_false ?_ fun same => yaml (same.1 yamlLower)
        split <;> simp
      rw [if_neg yamlLower, if_neg yaml]
      by_cases json : media.NamesJson
      · rw [if_pos json.lowered, if_pos json]
        exact iff_of_true rfl ⟨fun isYaml => absurd isYaml yamlLower, fun _ => Or.inl json⟩
      by_cases jsonLower : media.lowered.NamesJson
      · rw [if_pos jsonLower, if_neg json]
        exact iff_of_false (by simp) fun same => (same.2 jsonLower).elim json yaml
      · rw [if_neg jsonLower, if_neg json]
        exact iff_of_true rfl
          ⟨fun isYaml => absurd isYaml yamlLower, fun isJson => absurd isJson jsonLower⟩

/-- Where splitting keeps the case of letters, only JSON is announced as JSON; the two readers
agree on a text exactly if JSON is named by it in lower case, if at all, and not as the suffix of
a name for YAML; whether a text is taken for JSON does not depend on its case; and the announced
format does exactly if YAML, or JSON, is named in another case alone. -/
theorem readers_agree_iff (keepsCase : KeepsLetterCase) :
    (∀ text, ofContentType? text = some .json → isJsonMediaType text = true) ∧
    (∀ text, (ofContentType? text = some .json ↔ isJsonMediaType text = true) ↔
      ∀ media, parse? text = some media → media.lowered.NamesJson →
        media.NamesJson ∧ ¬ media.NamesYaml) ∧
    (∀ text other : String, text.toLower = other.toLower →
      isJsonMediaType text = isJsonMediaType other) ∧
    ∀ text : String, ofContentType? text.toLower = ofContentType? text ↔
      ∀ media, parse? text = some media →
        (media.lowered.NamesYaml → media.NamesYaml) ∧
          (media.lowered.NamesJson → media.NamesJson ∨ media.NamesYaml) := by
  refine ⟨fun text isAnnounced => ?_, agree_iff, fun text other same => ?_,
    ofContentType?_toLower_iff keepsCase⟩
  · cases read : parse? text with
    | none =>
        rw [(readers_of_none read).1] at isAnnounced
        cases isAnnounced
    | some media =>
        exact (isJsonMediaType_iff read).mpr
          ((ofContentType?_eq_json_iff read).mp isAnnounced).1.lowered
  · rw [← isJsonMediaType_toLower keepsCase text, same, isJsonMediaType_toLower keepsCase other]

end Readers

section Samples

attribute [local instance] ofGrammar

theorem keepsLetterCase_parse? : KeepsLetterCase :=
  parse?_toLower

/-- A suffix that the two readers see alike in lower case. -/
theorem readers_agree_iff_suffixSample : KeepsLetterCase ∧
    isJsonMediaType "application/Problem+JSON" = isJsonMediaType "application/problem+json" ∧
    (ofContentType? "application/problem+json" = some .json ↔
      isJsonMediaType "application/problem+json" = true) := by
  obtain ⟨-, agrees, ignoresCase, -⟩ := readers_agree_iff keepsLetterCase_parse?
  have same : "application/Problem+JSON".toLower = "application/problem+json".toLower := by cbv
  have read : parse? "application/problem+json" =
      some ⟨"application", "problem", some "json"⟩ := by cbv
  refine ⟨keepsLetterCase_parse?, ignoresCase _ _ same, (agrees _).mpr fun media isRead _ => ?_⟩
  rw [read] at isRead
  cases isRead
  decide

theorem not_readers_agree_upperCaseSample :
    ¬ ∀ text, ofContentType? text = some .json ↔ isJsonMediaType text = true := by
  intro agree
  have isJson : isJsonMediaType "application/JSON" = true := by cbv
  have notAnnounced : ofContentType? "application/JSON" = none := by cbv
  rw [← agree, notAnnounced] at isJson
  cases isJson

end Samples

end MediaTypeParser

end TypedClient
