import Mathlib.Data.List.Chain
import TypedClient.Proofs.MethodParameters
import TypedClient.Proofs.NormalLayout

/-!
# Comments around document text

Text of the document stands in the comment above a method and in the banner of a module. No star
in these comments is followed by a slash but at their end: not within a line, where every such
pair is taken apart, and not where a line meets what is written around it. So a comment ends where
it is meant to, and the code behind it is the same whatever the document says.
-/

namespace TypedClient

open Text

/-- The text from its first token on, behind blanks and block comments. Line comments are not
read; none is written. -/
def skipTrivia : (inComment : Bool) → List Char → List Char
  | true, '*' :: '/' :: rest => skipTrivia false rest
  | true, _ :: rest => skipTrivia true rest
  | false, '/' :: '*' :: rest => skipTrivia true rest
  | false, c :: rest => if c.isWhitespace then skipTrivia false rest else c :: rest
  | _, [] => []

def codeOf (text : String) : String :=
  String.ofList (skipTrivia false text.toList)

theorem skipTrivia_blank {c : Char} (isBlank : c.isWhitespace = true) (text : List Char) :
    skipTrivia false (c :: text) = skipTrivia false text := by
  rw [skipTrivia, if_pos isBlank]
  rintro rest rfl
  cases isBlank

theorem skipTrivia_token {c : Char} (notBlank : c.isWhitespace = false) (notSlash : c ≠ '/')
    (text : List Char) : skipTrivia false (c :: text) = c :: text := by
  rw [skipTrivia, notBlank, if_neg Bool.false_ne_true]
  exact fun rest isSlash => absurd isSlash notSlash

namespace Text

variable {text : List Char}

theorem trimChars_eq_nil_iff : trimChars text = [] ↔ text.all isBlank = true := by
  rw [trimChars, trimEndChars_eq_rdropWhile, List.rdropWhile_eq_nil_iff, trimStartChars,
    List.all_eq_true]
  constructor
  · intro restBlank c member
    rw [← List.takeWhile_append_dropWhile (p := isBlank) (l := text), List.mem_append] at member
    exact member.elim List.mem_takeWhile_imp (restBlank c)
  · exact fun allBlank c member => allBlank c ((List.dropWhile_sublist isBlank).mem member)

theorem lines_eq_nil_iff : lines text = [] ↔ text = [] := by
  fun_cases lines text <;> simp

end Text

namespace Comment

/-- A text in which no star is followed by a slash. -/
def IsOpen (text : List Char) : Prop :=
  text.IsChain fun first second => ¬ (first = '*' ∧ second = '/')

instance (text : List Char) : Decidable (IsOpen text) :=
  inferInstanceAs (Decidable (List.IsChain _ text))

/-- A block comment that ends only at its end. -/
structure IsBlock (comment : List Char) : Prop where
  delimited : ∃ body, comment = "/*".toList ++ (body ++ "*/".toList)
  closedOnce : ∀ before after, comment = before ++ ("*/".toList ++ after) → after = []

section Open

variable {text other body code : List Char} {c : Char}

theorem IsOpen.append (isOpen : IsOpen text) (otherOpen : IsOpen other)
    (apart : text.getLast? ≠ some '*' ∨ other.head? ≠ some '/') : IsOpen (text ++ other) := by
  refine List.IsChain.append isOpen otherOpen fun first isLast second isHead => ?_
  rintro ⟨rfl, rfl⟩
  exact apart.elim (· isLast) (· isHead)

theorem not_isOpen_append_closing (before after : List Char) :
    ¬ IsOpen (before ++ ("*/".toList ++ after)) := by
  intro isOpen
  have closing : IsOpen "*/".toList :=
    List.IsChain.infix isOpen ⟨before, after, List.append_assoc _ _ _⟩
  exact absurd closing (by decide)

theorem isBlock_of_isOpen (body : List Char)
    (isOpen : IsOpen ("/*".toList ++ (body ++ ['*']))) :
    IsBlock ("/*".toList ++ (body ++ "*/".toList)) := by
  refine ⟨⟨body, rfl⟩, fun before after same => ?_⟩
  rcases List.eq_nil_or_concat' after with rfl | ⟨front, last, rfl⟩
  · rfl
  · -- without its last character the comment is open, so the closing is not in it
    have split : ("/*".toList ++ (body ++ ['*'])) ++ ['/'] =
        (before ++ ("*/".toList ++ front)) ++ [last] := by
      simpa using same
    rw [(List.append_inj' split rfl).1] at isOpen
    exact absurd isOpen (not_isOpen_append_closing before front)

theorem skipTrivia_cons (apart : c = '*' → text.head? ≠ some '/') :
    skipTrivia true (c :: text) = skipTrivia true text := by
  rw [skipTrivia]
  rintro rest rfl rfl
  exact apart rfl rfl

theorem skipTrivia_body (isOpen : IsOpen (body ++ ['*'])) (code : List Char) :
    skipTrivia true (body ++ ("*/".toList ++ code)) = skipTrivia false code := by
  induction body with
  | nil => rfl
  | cons c body ih =>
      obtain ⟨apart, bodyOpen⟩ := List.isChain_cons.mp isOpen
      rw [List.cons_append, skipTrivia_cons, ih bodyOpen]
      intro isStar isHead
      refine apart '/' ?_ ⟨isStar, rfl⟩
      cases body with
      | nil => cases isHead
      | cons next body => exact isHead

theorem IsBlock.isOpen_body (isBlock : IsBlock ("/*".toList ++ (body ++ "*/".toList))) :
    IsOpen (body ++ ['*']) := by
  refine List.isChain_iff_forall_rel_of_append_cons_cons.mpr ?_
  rintro first second before after same ⟨rfl, rfl⟩
  have ends := isBlock.closedOnce ("/*".toList ++ before) (after ++ ['/'])
  refine absurd (ends ?_) (List.append_ne_nil_of_right_ne_nil _ (List.cons_ne_nil _ _))
  have := congrArg (fun inner => "/*".toList ++ (inner ++ ['/'])) same
  simpa using this

theorem IsBlock.skipTrivia_append (isBlock : IsBlock text) (code : List Char) :
    skipTrivia false (text ++ code) = skipTrivia false code := by
  obtain ⟨body, rfl⟩ := isBlock.delimited
  rw [List.append_assoc, List.append_assoc]
  exact skipTrivia_body isBlock.isOpen_body code

end Open

section Lines

variable {text line : List Char} {allLines : List (List Char)}

theorem head?_neutralize (text : List Char) : (neutralize text).head? = text.head? := by
  fun_cases neutralize text <;> rfl

theorem isOpen_neutralize (text : List Char) : IsOpen (neutralize text) := by
  fun_induction neutralize text with
  | case1 rest ih =>
      have starBefore : IsOpen ['*', '\\'] := by decide
      have slashBehind : IsOpen ('/' :: neutralize rest) :=
        List.IsChain.cons ih fun _ _ same => absurd same.1 (by decide)
      exact starBefore.append slashBehind (Or.inl (by decide))
  | case2 c rest notClosing ih =>
      refine List.IsChain.cons ih ?_
      rintro second isHead ⟨rfl, rfl⟩
      rw [head?_neutralize] at isHead
      obtain ⟨others, rfl⟩ := List.head?_eq_some_iff.mp isHead
      exact notClosing others rfl rfl
  | case3 => exact .nil

theorem isOpen_innerLine (isOpen : IsOpen line) : IsOpen (innerLine line) := by
  unfold innerLine
  split
  · decide
  · refine IsOpen.append (IsOpen.append ?_ isOpen (Or.inl ?_)) ?_ (Or.inr ?_) <;> decide

theorem getLast?_innerLine (line : List Char) : (innerLine line).getLast? = some '\n' := by
  unfold innerLine
  split
  · rfl
  · exact List.getLast?_concat

theorem isOpen_flatMap_innerLine (allOpen : ∀ line ∈ allLines, IsOpen line) :
    IsOpen (allLines.flatMap innerLine) := by
  induction allLines with
  | nil => exact .nil
  | cons line others ih =>
      rw [List.forall_mem_cons] at allOpen
      refine (isOpen_innerLine allOpen.1).append (ih allOpen.2) (Or.inl ?_)
      rw [getLast?_innerLine]
      decide

/-- The lines of the comment are those of its sections and the empty ones between them. -/
theorem mem_joined_sections {parts : List (List (List Char))}
    (member : line ∈ List.intercalate [[]] parts) : line = [] ∨ ∃ part ∈ parts, line ∈ part := by
  induction parts with
  | nil => cases member
  | cons part parts ih =>
      cases parts with
      | nil => exact Or.inr ⟨part, List.mem_cons_self, by simpa using member⟩
      | cons next others =>
          rw [List.intercalate_cons_cons, List.mem_append, List.mem_append] at member
          rcases member with (inPart | isEmpty) | inOthers
          · exact Or.inr ⟨part, List.mem_cons_self, inPart⟩
          · exact Or.inl (List.mem_singleton.mp isEmpty)
          · exact (ih inOthers).imp_right fun ⟨other, otherMem, inOther⟩ =>
              ⟨other, List.mem_cons_of_mem _ otherMem, inOther⟩

theorem isOpen_of_mem_sections {summary description : Option String} {deprecated : Bool}
    {part : List (List Char)} (partMem : part ∈ sections summary description deprecated)
    (member : line ∈ part) : IsOpen line := by
  rcases List.mem_append.mp partMem with isText | isMark
  · obtain ⟨text, -, rfl⟩ := List.mem_map.mp (List.mem_filter.mp isText).1
    obtain ⟨source, -, rfl⟩ := List.mem_map.mp member
    exact isOpen_neutralize _
  · cases deprecated with
    | false => cases isMark
    | true =>
        obtain rfl := List.mem_singleton.mp isMark
        obtain rfl := List.mem_singleton.mp member
        decide

end Lines

/-- Whether there is nothing to say about a method. -/
def SaysNothing (summary description : Option String) (deprecated : Bool) : Prop :=
  deprecated = false ∧ ∀ text ∈ summary.toList ++ description.toList, isBlankText text = true

/-- What stands above a method: nothing, or an indented block on lines of its own. -/
def IsAbove (comment : String) : Prop :=
  comment = "" ∨ ∃ block, IsBlock block ∧ comment.toList = indent ++ (block ++ ['\n'])

theorem IsAbove.codeOf_append {comment : String} (isAbove : IsAbove comment) (code : String) :
    codeOf (comment ++ "  " ++ code) = codeOf code := by
  have isText : (comment ++ "  " ++ code).toList =
      comment.toList ++ (' ' :: ' ' :: code.toList) := by
    simp
  rw [codeOf, codeOf, isText]
  refine congrArg String.ofList ?_
  rcases isAbove with rfl | ⟨block, isBlock, isComment⟩
  · rfl
  · rw [isComment, List.append_assoc, List.append_assoc]
    exact isBlock.skipTrivia_append _

section Method

variable {text : List Char} {allLines : List (List Char)} {parts : List (List (List Char))}

/-- The text between the delimiters of an indented comment. -/
def bodyOf (allLines : List (List Char)) : List Char :=
  "*\n".toList ++ (allLines.flatMap innerLine ++ "   ".toList)

theorem isBlock_bodyOf (allOpen : ∀ line ∈ allLines, IsOpen line) :
    IsBlock ("/*".toList ++ (bodyOf allLines ++ "*/".toList)) := by
  refine isBlock_of_isOpen (bodyOf allLines) ?_
  have inner : IsOpen (allLines.flatMap innerLine ++ "   *".toList) :=
    (isOpen_flatMap_innerLine allOpen).append (by decide) (Or.inr (by decide))
  have whole : IsOpen ("/**\n".toList ++ (allLines.flatMap innerLine ++ "   *".toList)) :=
    IsOpen.append (by decide) inner (Or.inl (by decide))
  simpa [bodyOf] using whole

theorem blockOf_eq (notEmpty : parts ≠ []) :
    blockOf parts = indent ++
      ("/*".toList ++ (bodyOf (List.intercalate [[]] parts) ++ "*/".toList) ++ ['\n']) := by
  rw [blockOf, List.isEmpty_eq_false_iff.mpr notEmpty, if_neg Bool.false_ne_true]
  simp [bodyOf, indent]

theorem isAbove_ofMethod (summary description : Option String) (deprecated : Bool) :
    IsAbove (ofMethod summary description deprecated) := by
  by_cases isEmpty : sections summary description deprecated = []
  · exact Or.inl (by rw [ofMethod, isEmpty]; rfl)
  · refine Or.inr ⟨_, isBlock_bodyOf fun line member => ?_,
      (String.toList_ofList ..).trans (blockOf_eq isEmpty)⟩
    rcases mem_joined_sections member with rfl | ⟨part, partMem, inPart⟩
    · exact .nil
    · exact isOpen_of_mem_sections partMem inPart

example : ofMethod (some " ") (some "*/ **//\r\n/*/") false =
    "  /**\n   * *\\/ **\\//\n   * /*\\/\n   */\n" := by
  cbv

theorem textLines_eq_nil_iff (text : String) : textLines text = [] ↔ isBlankText text = true := by
  rw [textLines, List.map_eq_nil_iff, lines_eq_nil_iff, trimChars_eq_nil_iff, isBlankText]

theorem sections_eq_nil_iff {summary description : Option String} {deprecated : Bool} :
    sections summary description deprecated = [] ↔
      SaysNothing summary description deprecated := by
  rw [sections, List.append_eq_nil_iff, and_comm, List.filter_eq_nil_iff, List.forall_mem_map]
  refine and_congr (by cases deprecated <;> simp) (forall₂_congr fun text _ => ?_)
  rw [← textLines_eq_nil_iff]
  simp

theorem ofMethod_eq_empty_iff {summary description : Option String} {deprecated : Bool} :
    ofMethod summary description deprecated = "" ↔
      SaysNothing summary description deprecated := by
  rw [← sections_eq_nil_iff]
  refine ⟨fun isEmpty => ?_, fun isEmpty => by rw [ofMethod, isEmpty]; rfl⟩
  by_contra notEmpty
  rw [ofMethod, blockOf_eq notEmpty] at isEmpty
  have := congrArg String.toList isEmpty
  simp [indent] at this

end Method

end Comment

namespace ClientMethod

/-- The method with other texts above it. -/
def documented (method : ClientMethod) (summary description : Option String)
    (deprecated : Bool) : ClientMethod :=
  { method with summary, description, deprecated }

variable [Conversions]

/-- What a method has behind its name. -/
def signatureAndBody (method : ClientMethod) (table : NameTable) :
    Except UnboundOperation String := do
  let arguments ← method.argumentList table
  let response ← method.response.render table
  return "(" ++ arguments ++ "): Promise<ResponseType<" ++ response ++ ">> \x7b\n" ++
    method.bodyText

theorem render_eq_map (method : ClientMethod) (table : NameTable) :
    method.render table = (method.signatureAndBody table).map fun code =>
      Comment.ofMethod method.summary method.description method.deprecated ++ "  " ++
        (method.functionName ++ code) := by
  rw [render, signatureAndBody]
  cases method.argumentList table with
  | error error => rfl
  | ok arguments =>
      cases method.response.render table with
      | error error => rfl
      | ok response =>
          refine congrArg Except.ok (String.toList_injective ?_)
          simp [bodyText, transportName]

end ClientMethod

namespace ModuleContext

/-- All that stands above the imports of a module. -/
def header (context : ModuleContext) : String :=
  linterNotice ++ "\n" ++ context.banner ++ "\n\n"

theorem isOpen_heading (context : ModuleContext) : Comment.IsOpen context.heading.toList := by
  rw [heading, String.toList_ofList]
  exact Comment.isOpen_neutralize _

theorem isBlock_banner (context : ModuleContext) : Comment.IsBlock context.banner.toList := by
  unfold banner
  split
  · have isText : "/**\n * " ++ generatedNotice ++ "\n */" =
        "/*" ++ (("*\n * " ++ generatedNotice ++ "\n ") ++ "*/") := rfl
    rw [isText, String.toList_append, String.toList_append]
    exact Comment.isBlock_of_isOpen _ (by decide)
  · have notice : Comment.IsOpen ("/**\n * " ++ generatedNotice ++ "\n * ").toList := by decide
    have closing : Comment.IsOpen (context.heading.toList ++ "\n *".toList) :=
      context.isOpen_heading.append (by decide) (Or.inr (by decide))
    have whole := notice.append closing (Or.inl (by decide))
    have isBlock := Comment.isBlock_of_isOpen
      ("*\n * " ++ generatedNotice ++ "\n * " ++ context.heading ++ "\n ").toList
      (by simpa using whole)
    simpa using isBlock

theorem isBlock_linterNotice : Comment.IsBlock linterNotice.toList := by
  have isText : linterNotice =
      "/*" ++ (" eslint-disable @typescript-eslint/no-explicit-any " ++ "*/") := rfl
  rw [isText, String.toList_append, String.toList_append]
  exact Comment.isBlock_of_isOpen _ (by decide)

theorem codeOf_header (context : ModuleContext) (code : String) :
    codeOf (context.header ++ (context.imports ++ code)) = context.imports ++ code := by
  have isText : (context.header ++ (context.imports ++ code)).toList =
      linterNotice.toList ++ ('\n' :: (context.banner.toList ++
        ('\n' :: '\n' :: (context.imports ++ code).toList))) := by
    simp [header]
  obtain ⟨rest, begins⟩ : ∃ rest, (context.imports ++ code).toList = 'i' :: rest := by
    unfold imports
    exact ⟨_, by simp only [String.append_assoc, String.toList_append]; rfl⟩
  refine String.toList_injective ?_
  rw [codeOf, isText, String.toList_ofList, isBlock_linterNotice.skipTrivia_append,
    skipTrivia_blank rfl, context.isBlock_banner.skipTrivia_append, skipTrivia_blank rfl,
    skipTrivia_blank rfl, begins]
  exact skipTrivia_token rfl (by decide) rest

end ModuleContext

namespace TagModule

variable [Conversions]

/-- What a module has below its imports. -/
def codeBelowImports (module : TagModule) (dtos : List Declaration) :
    Except UnboundOperation String := do
  let blocks ← (declarationBlocks module.table module.tag []
    (dtos ++ module.declarations.declarations)).1
  let methods ← module.methods.mapM (ClientMethod.render module.table)
  return "\n\n" ++ String.intercalate "\n\n"
    (blocks ++ [module.classText methods, module.instanceText]) ++ "\n"

theorem render_eq_map (module : TagModule) (dtos : List Declaration) (context : ModuleContext) :
    (module.render dtos context).1 = (module.codeBelowImports dtos).map fun code =>
      context.header ++ (context.imports ++ code) := by
  rw [render, codeBelowImports]
  cases declarationBlocks module.table module.tag []
    (dtos ++ module.declarations.declarations) with
  | mk blocks warnings =>
      cases blocks with
      | error error => rfl
      | ok blocks =>
          cases module.methods.mapM (ClientMethod.render module.table) with
          | error error => rfl
          | ok methods =>
              refine congrArg Except.ok (String.toList_injective ?_)
              have below : blocks ++ [module.classText methods, module.instanceText] ≠ [] := by
                simp
              rw [List.append_assoc, List.cons_append, List.cons_append, List.nil_append,
                String.intercalate_cons_of_ne_nil (List.cons_ne_nil _ _),
                String.intercalate_cons_of_ne_nil below]
              simp [ModuleContext.header]

end TagModule

/-- Document text stays in the comments it is written in: these end where they are meant to, and
behind them stands the same code, whatever the text. -/
theorem documentTexts_stayInComments [Conversions] :
    (∀ summary description deprecated,
      Comment.IsAbove (Comment.ofMethod summary description deprecated) ∧
      (Comment.ofMethod summary description deprecated = "" ↔
        Comment.SaysNothing summary description deprecated) ∧
      ∀ code, codeOf (Comment.ofMethod summary description deprecated ++ "  " ++ code) =
        codeOf code) ∧
    (∀ (method : ClientMethod) table summary description deprecated,
      (method.documented summary description deprecated).render table =
        (method.signatureAndBody table).map fun code =>
          Comment.ofMethod summary description deprecated ++ "  " ++
            (method.functionName ++ code)) ∧
    (∀ context : ModuleContext, Comment.IsBlock context.banner.toList ∧
      ∀ code, codeOf (context.header ++ (context.imports ++ code)) = context.imports ++ code) ∧
    (∀ (module : TagModule) dtos context,
      (module.render dtos context).1 = (module.codeBelowImports dtos).map fun code =>
        context.header ++ (context.imports ++ code)) := by
  refine ⟨fun summary description deprecated => ?_, fun method table summary description
    deprecated => ?_, fun context => ?_, TagModule.render_eq_map⟩
  · have isAbove := Comment.isAbove_ofMethod summary description deprecated
    exact ⟨isAbove, Comment.ofMethod_eq_empty_iff, isAbove.codeOf_append⟩
  · exact (method.documented summary description deprecated).render_eq_map table
  · exact ⟨context.isBlock_banner, context.codeOf_header⟩

end TypedClient
