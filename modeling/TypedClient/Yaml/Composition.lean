import TypedClient.Keyed
import TypedClient.Yaml.Lexer
import TypedClient.Yaml.Node

/-!
# Composing nodes from tokens

The grammar of YAML documents over tokens. A text holds at most one document; a
text without one is an empty node.
-/

namespace TypedClient.Yaml

/-- What composing needs: the tokens left, the handles declared for tags and the
anchors given so far with their numbers. -/
structure Composition where
  tokens : List Token
  handles : List (List Char × List Char)
  anchors : List (List Char × Nat)

/-- A part of the grammar takes tokens off the front, or refuses the text. -/
abbrev Composer (α : Type) := StateT Composition Option α

namespace Composer

/-- The next token, which stays; after the last one the end of the stream. -/
def peek : Composer Token := fun composition =>
  some (composition.tokens.head?.getD .streamEnd, composition)

def skip : Composer Unit := fun composition =>
  some ((), { composition with tokens := composition.tokens.tail })

def refuse {α : Type} : Composer α := fun _ => none

/-- Whether the next token is one of the given ones. -/
def peekIn (tokens : List Token) : Composer Bool := do
  return tokens.contains (← peek)

/-- Takes a token if it comes next. -/
def accept (token : Token) : Composer Bool := do
  if (← peek) == token then
    skip
    return true
  else
    return false

/-- Numbers an anchor by the distinct anchors before it. -/
def nameAnchor (name : List Char) : Composer Nat := fun composition =>
  let number := composition.anchors.length
  some (number,
    { composition with anchors := Keyed.put Prod.fst (name, number) composition.anchors })

/-- The number of the anchor that a reference names. -/
def anchorNumber (name : List Char) : Composer Nat := fun composition =>
  (composition.anchors.lookup name).map fun number => (number, composition)

/-- The handles that are declared in every document. -/
def standardHandles : List (List Char × List Char) :=
  [(['!'], ['!']), (['!', '!'], "tag:yaml.org,2002:".toList)]

/-- The full text of a tag. -/
def expandTag (tag : TagText) : Composer String := fun composition =>
  if tag.handle.isEmpty then
    some (String.ofList tag.suffix, composition)
  else
    ((composition.handles ++ standardHandles).lookup tag.handle).map fun beginning =>
      (String.ofList (beginning ++ tag.suffix), composition)

/-- Takes an anchor if it comes next. -/
def acceptAnchor : Composer (Option (List Char)) := do
  match ← peek with
  | .anchor name =>
      skip
      return some name
  | _ => return none

def acceptTag : Composer (Option TagText) := do
  match ← peek with
  | .tag tag =>
      skip
      return some tag
  | _ => return none

/-- Takes the anchor and the tag of a node, in either order. -/
def takeMarks : Composer (Option (List Char) × Option TagText) := do
  match ← acceptAnchor with
  | some name => return (some name, ← acceptTag)
  | none =>
      match ← acceptTag with
      | none => return (none, none)
      | some tag => return (← acceptAnchor, some tag)

def unmarked : NodeMarks :=
  ⟨none, none⟩

/-- The tag that leaves the kind of a node open. -/
def openTag : String := "!"

/-- A scalar with its marks. The open tag says nothing about a scalar. -/
def scalarNode (marks : NodeMarks) (plain : Bool) (text : List Char) : Node :=
  .scalar { marks with tag := marks.tag.filter (· != openTag) } plain (String.ofList text)

mutual

/-- Takes a node. Block collections are allowed in block syntax only, and a sequence
that is not indented only as part of a mapping. -/
def node (block indentless : Bool) : (rounds : Nat) → Composer Node
  | 0 => refuse
  | rounds + 1 => do
      match ← peek with
      | .reference name =>
          skip
          return .reference (← anchorNumber name)
      | _ => do
          let (name, tagText) ← takeMarks
          let tag ← tagText.mapM expandTag
          let next ← peek
          let hasContent :=
            match next with
            | .scalar .. | .flowSequenceStart | .flowMappingStart => true
            | .blockSequenceStart | .blockMappingStart => block
            | .blockEntry => indentless
            | _ => false
          if !hasContent && name.isNone && tag.isNone then
            refuse
          let marks : NodeMarks := ⟨← name.mapM nameAnchor, tag⟩
          if !hasContent then
            return .empty marks
          match next with
          | .blockEntry => return .sequence marks (← indentlessItems rounds)
          | .scalar plain text =>
              skip
              return scalarNode marks plain text
          | .flowSequenceStart =>
              skip
              return .sequence marks (← flowItems true rounds)
          | .flowMappingStart =>
              skip
              return .mapping marks (← flowEntries true rounds)
          | .blockSequenceStart =>
              skip
              return .sequence marks (← blockItems rounds)
          | _ =>
              skip
              return .mapping marks (← blockEntries rounds)

/-- Takes a node, or an empty one before the given tokens. -/
def nodeUnless (ends : List Token) (block indentless : Bool) : (rounds : Nat) → Composer Node
  | 0 => refuse
  | rounds + 1 => do
      if ← peekIn ends then
        return .empty unmarked
      else
        node block indentless rounds

/-- The items of a block sequence and its end. -/
def blockItems : (rounds : Nat) → Composer (List Node)
  | 0 => refuse
  | rounds + 1 => do
      if ← accept .blockEntry then
        let item ← nodeUnless [.blockEntry, .blockEnd] true false rounds
        return item :: (← blockItems rounds)
      else if ← accept .blockEnd then
        return []
      else
        refuse

/-- The items of a sequence at the indentation of its mapping. -/
def indentlessItems : (rounds : Nat) → Composer (List Node)
  | 0 => refuse
  | rounds + 1 => do
      if ← accept .blockEntry then
        let item ← nodeUnless [.blockEntry, .key, .value, .blockEnd] true false rounds
        return item :: (← indentlessItems rounds)
      else
        return []

/-- The value of an entry of a block mapping, which may be missing. -/
def blockValue : (rounds : Nat) → Composer Node
  | 0 => refuse
  | rounds + 1 => do
      if ← accept .value then
        nodeUnless [.key, .value, .blockEnd] true true rounds
      else
        return .empty unmarked

/-- The entries of a block mapping and its end. -/
def blockEntries : (rounds : Nat) → Composer (List (Node × Node))
  | 0 => refuse
  | rounds + 1 => do
      if ← accept .key then
        let key ← nodeUnless [.key, .value, .blockEnd] true true rounds
        let value ← blockValue rounds
        return (key, value) :: (← blockEntries rounds)
      else if ← accept .blockEnd then
        return []
      else
        refuse

/-- The items of a flow sequence and its end, with a comma before every item but
the first. An item with a key is a mapping of one entry. -/
def flowItems (first : Bool) : (rounds : Nat) → Composer (List Node)
  | 0 => refuse
  | rounds + 1 => do
      if ← accept .flowSequenceEnd then
        return []
      if !first && !(← accept .flowEntry) then
        refuse
      if ← accept .flowSequenceEnd then
        return []
      let item ← flowItem rounds
      return item :: (← flowItems false rounds)

def flowItem : (rounds : Nat) → Composer Node
  | 0 => refuse
  | rounds + 1 => do
      if ← accept .key then
        let key ← singleKey rounds
        let value ← flowValue [.flowEntry, .flowSequenceEnd] rounds
        return .mapping unmarked [(key, value)]
      else
        node false false rounds

/-- The key of a mapping of one entry. Where the key is missing, the token in its
place is passed over. -/
def singleKey : (rounds : Nat) → Composer Node
  | 0 => refuse
  | rounds + 1 => do
      if ← peekIn [.value, .flowEntry, .flowSequenceEnd] then
        skip
        return .empty unmarked
      else
        node false false rounds

/-- The value of an entry in a flow collection, which may be missing. -/
def flowValue (ends : List Token) : (rounds : Nat) → Composer Node
  | 0 => refuse
  | rounds + 1 => do
      if ← accept .value then
        nodeUnless ends false false rounds
      else
        return .empty unmarked

/-- The entries of a flow mapping and its end, with a comma before every entry but
the first. An entry without a marked key has no value. -/
def flowEntries (first : Bool) : (rounds : Nat) → Composer (List (Node × Node))
  | 0 => refuse
  | rounds + 1 => do
      if ← accept .flowMappingEnd then
        return []
      if !first && !(← accept .flowEntry) then
        refuse
      if ← accept .flowMappingEnd then
        return []
      let entry ← flowEntry rounds
      return entry :: (← flowEntries false rounds)

def flowEntry : (rounds : Nat) → Composer (Node × Node)
  | 0 => refuse
  | rounds + 1 => do
      if ← accept .key then
        let key ← nodeUnless [.value, .flowEntry, .flowMappingEnd] false false rounds
        let value ← flowValue [.flowEntry, .flowMappingEnd] rounds
        return (key, value)
      else
        return (← node false false rounds, .empty unmarked)

end

/-- Takes the directives before a document: at most one version, which must be known,
and tag handles that differ from each other. -/
def directives (versioned : Bool) : (rounds : Nat) → Composer Unit
  | 0 => return
  | rounds + 1 => do
      match ← peek with
      | .directive (.version major minor) =>
          if versioned || major != 1 || (minor != 1 && minor != 2) then
            refuse
          skip
          directives true rounds
      | .directive (.tag handle beginning) =>
          if ((← get).handles.lookup handle).isSome then
            refuse
          modify fun composition =>
            { composition with handles := composition.handles ++ [(handle, beginning)] }
          skip
          directives versioned rounds
      | _ => return

def isDirective : Token → Bool
  | .directive _ => true
  | _ => false

/-- Takes the marks of a document's end. -/
def documentEnds : (rounds : Nat) → Composer Unit
  | 0 => return
  | rounds + 1 => do
      if ← accept .documentEnd then
        documentEnds rounds

/-- Takes a document whose start is marked. -/
def markedDocument (rounds : Nat) : Composer Node := do
  directives false rounds
  if !(← accept .documentStart) then
    refuse
  let next ← peek
  if isDirective next || [.documentStart, .documentEnd, .streamEnd].contains next then
    return .empty unmarked
  else
    node true false rounds

/-- Takes the document of a text, if it has one, up to the end of the text. -/
def stream (rounds : Nat) : Composer (Option Node) := do
  let next ← peek
  if next == .streamEnd then
    return none
  let root ←
    if isDirective next || next == .documentStart then markedDocument rounds
    else node true false rounds
  documentEnds rounds
  if (← peek) == .streamEnd then
    return some root
  else
    refuse

end Composer

/-- The document of a text. -/
def Node.ofText? (text : List Char) : Option Node := do
  let tokens ← tokensOf? text
  let rounds := 4 * tokens.length + 4
  let (root, _) ← (Composer.stream rounds).run ⟨tokens, [], []⟩
  return root.getD (.empty Composer.unmarked)

end TypedClient.Yaml
