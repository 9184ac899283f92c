import TypedClient.Yaml.BlockScalar
import TypedClient.Yaml.PlainScalar
import TypedClient.Yaml.Token

/-!
# Splitting a YAML text into tokens

A scalar or a collection may turn out to be a mapping key when a colon follows it.
The lexer therefore remembers, for every level of flow collections, where a
possible key started; a key must end on its line and within a bounded length.
-/

namespace TypedClient.Yaml

/-- A place where a key may have started. In block syntax a key at the current
indentation is required to be one. -/
structure PossibleKey where
  required : Bool
  tokensBefore : Nat
  index : Nat
  line : Nat
  column : Nat

/-- The greatest number of characters in a key without a mark. -/
def maxKeyLength : Nat := 1024

/-- The state between two tokens. `tokens` holds the newest token first. The lists
of outer keys and outer indents start with the innermost level. -/
structure Lexer where
  place : Place
  tokens : List Token
  tokenCount : Nat
  key : Option PossibleKey
  outerKeys : List (Option PossibleKey)
  indent : Int
  outerIndents : List Int
  keyAllowed : Bool

namespace Lexer

def start (text : List Char) : Lexer :=
  ⟨.start text, [], 0, none, [], -1, [], true⟩

/-- Whether the lexer is inside a flow collection. -/
def inFlow (lexer : Lexer) : Bool :=
  !lexer.outerKeys.isEmpty

def push (token : Token) (lexer : Lexer) : Lexer :=
  { lexer with tokens := token :: lexer.tokens, tokenCount := lexer.tokenCount + 1 }

/-- Puts a token before the tokens that came after a given number of them. -/
def insertAt (position : Nat) (token : Token) (lexer : Lexer) : Lexer :=
  let later := lexer.tokenCount - position
  { lexer with
    tokens := lexer.tokens.take later ++ token :: lexer.tokens.drop later
    tokenCount := lexer.tokenCount + 1 }

def moveTo (place : Place) (lexer : Lexer) : Lexer :=
  { lexer with place := place }

def skip (count : Nat) (lexer : Lexer) : Lexer :=
  lexer.moveTo (lexer.place.advance count)

def allowKey (allowed : Bool) (lexer : Lexer) : Lexer :=
  { lexer with keyAllowed := allowed }

/-- Gives up a possible key, which must not be a required one. -/
def dropKey? (lexer : Lexer) : Option Lexer :=
  if lexer.key.any PossibleKey.required then none else some { lexer with key := none }

/-- Remembers that a key may start here. -/
def saveKey? (lexer : Lexer) : Option Lexer :=
  if lexer.keyAllowed then do
    let place := lexer.place
    let cleared ← lexer.dropKey?
    return { cleared with
      key := some
        { required := !lexer.inFlow && lexer.indent == place.column
          tokensBefore := lexer.tokenCount
          index := place.index
          line := place.line
          column := place.column } }
  else
    some lexer

/-- Whether a key that started earlier can no longer be completed. -/
def isStale (place : Place) (key : PossibleKey) : Bool :=
  key.line < place.line || key.index + maxKeyLength < place.index

/-- A possible key, unless it is stale. A required key must not be. -/
def freshKey? (place : Place) : Option PossibleKey → Option (Option PossibleKey)
  | none => some none
  | some key =>
      if !isStale place key then some (some key)
      else if key.required then none
      else some none

/-- Gives up the keys that can no longer be completed. -/
def dropStaleKeys? (lexer : Lexer) : Option Lexer := do
  let key ← freshKey? lexer.place lexer.key
  let outerKeys ← lexer.outerKeys.mapM (freshKey? lexer.place)
  return { lexer with key := key, outerKeys := outerKeys }

/-- Starts a block collection if the column is deeper than the indentation. -/
def indentTo (column : Nat) (position : Nat) (token : Token) (lexer : Lexer) : Lexer :=
  if !lexer.inFlow && lexer.indent < column then
    { lexer with indent := column, outerIndents := lexer.indent :: lexer.outerIndents }.insertAt
      position token
  else
    lexer

/-- Ends the block collections that are indented deeper than the column. -/
def outdentFrom (column : Int) : (indent : Int) → (outerIndents : List Int) → Lexer → Lexer
  | indent, [], lexer => { lexer with indent := indent, outerIndents := [] }
  | indent, outer :: others, lexer =>
      if column < indent then
        outdentFrom column outer others (lexer.push .blockEnd)
      else
        { lexer with indent := indent, outerIndents := outer :: others }

def outdentTo (column : Int) (lexer : Lexer) : Lexer :=
  if lexer.inFlow then lexer else outdentFrom column lexer.indent lexer.outerIndents lexer

/-- The place of the next token, with whether a key may start there. Tabs count as
blanks unless they could indent a block line. -/
def skipBlanks (inFlow : Bool) : (rounds : Nat) → (keyAllowed : Bool) → Place → Bool × Place
  | 0, keyAllowed, place => (keyAllowed, place)
  | rounds + 1, keyAllowed, place =>
      let marked :=
        if place.index == 0 && place.sees (· == '\ufeff') then place.advance 1 else place
      let ended :=
        (marked.skipWhile fun c => c == ' ' || (c == '\t' && (inFlow || !keyAllowed))).skipComment
      if ended.sees isBreak then
        skipBlanks inFlow rounds (keyAllowed || !inFlow) ended.takeBreak.2
      else
        (keyAllowed, ended)

def toNextToken (lexer : Lexer) : Lexer :=
  let (keyAllowed, place) :=
    skipBlanks lexer.inFlow (lexer.place.rest.length + 1) lexer.keyAllowed lexer.place
  (lexer.moveTo place).allowKey keyAllowed

/-- Ends the tokens. -/
def fetchEnd? (lexer : Lexer) : Option Lexer := do
  let closed ← (lexer.outdentTo (-1)).dropKey?
  return (closed.allowKey false).push .streamEnd

def fetchDirective? (lexer : Lexer) : Option Lexer := do
  let closed ← (lexer.outdentTo (-1)).dropKey?
  let (directive, after) ← Directive.scan lexer.place
  return ((closed.allowKey false).moveTo after).push (.directive directive)

/-- Takes the mark of a document's start or end. -/
def fetchDocumentMark? (token : Token) (lexer : Lexer) : Option Lexer := do
  let closed ← (lexer.outdentTo (-1)).dropKey?
  return ((closed.allowKey false).skip 3).push token

def fetchFlowStart? (token : Token) (lexer : Lexer) : Option Lexer := do
  let saved ← lexer.saveKey?
  return (({ saved with key := none, outerKeys := saved.key :: saved.outerKeys }.allowKey
    true).skip 1).push token

/-- Leaves a flow collection; outside of one the keys stay as they are. -/
def leaveFlow (lexer : Lexer) : Lexer :=
  match lexer.outerKeys with
  | [] => lexer
  | key :: others => { lexer with key := key, outerKeys := others }

def fetchFlowEnd? (token : Token) (lexer : Lexer) : Option Lexer := do
  let closed ← lexer.dropKey?
  return ((closed.leaveFlow.allowKey false).skip 1).push token

def fetchFlowEntry? (lexer : Lexer) : Option Lexer := do
  let closed ← lexer.dropKey?
  return ((closed.allowKey true).skip 1).push .flowEntry

/-- Starts a block collection for a mark in block syntax, where one may start. -/
def openBlock? (token : Token) (lexer : Lexer) : Option Lexer :=
  if lexer.inFlow then some lexer
  else if lexer.keyAllowed then
    some (lexer.indentTo lexer.place.column lexer.tokenCount token)
  else none

def fetchBlockEntry? (lexer : Lexer) : Option Lexer := do
  let opened ← lexer.openBlock? .blockSequenceStart
  let closed ← opened.dropKey?
  return ((closed.allowKey true).skip 1).push .blockEntry

def fetchKey? (lexer : Lexer) : Option Lexer := do
  let opened ← lexer.openBlock? .blockMappingStart
  let closed ← opened.dropKey?
  return ((closed.allowKey (!lexer.inFlow)).skip 1).push .key

/-- Takes a colon. If a key may have started before, it is marked now; otherwise the
key is empty. -/
def fetchValue? (lexer : Lexer) : Option Lexer := do
  let marked ←
    match lexer.key with
    | some key =>
        let keyed := lexer.insertAt key.tokensBefore .key
        let opened := keyed.indentTo key.column key.tokensBefore .blockMappingStart
        some ({ opened with key := none }.allowKey false)
    | none => do
        let opened ← lexer.openBlock? .blockMappingStart
        some (opened.allowKey (!lexer.inFlow))
  return (marked.skip 1).push .value

/-- Takes a token that may start a key. -/
def fetchKeyed? (scan : Place → Option (Token × Place)) (lexer : Lexer) : Option Lexer := do
  let saved ← lexer.saveKey?
  let (token, after) ← scan lexer.place
  return ((saved.allowKey false).moveTo after).push token

def fetchBlockScalar? (literal : Bool) (lexer : Lexer) : Option Lexer := do
  let closed ← lexer.dropKey?
  let (text, after) ← BlockScalar.scan literal lexer.indent lexer.place
  return ((closed.allowKey true).moveTo after).push (.scalar false text)

/-- Takes a plain scalar. A key may follow if it goes on to another line. -/
def fetchPlain? (lexer : Lexer) : Option Lexer := do
  let saved ← lexer.saveKey?
  let scalar ← PlainScalar.scan lexer.inFlow (lexer.indent + 1) lexer.place
  return ((saved.allowKey scalar.broken).moveTo scalar.place).push (.scalar true scalar.text)

/-- The marks that cannot start a plain scalar. -/
def indicators : List Char :=
  "-?:,[]\x7b\x7d#&*!|>'\"%@`".toList

/-- Whether a plain scalar can start with a character, given the text after it. -/
def startsPlain (inFlow : Bool) (c : Char) (rest : List Char) : Bool :=
  !(isBlankOrBreak c || indicators.contains c) || (c == '-' && !rest.head?.any isBlank) ||
    (!inFlow && (c == '?' || c == ':') && !endsWord rest)

/-- Takes the token that starts with a character. -/
def fetchFrom? (lexer : Lexer) (c : Char) (rest : List Char) : Option Lexer :=
  let inFlow := lexer.inFlow
  let marksEntry := inFlow || endsWord rest
  if lexer.place.column == 0 && c == '%' then lexer.fetchDirective?
  else if lexer.place.startsWithMarks '-' then lexer.fetchDocumentMark? .documentStart
  else if lexer.place.startsWithMarks '.' then lexer.fetchDocumentMark? .documentEnd
  else if c == '[' then lexer.fetchFlowStart? .flowSequenceStart
  else if c == '\x7b' then lexer.fetchFlowStart? .flowMappingStart
  else if c == ']' then lexer.fetchFlowEnd? .flowSequenceEnd
  else if c == '\x7d' then lexer.fetchFlowEnd? .flowMappingEnd
  else if c == ',' then lexer.fetchFlowEntry?
  else if c == '-' && endsWord rest then lexer.fetchBlockEntry?
  else if c == '?' && marksEntry then lexer.fetchKey?
  else if c == ':' && marksEntry then lexer.fetchValue?
  else if c == '*' then
    lexer.fetchKeyed? fun place =>
      (scanAnchor place).map fun (name, after) => (.reference name, after)
  else if c == '&' then
    lexer.fetchKeyed? fun place =>
      (scanAnchor place).map fun (name, after) => (.anchor name, after)
  else if c == '!' then
    lexer.fetchKeyed? fun place =>
      (TagText.scan inFlow place).map fun (tag, after) => (.tag tag, after)
  else if c == '|' && !inFlow then lexer.fetchBlockScalar? true
  else if c == '>' && !inFlow then lexer.fetchBlockScalar? false
  else if c == '\'' || c == '"' then
    lexer.fetchKeyed? fun place =>
      (QuotedScalar.scan (c == '\'') place).map fun (text, after) => (.scalar false text, after)
  else if startsPlain inFlow c rest then lexer.fetchPlain?
  else none

/-- Takes the next token, with the block collections that end before it. -/
def fetch? (lexer : Lexer) : Option Lexer := do
  let fresh ← lexer.toNextToken.dropStaleKeys?
  let ready := fresh.outdentTo fresh.place.column
  match ready.place.rest with
  | [] => ready.fetchEnd?
  | c :: rest => ready.fetchFrom? c rest

/-- Takes all tokens. -/
def fetchAll? : (rounds : Nat) → Lexer → Option Lexer
  | 0, _ => none
  | rounds + 1, lexer => do
      let next ← lexer.fetch?
      if next.tokens.head? == some .streamEnd then return next else fetchAll? rounds next

end Lexer

/-- The tokens of a text. -/
def tokensOf? (text : List Char) : Option (List Token) :=
  (Lexer.fetchAll? (text.length + 1) (.start text)).map fun lexer => lexer.tokens.reverse

end TypedClient.Yaml
