import TypedClient.Yaml.Gap

/-!
# Quoted scalars

Between single quotes only the quote itself is written twice. Between double
quotes a backslash starts an escape, and before a line break it drops the break.
-/

namespace TypedClient.Yaml.QuotedScalar

def hexValue? (c : Char) : Option Nat :=
  if c.isDigit then some (c.toNat - 0x30)
  else if 'a' ≤ c ∧ c ≤ 'f' then some (c.toNat - 0x57)
  else if 'A' ≤ c ∧ c ≤ 'F' then some (c.toNat - 0x37)
  else none

/-- The number written by some hexadecimal digits. -/
def hexNumber? (digits : List Char) : Option Nat :=
  digits.foldlM (fun number c => (hexValue? c).map fun value => number * 16 + value) 0

def charOfCode? (code : Nat) : Option Char :=
  if code.isValidChar then some (Char.ofNat code) else none

/-- The number of digits after an escape letter that gives a character by its
code. -/
def codeLength? : Char → Option Nat
  | 'x' => some 2
  | 'u' => some 4
  | 'U' => some 8
  | _ => none

/-- The characters with an escape of one letter. -/
def shortEscape? : Char → Option Char
  | '0' => some '\x00'
  | 'a' => some '\x07'
  | 'b' => some '\x08'
  | 't' => some '\t'
  | '\t' => some '\t'
  | 'n' => some '\n'
  | 'v' => some '\x0b'
  | 'f' => some '\x0c'
  | 'r' => some '\r'
  | 'e' => some '\x1b'
  | ' ' => some ' '
  | '"' => some '"'
  | '/' => some '/'
  | '\\' => some '\\'
  | 'N' => some '\u0085'
  | '_' => some '\u00a0'
  | 'L' => some '\u2028'
  | 'P' => some '\u2029'
  | _ => none

/-- The character that an escape stands for and the length of the escape, for the
text after the backslash. -/
def escape? : List Char → Option (Char × Nat)
  | [] => none
  | c :: rest =>
      match codeLength? c with
      | none => (shortEscape? c).map fun meant => (meant, 1)
      | some length =>
          if (rest.take length).length = length then do
            let meant ← charOfCode? (← hexNumber? (rest.take length))
            return (meant, length + 1)
          else
            none

/-- The characters up to the next blank, break or closing quote. -/
structure Word where
  text : List Char
  place : Place
  brokenByEscape : Bool

def Word.cons (c : Char) (word : Word) : Word :=
  { word with text := c :: word.text }

def singleWord : (rounds : Nat) → Place → Word
  | 0, place => ⟨[], place, false⟩
  | rounds + 1, place =>
      match place.rest with
      | '\'' :: '\'' :: _ => (singleWord rounds (place.advance 2)).cons '\''
      | '\'' :: _ => ⟨[], place, false⟩
      | [] => ⟨[], place, false⟩
      | c :: _ =>
          if isBlankOrBreak c then ⟨[], place, false⟩
          else (singleWord rounds (place.advance 1)).cons c

def doubleWord? : (rounds : Nat) → Place → Option Word
  | 0, place => some ⟨[], place, false⟩
  | rounds + 1, place =>
      match place.rest with
      | '"' :: _ => some ⟨[], place, false⟩
      | [] => some ⟨[], place, false⟩
      | '\\' :: rest =>
          if rest.head?.any isBreak then
            some ⟨[], (place.advance 1).takeBreak.2, true⟩
          else do
            let (meant, length) ← escape? rest
            return (← doubleWord? rounds (place.advance (length + 1))).cons meant
      | c :: _ =>
          if isBlankOrBreak c then some ⟨[], place, false⟩
          else (doubleWord? rounds (place.advance 1)).map (Word.cons c)

def quoteChar (single : Bool) : Char :=
  if single then '\'' else '"'

/-- Scans the words up to the closing quote. -/
def scanFrom (single : Bool) : (rounds : Nat) → Place → Option (List Char × Place)
  | 0, _ => none
  | rounds + 1, place =>
      if place.atDocumentMark || place.rest.isEmpty then
        none
      else do
        let length := place.rest.length
        let word ←
          if single then some (singleWord length place) else doubleWord? length place
        if word.place.sees (· == quoteChar single) then
          return (word.text, word.place.advance 1)
        let gap := if word.brokenByEscape then Gap.escaped else Gap.none
        let (gap, after) ← Gap.take 0 word.place.rest.length gap word.place
        let (others, ended) ← scanFrom single rounds after
        return (word.text ++ gap.folded ++ others, ended)

/-- Scans a quoted scalar at its opening quote. -/
def scan (single : Bool) (place : Place) : Option (List Char × Place) :=
  scanFrom single (place.rest.length + 1) (place.advance 1)

end TypedClient.Yaml.QuotedScalar
