import TypedClient.Json.Fault

/-!
# A place in the text of a document

The bytes still to be read, with the position reached. A fault is reported either
where reading stands or one byte ahead, at the byte that was looked at.
-/

namespace TypedClient.Json

structure Cursor where
  rest : List UInt8
  line : Nat
  column : Nat

namespace Cursor

def start (bytes : List UInt8) : Cursor :=
  ⟨bytes, 1, 0⟩

/-- The place one byte on; the end stays where it is. -/
def next (cursor : Cursor) : Cursor :=
  match cursor.rest with
  | [] => cursor
  | 0x0A :: rest => ⟨rest, cursor.line + 1, 0⟩
  | _ :: rest => ⟨rest, cursor.line, cursor.column + 1⟩

def position (cursor : Cursor) : Position :=
  ⟨cursor.line, cursor.column⟩

end Cursor

/-- A reader takes a value off the front of the text. -/
abbrev Reader (α : Type) := StateT Cursor (Except ReadError) α

namespace Reader

variable {α : Type}

/-- Refuses the document at the place reached. -/
def failHere (fault : Fault) : Reader α := fun cursor =>
  .error ⟨fault, some cursor.position⟩

/-- Refuses the document at the byte that was looked at. -/
def failAhead (fault : Fault) : Reader α := fun cursor =>
  .error ⟨fault, some cursor.next.position⟩

/-- The next byte, which stays in the text. -/
def peek? : Reader (Option UInt8) := fun cursor =>
  .ok (cursor.rest.head?, cursor)

/-- Takes the next byte off the text. -/
def next? : Reader (Option UInt8) := fun cursor =>
  .ok (cursor.rest.head?, cursor.next)

def skip : Reader Unit := fun cursor =>
  .ok ((), cursor.next)

def isBlankByte (byte : UInt8) : Bool :=
  byte == 0x20 || byte == 0x0A || byte == 0x09 || byte == 0x0D

/-- The place after the bytes of a class, for a text of at most `count` of them. -/
def skipFrom (test : UInt8 → Bool) (cursor : Cursor) : (count : Nat) → Cursor
  | 0 => cursor
  | count + 1 =>
      match cursor.rest with
      | [] => cursor
      | byte :: _ => if test byte then skipFrom test cursor.next count else cursor

/-- Skips all bytes of a class. -/
def skipWhile (test : UInt8 → Bool) : Reader Unit := fun cursor =>
  .ok ((), skipFrom test cursor cursor.rest.length)

/-- Skips blanks and looks at the byte after them. -/
def peekToken? : Reader (Option UInt8) := do
  skipWhile isBlankByte
  peek?

/-- Skips blanks and looks at the byte after them, which must be there. -/
def peekToken (atEnd : Fault) : Reader UInt8 := do
  match ← peekToken? with
  | some byte => return byte
  | none => failAhead atEnd

/-- The bytes of an ASCII text. -/
def ascii (text : String) : List UInt8 :=
  text.toList.map fun c => c.toUInt8

/-- Takes the given bytes off the text. -/
def expectBytes : List UInt8 → Reader Unit
  | [] => return
  | expected :: rest => do
      match ← next? with
      | none => failHere .endInValue
      | some byte =>
          if byte == expected then expectBytes rest else failHere .expectedWord

end Reader

end TypedClient.Json
