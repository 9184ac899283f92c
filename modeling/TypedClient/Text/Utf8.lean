/-!
# Text from bytes

Bytes are read as UTF-8, character by character. Bytes that start no character are
kept as faults, so a text can be read strictly, where the first fault counts, or
leniently, where every fault becomes a replacement character.
-/

namespace TypedClient.Text.Utf8

/-- Bytes at an index that are no character. There are `length` of them, unless the
bytes end inside a character. -/
structure Fault where
  index : Nat
  length : Option Nat
  deriving DecidableEq, Repr

def Fault.message : Fault → String
  | ⟨index, some length⟩ =>
      "invalid utf-8 sequence of " ++ toString length ++ " bytes from index " ++ toString index
  | ⟨index, none⟩ => "incomplete utf-8 byte sequence from index " ++ toString index

/-- The bits that a character starts with, how many bytes follow, and the range of the
first of them. The range leaves out longer forms than needed, surrogates, and codes
beyond the last one. -/
structure Lead where
  bits : Nat
  following : Nat
  low : Nat
  high : Nat

def leadOf? (byte : Nat) : Option Lead :=
  if byte < 0x80 then some ⟨byte, 0, 0, 0⟩
  else if byte < 0xC2 then none
  else if byte < 0xE0 then some ⟨byte - 0xC0, 1, 0x80, 0xBF⟩
  else if byte < 0xF0 then
    some ⟨byte - 0xE0, 2, if byte = 0xE0 then 0xA0 else 0x80, if byte = 0xED then 0x9F else 0xBF⟩
  else if byte < 0xF5 then
    some ⟨byte - 0xF0, 3, if byte = 0xF0 then 0x90 else 0x80, if byte = 0xF4 then 0x8F else 0xBF⟩
  else none

/-- A character whose bytes are not all read: its index, the bytes taken and their
bits, how many bytes are missing, and the range of the next one. -/
structure Begun where
  index : Nat
  taken : Nat
  bits : Nat
  missing : Nat
  low : Nat
  high : Nat

/-- The characters and faults that a byte settles, and the character that it leaves
begun, if the byte is the first one of a character. -/
def start (index byte : Nat) : List (Except Fault Char) × Option Begun :=
  match leadOf? byte with
  | none => ([.error ⟨index, some 1⟩], none)
  | some lead =>
      if lead.following = 0 then
        ([.ok (Char.ofNat lead.bits)], none)
      else
        ([], some ⟨index, 1, lead.bits, lead.following, lead.low, lead.high⟩)

/-- The same for any byte. A byte that cannot continue the character at hand may start
another one. -/
def step (index : Nat) (begun? : Option Begun) (byte : Nat) :
    List (Except Fault Char) × Option Begun :=
  match begun? with
  | none => start index byte
  | some begun =>
      if begun.low ≤ byte ∧ byte ≤ begun.high then
        let bits := begun.bits * 64 + byte % 64
        if begun.missing ≤ 1 then
          ([.ok (Char.ofNat bits)], none)
        else
          ([], some ⟨begun.index, begun.taken + 1, bits, begun.missing - 1, 0x80, 0xBF⟩)
      else
        let (settled, next) := start index byte
        (.error ⟨begun.index, some begun.taken⟩ :: settled, next)

/-- The characters and faults of the bytes from an index on, after the character at
hand if there is one. -/
def piecesFrom (index : Nat) (begun? : Option Begun) : List UInt8 → List (Except Fault Char)
  | [] => (begun?.map fun begun => .error ⟨begun.index, none⟩).toList
  | byte :: rest =>
      let (settled, next) := step index begun? byte.toNat
      settled ++ piecesFrom (index + 1) next rest

def pieces (bytes : List UInt8) : List (Except Fault Char) :=
  piecesFrom 0 none bytes

/-- The text that the bytes spell, or the first fault. -/
def decode (bytes : List UInt8) : Except Fault String :=
  ((pieces bytes).mapM id).map String.ofList

/-- The text of the bytes with a replacement character for every fault. -/
def decodeLossy (bytes : List UInt8) : String :=
  String.ofList ((pieces bytes).map fun
    | .ok c => c
    | .error _ => '\uFFFD')

def encode (text : String) : List UInt8 :=
  text.toUTF8.toList

end TypedClient.Text.Utf8
