import TypedClient.Keyed

/-!
# JSON values

Values with their object entries in document order. Reading keeps the keys of an
object distinct: a repeated key keeps its first position and its last value.
-/

namespace TypedClient.Json

/-- A number is an integer of at most 64 bits, or a 64-bit float given by its
bits. -/
inductive Number where
  | integer (value : Int)
  | float (bits : UInt64)
  deriving DecidableEq, Repr

inductive Value where
  | null
  | boolean (value : Bool)
  | number (value : Number)
  | text (value : String)
  | sequence (items : List Value)
  | mapping (entries : List (String × Value))
  deriving Repr, Inhabited

/-- Sets the value of a key: in place if the key is present, at the end if not. -/
def putEntry {α : Type} (key : String) (value : α) (entries : List (String × α)) :
    List (String × α) :=
  Keyed.put Prod.fst (key, value) entries

namespace Value

def entries? : Value → Option (List (String × Value))
  | mapping entries => some entries
  | _ => none

def items? : Value → Option (List Value)
  | sequence items => some items
  | _ => none

def text? : Value → Option String
  | text value => some value
  | _ => none

/-- The value of a key, if the value is a mapping that has it. -/
def get? (value : Value) (key : String) : Option Value :=
  value.entries?.bind (List.lookup key)

end Value

end TypedClient.Json
