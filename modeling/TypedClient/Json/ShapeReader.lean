import TypedClient.Json.Shape
import TypedClient.Json.ValueReader

/-!
# Reading a shape from a text

A document is read along a shape without building the values that the shape does
not name. Faults of the text and of the shape are found in one pass, so the one
that stands first in the text is reported.
-/

namespace TypedClient.Json

namespace Reader

/-- Takes a value that does not fit, to tell what it is. A container is told by
its first byte, which stays in the text. -/
def readFound : Reader Found := do
  match ← peek? with
  | none => failAhead .expectedValue
  | some byte =>
      match readScalar? byte with
      | some scalar => return (← scalar).found
      | none =>
          if byte == openList then return .sequence
          else if byte == openObject then return .mapping
          else failAhead .expectedValue

/-- Refuses the next value because a shape was expected. -/
def refuseFor {α : Type} (shape : Shape) : Reader α := do
  let found ← readFound
  failHere (.wrongType found shape.expectation)

/-- Reports a fault of an object as a whole, behind the blanks and the closing
brace that may follow. -/
def failAfterEntry {α : Type} (fault : Fault) : Reader α := do
  if (← peekToken?) == some closeObject then skip
  failHere fault

/-- Reads the entries of a record. `place` reads the value of a key it knows. -/
def readFields {σ : Type} (place : σ → String → Option (Reader σ)) (rounds : Nat)
    (first : Bool) (slots : σ) : (entries : Nat) → Reader σ
  | 0 => failHere .endInObject
  | entries + 1 => do
      if ← moreEntries first then
        let key ← readKey
        match place slots key with
        | some next =>
            let placed ← next
            readFields place rounds false placed entries
        | none =>
            expectColon
            skipValue rounds
            readFields place rounds false slots entries
      else
        return slots

end Reader

open Reader

mutual

/-- Reads the value of a shape, with the containers that may still be opened. -/
def Shape.read (rounds : Nat) : (shape : Shape) → (depth : Nat) → Reader shape.Carrier
  | .value, depth => readValue depth rounds
  | .text, _ => do
      if (← peekToken .endInValue) == quoteByte then
        skip
        readText
      else
        refuseFor .text
  | .flag, _ => do
      let byte ← peekToken .endInValue
      if byte == 0x74 then
        expectWord "true"
        return true
      else if byte == 0x66 then
        expectWord "false"
        return false
      else
        refuseFor .flag
  | .optional inner, depth => do
      if (← peekToken?) == some 0x6E then
        expectWord "null"
        return Option.none
      else
        return some (← inner.read rounds depth)
  | .list item, depth => do
      if (← peekToken .endInValue) == openList then
        let inside ← enter depth
        let items ← readItems (item.read rounds inside) [] rounds
        closeItems
        return items.reverse
      else
        refuseFor (.list item)
  | .table item, depth => do
      if (← peekToken .endInValue) == openObject then
        let inside ← enter depth
        let entries ← readEntries (item.read rounds inside) true [] rounds
        skip
        return entries
      else
        refuseFor (.table item)
  | .record title fields, depth => do
      let byte ← peekToken .endInValue
      if byte == openObject then
        let inside ← enter depth
        let slots ← readFields (fun slots key => fields.readInto rounds slots key inside)
          rounds true fields.noSlots rounds
        skip
        match fields.close slots with
        | .ok carrier => return carrier
        | .error fault => failHere fault
      else if byte == openList then
        let inside ← enter depth
        let carrier ← fields.readItems rounds (fields.sequenceExpectation title) 0 inside
        closeItems
        return carrier
      else
        refuseFor (.record title fields)

/-- The reader of the value of a key into its slot, if a field has that key. -/
def Fields.readInto (rounds : Nat) : (fields : Fields) → fields.Slots → (key : String) →
    (depth : Nat) → Option (Reader fields.Slots)
  | .none, _, _, _ => Option.none
  | .field name shape _ others, (slot, rest), key, depth =>
      if name == key then
        some do
          if slot.isSome then
            failAfterEntry (.duplicateField name)
          else
            expectColon
            let value ← shape.read rounds depth
            return (some value, rest)
      else
        (others.readInto rounds rest key depth).map fun next => do
          let placed ← next
          return (slot, placed)

/-- Reads the fields of a record from the items of a list. -/
def Fields.readItems (rounds : Nat) : (fields : Fields) → (expected : String) →
    (index : Nat) → (depth : Nat) → Reader fields.Carrier
  | .none, _, _, _ => return ()
  | .field _ shape absence others, expected, index, depth => do
      if ← moreItems (index == 0) then
        let first ← shape.read rounds depth
        let following ← others.readItems rounds expected (index + 1) depth
        return (first, following)
      else if absence == .blank then
        let following ← others.readItems rounds expected (index + 1) depth
        return (shape.blank, following)
      else
        skip
        failHere (.wrongLength index expected)

end

/-- Reads a whole text along a shape. -/
def Shape.ofBytes (shape : Shape) (bytes : List UInt8) : Except ReadError shape.Carrier :=
  let read : Reader shape.Carrier := do
    let value ← shape.read (roundsFor bytes) maxDepth
    expectEnd
    return value
  (read.run (.start bytes)).map Prod.fst

end TypedClient.Json
