import TypedClient.Json.Shape

/-!
# Reading a shape from a value

A value is taken apart along a shape. The first thing that does not fit, in
document order, is the fault.
-/

namespace TypedClient.Json

def refuse {α : Type} (value : Value) (shape : Shape) : Except Fault α :=
  .error (.wrongType value.found shape.expectation)

/-- What is left of a sequence after a record's fields must be nothing. -/
def refuseExcess (items : List Value) (left : List Value) : Except Fault Unit :=
  if left.isEmpty then .ok ()
  else .error (.wrongLength items.length "fewer elements in array")

mutual

/-- The value of a shape that a JSON value holds. -/
def Shape.ofValue : (shape : Shape) → Value → Except Fault shape.Carrier
  | .value, value => .ok value
  | .text, value =>
      match value with
      | .text content => Except.ok content
      | other => refuse other .text
  | .flag, value =>
      match value with
      | .boolean content => Except.ok content
      | other => refuse other .flag
  | .optional inner, value =>
      match value with
      | .null => Except.ok Option.none
      | other => (inner.ofValue other).map some
  | .list item, value =>
      match value with
      | .sequence items => items.mapM fun value => item.ofValue value
      | other => refuse other (.list item)
  | .table item, value =>
      match value with
      | .mapping entries =>
          entries.mapM fun (key, value) => (item.ofValue value).map fun read => (key, read)
      | other => refuse other (.table item)
  | .record title fields, value =>
      match value with
      | .mapping entries => do
          let slots ← entries.foldlM
            (fun slots (key, value) => fields.place slots key value) fields.noSlots
          fields.close slots
      | .sequence items => do
          let (carrier, left) ← fields.ofItems (fields.sequenceExpectation title) 0 items
          refuseExcess items left
          return carrier
      | other => refuse other (.record title fields)

/-- Puts the value of a key into its slot; other keys are ignored. -/
def Fields.place : (fields : Fields) → fields.Slots → String → Value → Except Fault fields.Slots
  | .none, slots, _, _ => .ok slots
  | .field name shape _ others, (slot, rest), key, value =>
      if name == key then
        (shape.ofValue value).map fun read => (some read, rest)
      else
        (others.place rest key value).map fun placed => (slot, placed)

/-- Takes the fields from the front of a sequence. `index` fields of the record
come before these, and `expected` is what a message says the record expects. -/
def Fields.ofItems : (fields : Fields) → (expected : String) → (index : Nat) → List Value →
    Except Fault (fields.Carrier × List Value)
  | .none, _, _, items => .ok ((), items)
  | .field _ shape absence others, expected, index, [] => do
      if absence != .blank then
        Except.error (.wrongLength index expected)
      let (following, left) ← others.ofItems expected (index + 1) []
      return ((shape.blank, following), left)
  | .field _ shape _ others, expected, index, item :: items => do
      let first ← shape.ofValue item
      let (following, left) ← others.ofItems expected (index + 1) items
      return ((first, following), left)

end

end TypedClient.Json
