import TypedClient.Json.Fault

/-!
# Shapes of values

A shape says which values are acceptable at some place of a document and which
Lean type such a value has once it is read. A record may be written as a mapping
with its fields as keys, or as a sequence of its fields in order.
-/

namespace TypedClient.Json

/-- What an absent field of a record means. -/
inductive Absence where
  /-- The field must be present. -/
  | refused
  /-- A mapping may leave the field out, a sequence may not. -/
  | refusedInSequence
  /-- The field is blank when left out. -/
  | blank
  deriving DecidableEq, Repr

mutual

inductive Shape where
  | value
  | text
  | flag
  | optional (inner : Shape)
  | list (item : Shape)
  | table (item : Shape)
  | record (title : String) (fields : Fields)

/-- The fields of a record, in order. -/
inductive Fields where
  | none
  | field (key : String) (shape : Shape) (absence : Absence) (others : Fields)

end

mutual

/-- The type of the values that have a shape. -/
def Shape.Carrier : Shape → Type
  | .value => Value
  | .text => String
  | .flag => Bool
  | .optional inner => Option inner.Carrier
  | .list item => List item.Carrier
  | .table item => List (String × item.Carrier)
  | .record _ fields => fields.Carrier

def Fields.Carrier : Fields → Type
  | .none => Unit
  | .field _ shape _ others => shape.Carrier × others.Carrier

end

/-- The fields of a record read so far. -/
def Fields.Slots : Fields → Type
  | .none => Unit
  | .field _ shape _ others => Option shape.Carrier × others.Slots

def Fields.noSlots : (fields : Fields) → fields.Slots
  | .none => ()
  | .field _ _ _ others => (Option.none, others.noSlots)

mutual

/-- The blank value of a shape. -/
def Shape.blank : (shape : Shape) → shape.Carrier
  | .value => Value.null
  | .text => ""
  | .flag => false
  | .optional _ => Option.none
  | .list _ => []
  | .table _ => []
  | .record _ fields => fields.blank

def Fields.blank : (fields : Fields) → fields.Carrier
  | .none => ()
  | .field _ shape _ others => (shape.blank, others.blank)

end

def Fields.count : Fields → Nat
  | .none => 0
  | .field _ _ _ others => others.count + 1

/-- How a message names what a shape expects. -/
def Shape.expectation : Shape → String
  | .value => "any valid JSON value"
  | .text => "a string"
  | .flag => "a boolean"
  | .optional _ => "option"
  | .list _ => "a sequence"
  | .table _ => "a map"
  | .record title _ => "struct " ++ title

/-- How a message names the sequence form of a record. -/
def Fields.sequenceExpectation (fields : Fields) (title : String) : String :=
  "struct " ++ title ++ " with " ++ toString fields.count ++
    (if fields.count = 1 then " element" else " elements")

/-- The record made of the slots of a mapping: absent fields are filled in, or
refused in the order of the fields. -/
def Fields.close : (fields : Fields) → fields.Slots → Except Fault fields.Carrier
  | .none, _ => .ok ()
  | .field key shape absence others, (slot, rest) => do
      let first ← match slot, absence with
        | some value, _ => Except.ok value
        | Option.none, .refused => .error (.missingField key)
        | Option.none, _ => .ok shape.blank
      let following ← others.close rest
      return (first, following)

end TypedClient.Json
