import TypedClient.Json.Fault
import TypedClient.Yaml.Composition
import TypedClient.Yaml.CoreSchema

/-!
# YAML documents as values

A document becomes a value by following its references and understanding its
scalars. A node with a tag of its own becomes a mapping from the tag to the value.
A value is turned into JSON last: its keys become texts.
-/

namespace TypedClient.Yaml

open Json CoreSchema

/-- A value whose keys can be any values. -/
inductive YamlValue where
  | scalar (value : Scalar)
  | sequence (items : List YamlValue)
  | mapping (entries : List (YamlValue × YamlValue))
  | tagged (tag : String) (value : YamlValue)
  deriving Repr, Inhabited

namespace YamlValue

/-- Whether two bit patterns are the same number; all undefined numbers are. -/
def sameFloat (left right : UInt64) : Bool :=
  let leftFloat := Float.ofBits left
  let rightFloat := Float.ofBits right
  leftFloat == rightFloat || (leftFloat.isNaN && rightFloat.isNaN)

def sameScalar : Scalar → Scalar → Bool
  | .number (.float left), .number (.float right) => sameFloat left right
  | left, right => left == right

mutual

/-- Whether two values are the same key. The order of a mapping does not count. -/
def same : (rounds : Nat) → YamlValue → YamlValue → Bool
  | 0, _, _ => false
  | _ + 1, .scalar left, .scalar right => sameScalar left right
  | rounds + 1, .sequence left, .sequence right => sameItems rounds left right
  | rounds + 1, .mapping left, .mapping right =>
      left.length == right.length && left.all fun entry => hasEntry rounds entry right
  | rounds + 1, .tagged leftTag left, .tagged rightTag right =>
      leftTag == rightTag && same rounds left right
  | _, _, _ => false

def sameItems : (rounds : Nat) → List YamlValue → List YamlValue → Bool
  | 0, _, _ => false
  | _ + 1, [], [] => true
  | rounds + 1, left :: lefts, right :: rights =>
      same rounds left right && sameItems rounds lefts rights
  | _, _, _ => false

def hasEntry : (rounds : Nat) → YamlValue × YamlValue → List (YamlValue × YamlValue) → Bool
  | 0, _, _ => false
  | rounds + 1, (key, value), entries =>
      entries.any fun (otherKey, other) => same rounds key otherKey && same rounds value other

end

mutual

/-- The number of parts of a value. -/
def size : YamlValue → Nat
  | .scalar _ => 1
  | .sequence items => 1 + itemsSize items
  | .mapping entries => 1 + entriesSize entries
  | .tagged _ value => 1 + value.size

def itemsSize : List YamlValue → Nat
  | [] => 1
  | item :: rest => 1 + item.size + itemsSize rest

def entriesSize : List (YamlValue × YamlValue) → Nat
  | [] => 1
  | (key, value) :: rest => 1 + key.size + value.size + entriesSize rest

end

/-- Whether a key is among those of a mapping. -/
def hasKey (entries : List (YamlValue × YamlValue)) (key : YamlValue) : Bool :=
  entries.any fun (other, _) => same (2 * key.size + 2) key other

/-- A tag as the key of the mapping that stands for a tagged value. -/
def tagKey (tag : String) : String :=
  match tag.toList with
  | '!' :: c :: rest => String.ofList ('!' :: c :: rest)
  | chars => String.ofList ('!' :: chars)

/-- A key as the text of a JSON key. -/
def keyText : YamlValue → Except Fault String
  | scalar (.text text) => .ok text
  | scalar (.boolean value) => .ok (if value then "true" else "false")
  | scalar (.number (.integer number)) => .ok (toString number)
  | scalar (.number (.float bits)) =>
      if isFiniteBits bits then .ok (floatText bits) else .error .keyNotFinite
  | _ => .error .keyNotText

def scalarJson : Scalar → Value
  | .null => .null
  | .boolean value => .boolean value
  | .number (.integer number) => .number (.integer number)
  | .number (.float bits) => if isFiniteBits bits then .number (.float bits) else .null
  | .text text => .text text

mutual

/-- The JSON value of a value. Keys with the same text are one key. -/
def toJson : YamlValue → Except Fault Value
  | .scalar value => .ok (scalarJson value)
  | .sequence items => (itemsToJson items).map .sequence
  | .mapping entries => (entriesToJson [] entries).map .mapping
  | .tagged tag value => value.toJson.map fun inner => .mapping [(tagKey tag, inner)]

def itemsToJson : List YamlValue → Except Fault (List Value)
  | [] => .ok []
  | item :: rest => do
      let first ← item.toJson
      let others ← itemsToJson rest
      return first :: others

def entriesToJson (taken : List (String × Value)) :
    List (YamlValue × YamlValue) → Except Fault (List (String × Value))
  | [] => .ok taken
  | (key, value) :: rest => do
      let text ← keyText key
      let inner ← value.toJson
      entriesToJson (putEntry text inner taken) rest

end

end YamlValue

/-- What resolving a document looks up, and how often it may follow references. -/
structure References where
  anchored : List (Nat × Node)
  limit : Nat

/-- Resolving counts the references it follows. -/
abbrev Resolver (α : Type) := StateT Nat Option α

namespace Resolver

/-- The node that a node stands for. -/
def dereference (references : References) : Node → Resolver (Node × Bool)
  | .reference number => fun followed =>
      if references.limit ≤ followed then none
      else (references.anchored.lookup number).map fun node => ((node, true), followed + 1)
  | node => fun followed => some ((node, false), followed)

/-- The tag that a node has of its own, which starts with a mark. -/
def ownTag? (marks : NodeMarks) : Option String :=
  match marks.tag.map String.toList with
  | some ['!'] => some "!"
  | some ('!' :: rest) => some (String.ofList rest)
  | _ => none

/-- The value of a scalar. Inside a value with a tag of its own only the spelling
counts. -/
def scalarValue (insideTag : Bool) (marks : NodeMarks) (plain : Bool) (text : String) :
    Option YamlValue :=
  let meaning :=
    match marks.tag with
    | some tag =>
        if !insideTag then taggedMeaning tag text
        else if plain then plainMeaning text
        else some (.text text)
    | none => if plain then plainMeaning text else some (.text text)
  meaning.map .scalar

/-- Puts a value under the tag of its node. -/
def underTag (tag : Option String) (value : YamlValue) : YamlValue :=
  match tag with
  | none => value
  | some tag => .tagged tag value

/-- The greatest number of collections around a value. -/
def maxDepth : Nat := 128

/-- The value of a node, with the number of collections it may still be put in. The
keys of a tagged mapping are inside the tag as well. -/
def value (references : References) : (depth : Nat) → (insideTag : Bool) → Node → Resolver YamlValue
  | depth, insideTag, node => do
      let (target, jumped) ← dereference references node
      let insideTag := insideTag && !jumped
      let tagOf (marks : NodeMarks) := if insideTag then none else ownTag? marks
      match target, depth with
      | .scalar marks plain text, _ =>
          let tag := tagOf marks
          let inner ← scalarValue (insideTag || tag.isSome) marks plain text
          return underTag tag inner
      | .sequence marks items, depth + 1 => do
          let values ← items.mapM fun item => value references depth false item
          return underTag (tagOf marks) (.sequence values)
      | .mapping marks entries, depth + 1 => do
          let tag := tagOf marks
          let pairs ← entries.foldlM (fun taken (key, item) => do
            let keyValue ← value references depth (insideTag || tag.isSome) key
            if YamlValue.hasKey taken keyValue then
              failure
            let itemValue ← value references depth false item
            return taken ++ [(keyValue, itemValue)]) []
          return underTag tag (.mapping pairs)
      | _, _ => failure

end Resolver

/-- Whether a character may stand in a YAML text. -/
def isAllowed (c : Char) : Bool :=
  let code := c.toNat
  c == '\t' || c == '\n' || c == '\r' || (0x20 ≤ code && code ≤ 0x7E) || code == 0x85 ||
    (0xA0 ≤ code && code ≤ 0xD7FF) || (0xE000 ≤ code && code ≤ 0xFFFD) || 0x10000 ≤ code

/-- The references that may be followed for every start or end of a node. -/
def referencesPerEvent : Nat := 100

/-- Reads the value of a YAML text. -/
def YamlValue.ofBytes? (bytes : List UInt8) : Option YamlValue := do
  let text ← String.fromUTF8? ⟨bytes.toArray⟩
  if !text.toList.all isAllowed then
    none
  else
    let root ← Node.ofText? text.toList
    let references := ⟨root.anchored, referencesPerEvent * root.eventCount⟩
    let (value, _) ← (Resolver.value references Resolver.maxDepth false root).run 0
    return value

end TypedClient.Yaml
