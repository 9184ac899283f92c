import TypedClient.Yaml.Tag

/-!
# Tokens of YAML

The tokens that block and flow syntax have in common. Indentation appears as the
starts and ends of block collections, and a mapping key is marked before its first
token even where the text has no mark for it.
-/

namespace TypedClient.Yaml

inductive Token where
  | directive (directive : Directive)
  | documentStart
  | documentEnd
  | blockSequenceStart
  | blockMappingStart
  | blockEnd
  | flowSequenceStart
  | flowSequenceEnd
  | flowMappingStart
  | flowMappingEnd
  | blockEntry
  | flowEntry
  | key
  | value
  | reference (name : List Char)
  | anchor (name : List Char)
  | tag (tag : TagText)
  | scalar (plain : Bool) (text : List Char)
  | streamEnd
  deriving DecidableEq, Repr, Inhabited

end TypedClient.Yaml
