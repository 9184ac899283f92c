import TypedClient.Yaml.Token

/-!
# Nodes of a YAML document

The tree of a document before scalars are understood. An anchored node carries the
number of its anchor, and a reference to it is a node of its own. When a number is
given twice the node that starts later has it.
-/

namespace TypedClient.Yaml

structure NodeMarks where
  anchor : Option Nat
  tag : Option String
  deriving DecidableEq, Repr

inductive Node where
  | scalar (marks : NodeMarks) (plain : Bool) (text : String)
  | sequence (marks : NodeMarks) (items : List Node)
  | mapping (marks : NodeMarks) (entries : List (Node × Node))
  | reference (anchor : Nat)
  deriving Repr, Inhabited

namespace Node

/-- A node with nothing in it. -/
def empty (marks : NodeMarks) : Node :=
  .scalar marks true ""

def anchor? : Node → Option Nat
  | scalar marks .. => marks.anchor
  | sequence marks _ => marks.anchor
  | mapping marks _ => marks.anchor
  | reference _ => none

mutual

/-- The number of starts and ends of nodes in a tree. -/
def eventCount : Node → Nat
  | .scalar .. => 1
  | .reference _ => 1
  | .sequence _ items => 2 + itemEvents items
  | .mapping _ entries => 2 + entryEvents entries

def itemEvents : List Node → Nat
  | [] => 0
  | item :: rest => item.eventCount + itemEvents rest

def entryEvents : List (Node × Node) → Nat
  | [] => 0
  | (key, value) :: rest => key.eventCount + value.eventCount + entryEvents rest

end

mutual

/-- The nodes below and including a node, in the order in which they start, put
before others. -/
def startOrder (node : Node) (others : List Node) : List Node :=
  match node with
  | .scalar .. => node :: others
  | .reference _ => node :: others
  | .sequence _ items => node :: itemOrder items others
  | .mapping _ entries => node :: entryOrder entries others

def itemOrder : List Node → List Node → List Node
  | [], others => others
  | item :: rest, others => item.startOrder (itemOrder rest others)

def entryOrder : List (Node × Node) → List Node → List Node
  | [], others => others
  | (key, value) :: rest, others => key.startOrder (value.startOrder (entryOrder rest others))

end

/-- The anchored nodes of a tree, the last one first. -/
def anchored (root : Node) : List (Nat × Node) :=
  ((root.startOrder []).filterMap fun node => node.anchor?.map fun number => (number, node)).reverse

end Node

end TypedClient.Yaml
