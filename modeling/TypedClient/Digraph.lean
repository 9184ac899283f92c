/-!
# Directed graphs

A graph lists its nodes and its edges. `reachable` is the closure under edges, found by
one search for each root that no earlier search has met. `cycles` are the strongly
connected components in which some node reaches itself, each in node order. Two passes
find the components: a depth-first search against the edges gives the order in which
nodes are finished, and searches along the edges, started in the opposite order, collect
one component each.
-/

namespace TypedClient

structure Digraph (α : Type) where
  nodes : List α
  edges : List (α × α)

namespace Digraph

variable {α : Type} [DecidableEq α]

/-- The graph of nodes and the edges between them, each kept once. -/
def ofLists (nodes : List α) (edges : List (α × α)) : Digraph α :=
  let distinct := nodes.eraseDups
  ⟨distinct, (edges.filter fun edge => distinct.contains edge.2).eraseDups⟩

def successors (graph : Digraph α) (node : α) : List α :=
  (graph.edges.filter fun edge => edge.1 = node).map Prod.snd

def predecessors (graph : Digraph α) (node : α) : List α :=
  (graph.edges.filter fun edge => edge.2 = node).map Prod.fst

theorem length_erase_lt {node : α} {nodes : List α} (member : node ∈ nodes) :
    (nodes.erase node).length < nodes.length := by
  have positive := List.length_pos_of_mem member
  have length := List.length_erase_of_mem member
  omega

/-- The unvisited nodes that a stack of nodes leads to. -/
def explore (next : α → List α) (unvisited : List α) : (stack : List α) → List α
  | [] => []
  | node :: stack =>
      if _ : node ∈ unvisited then
        node :: explore next (unvisited.erase node) (next node ++ stack)
      else
        explore next unvisited stack
termination_by stack => (unvisited.length, stack.length)
decreasing_by
  · exact Prod.Lex.left _ _ (length_erase_lt ‹_›)
  · exact Prod.Lex.right _ (Nat.lt_succ_self _)

/-- Extends the reached nodes by the nodes that a root leads to, unless the root is no node
or has been reached. -/
def reachFrom (graph : Digraph α) (reached : List α) (root : α) : List α :=
  if root ∈ graph.nodes ∧ root ∉ reached then
    let found := explore graph.successors graph.nodes [root]
    reached ++ found.filter fun node => !reached.contains node
  else
    reached

/-- The nodes that the roots among the nodes lead to, the roots included. -/
def reachable (graph : Digraph α) (roots : List α) : List α :=
  roots.foldl graph.reachFrom []

/-- Extends a list of finished nodes, the last one first, by the nodes that a
stack leads to. A node is finished once everything it leads to is. -/
def finish (next : α → List α) (unvisited finished : List α) : (stack : List α) → List α
  | [] => finished
  | node :: stack =>
      if _ : node ∈ unvisited then
        let others := unvisited.erase node
        let found := (next node).filter fun other => others.contains other
        finish next others finished (found.reverse ++ node :: stack)
      else if node ∈ finished then
        finish next unvisited finished stack
      else
        finish next unvisited (node :: finished) stack
termination_by stack => (unvisited.length, stack.length)
decreasing_by
  · exact Prod.Lex.left _ _ (length_erase_lt ‹_›)
  · exact Prod.Lex.right _ (Nat.lt_succ_self _)
  · exact Prod.Lex.right _ (Nat.lt_succ_self _)

/-- The nodes in the order in which their components are collected: the last one that a
search against the edges finishes comes first. -/
def componentOrder (graph : Digraph α) : List α :=
  finish graph.predecessors graph.nodes [] graph.nodes

/-- Collects components in the order of some leaders. A leader that is in no earlier
component has one of its own: the unvisited nodes that it leads to. -/
def collect (next : α → List α) (unvisited : List α) : (leaders : List α) → List (List α)
  | [] => []
  | leader :: leaders =>
      if leader ∈ unvisited then
        let component := explore next unvisited [leader]
        component ::
          collect next (unvisited.filter fun node => !component.contains node) leaders
      else
        collect next unvisited leaders

/-- The strongly connected components of a graph. -/
def components (graph : Digraph α) : List (List α) :=
  collect graph.successors graph.nodes graph.componentOrder

/-- Whether a component has a cycle: several nodes, or one with an edge to itself. -/
def isCyclic (graph : Digraph α) : (component : List α) → Bool
  | [] => false
  | [node] => graph.edges.contains (node, node)
  | _ :: _ :: _ => true

/-- Some nodes in the order that they have in the graph. -/
def inNodeOrder (graph : Digraph α) (component : List α) : List α :=
  component.mergeSort fun first second =>
    decide (graph.nodes.idxOf first ≤ graph.nodes.idxOf second)

/-- The strongly connected components that contain a cycle. -/
def cycles (graph : Digraph α) : List (List α) :=
  (graph.components.filter graph.isCyclic).map graph.inNodeOrder

end Digraph

end TypedClient
