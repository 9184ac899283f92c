import TypedClient.Digraph
import Mathlib.Logic.Relation

/-!
# What a search of a graph finds

The search takes a node off the unvisited ones whenever it lists it, so it finds
a node exactly when a walk through unvisited nodes leads there from the stack.
A graph is searched once for every root that no earlier search has met, and that
finds all that the roots lead to, since what is reached is closed under the edges.
-/

namespace TypedClient.Digraph

open Relation

section Search

variable {α : Type} {next : α → List α} {unvisited : List α} {start target : α}

/-- A walk through unvisited nodes, both ends among them. -/
inductive LeadsTo (next : α → List α) (unvisited : List α) : α → α → Prop where
  | here {node : α} (fresh : node ∈ unvisited) : LeadsTo next unvisited node node
  | step {start middle target : α} (fresh : start ∈ unvisited)
      (edge : middle ∈ next start) (rest : LeadsTo next unvisited middle target) :
      LeadsTo next unvisited start target

theorem LeadsTo.start_mem (walk : LeadsTo next unvisited start target) :
    start ∈ unvisited := by
  cases walk with
  | here fresh => exact fresh
  | step fresh _ _ => exact fresh

theorem LeadsTo.target_mem (walk : LeadsTo next unvisited start target) :
    target ∈ unvisited := by
  induction walk with
  | here fresh => exact fresh
  | step _ _ _ ih => exact ih

theorem LeadsTo.mono {larger : List α} (subset : unvisited ⊆ larger)
    (walk : LeadsTo next unvisited start target) : LeadsTo next larger start target := by
  induction walk with
  | here fresh => exact here (subset fresh)
  | step fresh edge _ ih => exact step (subset fresh) edge ih

/-- A walk ends at a given node, or goes on from that node's last occurrence, or
avoids the node altogether. -/
theorem LeadsTo.avoiding [DecidableEq α] (node : α)
    (walk : LeadsTo next unvisited start target) :
    target = node ∨ (∃ after ∈ next node, LeadsTo next (unvisited.erase node) after target) ∨
      start ≠ node ∧ LeadsTo next (unvisited.erase node) start target := by
  induction walk with
  | @here last fresh =>
      by_cases equal : last = node
      · exact Or.inl equal
      · exact Or.inr (Or.inr ⟨equal, here ((List.mem_erase_of_ne equal).mpr fresh)⟩)
  | @step first middle last fresh edge rest ih =>
      rcases ih with ends | passes | ⟨_, avoids⟩
      · exact Or.inl ends
      · exact Or.inr (Or.inl passes)
      · by_cases equal : first = node
        · subst equal
          exact Or.inr (Or.inl ⟨middle, edge, avoids⟩)
        · exact Or.inr (Or.inr
            ⟨equal, step ((List.mem_erase_of_ne equal).mpr fresh) edge avoids⟩)

theorem mem_explore [DecidableEq α] {stack : List α} :
    target ∈ explore next unvisited stack ↔
      ∃ start ∈ stack, LeadsTo next unvisited start target := by
  fun_induction explore next unvisited stack with
  | case1 unvisited => simp
  | case2 unvisited node stack fresh ih =>
      rw [List.mem_cons, ih]
      constructor
      · rintro (rfl | ⟨start, onStack, walk⟩)
        · exact ⟨target, List.mem_cons_self, .here fresh⟩
        · have larger := walk.mono List.erase_subset
          rcases List.mem_append.mp onStack with edge | below
          · exact ⟨node, List.mem_cons_self, .step fresh edge larger⟩
          · exact ⟨start, List.mem_cons_of_mem _ below, larger⟩
      · rintro ⟨start, onStack, walk⟩
        rcases walk.avoiding node with ends | ⟨after, edge, passes⟩ | ⟨different, avoids⟩
        · exact Or.inl ends
        · exact Or.inr ⟨after, List.mem_append_left _ edge, passes⟩
        · have below : start ∈ stack := List.mem_of_ne_of_mem different onStack
          exact Or.inr ⟨start, List.mem_append_right _ below, avoids⟩
  | case3 unvisited node stack visited ih =>
      rw [ih]
      constructor
      · rintro ⟨start, onStack, walk⟩
        exact ⟨start, List.mem_cons_of_mem _ onStack, walk⟩
      · rintro ⟨start, onStack, walk⟩
        have different : start ≠ node := fun equal => visited (equal ▸ walk.start_mem)
        exact ⟨start, List.mem_of_ne_of_mem different onStack, walk⟩

end Search

variable {α : Type} [DecidableEq α]

theorem mem_successors {graph : Digraph α} {start target : α} :
    target ∈ graph.successors start ↔ (start, target) ∈ graph.edges := by
  constructor
  · intro member
    obtain ⟨⟨source, found⟩, edge, rfl⟩ := List.mem_map.mp member
    obtain ⟨edgeMem, rfl⟩ : (source, found) ∈ graph.edges ∧ source = start := by
      simpa using edge
    exact edgeMem
  · intro edge
    exact List.mem_map.mpr ⟨(start, target), by simpa using edge, rfl⟩

/-- The edges of a graph made of lists: those listed that end at a node. -/
theorem mem_edges_ofLists {nodes : List α} {edges : List (α × α)} {start target : α} :
    (start, target) ∈ (ofLists nodes edges).edges ↔
      (start, target) ∈ edges ∧ target ∈ nodes := by
  simp [ofLists]

theorem mem_nodes_ofLists {nodes : List α} {edges : List (α × α)} {node : α} :
    node ∈ (ofLists nodes edges).nodes ↔ node ∈ nodes := by
  simp [ofLists]

/-- Where all edges end at nodes, walks through the nodes are the paths that start
at one. -/
theorem leadsTo_nodes_iff {graph : Digraph α}
    (inside : ∀ first second, (first, second) ∈ graph.edges → second ∈ graph.nodes)
    {start target : α} :
    LeadsTo graph.successors graph.nodes start target ↔
      start ∈ graph.nodes ∧
        ReflTransGen (fun first second => (first, second) ∈ graph.edges) start target := by
  constructor
  · intro walk
    refine ⟨walk.start_mem, ?_⟩
    induction walk with
    | here _ => exact .refl
    | step _ edge _ ih => exact .head (mem_successors.mp edge) ih
  · rintro ⟨startMem, path⟩
    induction path using ReflTransGen.head_induction_on with
    | refl => exact .here startMem
    | head edge _ ih => exact .step startMem (mem_successors.mpr edge) (ih (inside _ _ edge))

section Roots

variable {graph : Digraph α} {reached roots : List α} {root target : α}

/-- Nothing that a reached node leads to is left out. -/
def IsClosed (graph : Digraph α) (reached : List α) : Prop :=
  ∀ node ∈ reached, ∀ target,
    ReflTransGen (fun first second => (first, second) ∈ graph.edges) node target →
      target ∈ reached

/-- One search adds what its root leads to. It is left out only where nothing is missing. -/
theorem mem_reachFrom
    (inside : ∀ first second, (first, second) ∈ graph.edges → second ∈ graph.nodes)
    (closed : graph.IsClosed reached) :
    target ∈ graph.reachFrom reached root ↔ target ∈ reached ∨ root ∈ graph.nodes ∧
      ReflTransGen (fun first second => (first, second) ∈ graph.edges) root target := by
  unfold reachFrom
  split
  · rename_i isNew
    have found : target ∈ explore graph.successors graph.nodes [root] ↔ root ∈ graph.nodes ∧
        ReflTransGen (fun first second => (first, second) ∈ graph.edges) root target := by
      rw [mem_explore, ← leadsTo_nodes_iff inside]
      simp
    simp only [List.mem_append, List.mem_filter, found, List.contains_eq_mem,
      Bool.not_eq_eq_eq_not, Bool.not_true, decide_eq_false_iff_not]
    by_cases old : target ∈ reached <;> simp [old]
  · rename_i isOld
    refine (or_iff_left_of_imp ?_).symm
    rintro ⟨isNode, path⟩
    have isReached : root ∈ reached :=
      Decidable.byContradiction fun missing => isOld ⟨isNode, missing⟩
    exact closed root isReached target path

theorem IsClosed.reachFrom
    (inside : ∀ first second, (first, second) ∈ graph.edges → second ∈ graph.nodes)
    (closed : graph.IsClosed reached) : graph.IsClosed (graph.reachFrom reached root) := by
  intro node member target path
  rw [mem_reachFrom inside closed] at member ⊢
  rcases member with old | ⟨isNode, before⟩
  · exact Or.inl (closed node old target path)
  · exact Or.inr ⟨isNode, before.trans path⟩

theorem mem_foldl_reachFrom
    (inside : ∀ first second, (first, second) ∈ graph.edges → second ∈ graph.nodes)
    (closed : graph.IsClosed reached) :
    target ∈ roots.foldl graph.reachFrom reached ↔ target ∈ reached ∨
      ∃ root ∈ roots, root ∈ graph.nodes ∧
        ReflTransGen (fun first second => (first, second) ∈ graph.edges) root target := by
  induction roots generalizing reached with
  | nil => simp
  | cons root rest ih =>
      rw [List.foldl_cons, ih (closed.reachFrom inside), mem_reachFrom inside closed, or_assoc]
      simp only [List.mem_cons, exists_eq_or_imp]

/-- The nodes found from some roots: those that a path leads to from a root among the
nodes. -/
theorem mem_reachable
    (inside : ∀ first second, (first, second) ∈ graph.edges → second ∈ graph.nodes) :
    target ∈ graph.reachable roots ↔ ∃ root ∈ roots, root ∈ graph.nodes ∧
      ReflTransGen (fun first second => (first, second) ∈ graph.edges) root target := by
  have nothing : graph.IsClosed [] := fun _ member => absurd member List.not_mem_nil
  rw [reachable, mem_foldl_reachFrom inside nothing]
  simp

end Roots

theorem mem_reachable_ofLists {nodes roots : List α} {edges : List (α × α)} {target : α} :
    target ∈ (ofLists nodes edges).reachable roots ↔
      ∃ root ∈ roots, root ∈ nodes ∧
        ReflTransGen (fun first second => (first, second) ∈ edges ∧ second ∈ nodes)
          root target := by
  have inside : ∀ first second, (first, second) ∈ (ofLists nodes edges).edges →
      second ∈ (ofLists nodes edges).nodes := by
    intro first second edge
    exact mem_nodes_ofLists.mpr (mem_edges_ofLists.mp edge).2
  rw [mem_reachable inside]
  simp only [mem_nodes_ofLists, mem_edges_ofLists]

theorem mem_of_mem_explore {next : α → List α} {unvisited stack : List α} {node : α}
    (found : node ∈ explore next unvisited stack) : node ∈ unvisited := by
  obtain ⟨_, _, walk⟩ := mem_explore.mp found
  exact walk.target_mem

theorem mem_unvisited_of_mem_collect {next : α → List α} {unvisited leaders component : List α}
    {node : α} (collected : component ∈ collect next unvisited leaders)
    (member : node ∈ component) : node ∈ unvisited := by
  induction leaders generalizing unvisited with
  | nil => exact absurd collected List.not_mem_nil
  | cons leader leaders ih =>
      unfold collect at collected
      split at collected
      · rcases List.mem_cons.mp collected with rfl | later
        · exact mem_of_mem_explore member
        · exact (List.mem_filter.mp (ih later)).1
      · exact ih collected

/-- A cycle lists nodes of its graph. -/
theorem mem_nodes_of_mem_cycles {graph : Digraph α} {cycle : List α} {node : α}
    (isCycle : cycle ∈ graph.cycles) (member : node ∈ cycle) : node ∈ graph.nodes := by
  obtain ⟨component, isComponent, rfl⟩ := List.mem_map.mp isCycle
  have unordered : node ∈ component := List.mem_mergeSort.mp member
  exact mem_unvisited_of_mem_collect (List.mem_filter.mp isComponent).1 unordered

end TypedClient.Digraph
