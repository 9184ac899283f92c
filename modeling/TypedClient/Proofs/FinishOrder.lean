import TypedClient.Proofs.DigraphReachability
import Mathlib.Tactic.Push
import Mathlib.Tactic.Set

/-!
# The order in which a search finishes its nodes

A depth-first search keeps on its stack every node that is visited but not finished.
All that lies above such a node is reached from it, and so are its unvisited successors.
Therefore a node is finished only when all that it leads to is finished, or while another
node of its component is still open. That is the property by which the components of a
graph are collected from the finishing order of its reverse.
-/

namespace TypedClient.Digraph

open Relation

section Paths

variable {α : Type} {next : α → List α} {node other start target : α}

/-- A path along the steps of a search, of any length. -/
def Reaches (next : α → List α) : α → α → Prop :=
  ReflTransGen fun first second => second ∈ next first

/-- Two nodes lead to each other, so that they are in one strongly connected component. -/
def Mutual (next : α → List α) (node other : α) : Prop :=
  Reaches next node other ∧ Reaches next other node

theorem Mutual.refl (node : α) : Mutual next node node :=
  ⟨.refl, .refl⟩

theorem Mutual.symm (both : Mutual next node other) : Mutual next other node :=
  ⟨both.2, both.1⟩

theorem Mutual.trans (first : Mutual next start node) (second : Mutual next node target) :
    Mutual next start target :=
  ⟨first.1.trans second.1, second.2.trans first.2⟩

/-- A path that leaves a set has a step that leaves it. -/
theorem exists_leaving_step (inside : α → Prop) (path : Reaches next start target)
    (starts : inside start) (leaves : ¬ inside target) :
    ∃ first second, Reaches next start first ∧ inside first ∧ second ∈ next first ∧
      ¬ inside second := by
  induction path with
  | refl => exact absurd starts leaves
  | @tail middle last before step ih =>
      by_cases still : inside middle
      · exact ⟨middle, last, before, still, step, leaves⟩
      · exact ih still

theorem Reaches.mem_of_closed {nodes : List α} (path : Reaches next start target)
    (closed : ∀ node ∈ nodes, ∀ other ∈ next node, other ∈ nodes) (starts : start ∈ nodes) :
    target ∈ nodes := by
  induction path with
  | refl => exact starts
  | tail _ step ih => exact closed _ ih _ step

/-- When a node of the list was finished, the later ones of the list were finished already.
Then all that the node leads to was finished too, or some node of its component was not. -/
def IsFinishOrder (next : α → List α) : List α → Prop
  | [] => True
  | node :: earlier =>
      ((∀ other, Reaches next node other → other ∈ node :: earlier) ∨
        ∃ other, other ∉ node :: earlier ∧ Mutual next node other) ∧
      IsFinishOrder next earlier

theorem IsFinishOrder.of_append {later earlier : List α}
    (order : IsFinishOrder next (later ++ earlier)) : IsFinishOrder next earlier := by
  induction later with
  | nil => exact order
  | cons _ _ ih => exact ih order.2

/-- What leads to the last finished node of a part of the order is in its component, or in
that of a node finished after the part. -/
theorem IsFinishOrder.mutual_of_reaches {leader : α} {earlier : List α}
    (order : IsFinishOrder next (leader :: earlier)) (distinct : (leader :: earlier).Nodup)
    (member : node ∈ leader :: earlier) (path : Reaches next node leader) :
    Mutual next node leader ∨ ∃ other, other ∉ leader :: earlier ∧ Mutual next node other := by
  classical
  -- the node of the same component that was finished last
  obtain ⟨last, found⟩ : ∃ last, (leader :: earlier).find? (fun other => Mutual next node other) =
      some last := by
    rw [← Option.isSome_iff_exists, List.find?_isSome]
    exact ⟨node, member, decide_eq_true (.refl node)⟩
  obtain ⟨isMutual, later, before, split, noneLater⟩ := List.find?_eq_some_iff_append.mp found
  have mutualLast : Mutual next node last := of_decide_eq_true isMutual
  cases later with
  | nil =>
      obtain ⟨rfl, -⟩ := List.cons.inj split
      exact Or.inl mutualLast
  | cons first later =>
      obtain ⟨rfl, -⟩ := List.cons.inj split
      rw [split] at order distinct
      rcases order.of_append.1 with closed | ⟨other, unfinished, mutualOther⟩
      · -- the leader would be finished before the last node of the component
        have twice := closed leader (mutualLast.2.trans path)
        have apart := (List.nodup_append.mp distinct).2.2 leader List.mem_cons_self leader twice
        exact absurd rfl apart
      · have sameComponent := mutualLast.trans mutualOther
        refine Or.inr ⟨other, ?_, sameComponent⟩
        rw [split, List.mem_append]
        rintro (among | after)
        · have differs := noneLater other among
          simp [sameComponent] at differs
        · exact unfinished after

end Paths

section Search

variable {α : Type} {next : α → List α}
  {nodes unvisited finished stack : List α} {node : α}

/-- The state of a search in the midst of its run. An open node, visited and not finished,
is on the stack below everything that is still to be visited from it. -/
structure IsSearching (next : α → List α) (nodes unvisited finished stack : List α) : Prop where
  distinct : unvisited.Nodup
  pending : ∀ node ∈ unvisited, node ∈ stack
  stacked : ∀ node ∈ stack, node ∈ nodes
  finishedNodes : ∀ node ∈ finished, node ∈ nodes
  finishedVisited : ∀ node ∈ finished, node ∉ unvisited
  finishedDistinct : finished.Nodup
  settled : ∀ node ∈ finished, ∀ other ∈ next node, other ∉ unvisited
  opened : ∀ node ∈ nodes, node ∉ unvisited → node ∉ finished →
    ∃ above below, stack = above ++ node :: below ∧ node ∉ above ∧
      (∀ other ∈ above, Reaches next node other) ∧
      ∀ other ∈ next node, other ∈ unvisited → other ∈ above
  order : IsFinishOrder next finished

theorem isSearching_start (distinct : nodes.Nodup) : IsSearching next nodes nodes [] nodes where
  distinct := distinct
  pending := fun _ member => member
  stacked := fun _ member => member
  finishedNodes := fun _ member => absurd member List.not_mem_nil
  finishedVisited := fun _ member => absurd member List.not_mem_nil
  finishedDistinct := List.nodup_nil
  settled := fun _ member => absurd member List.not_mem_nil
  opened := fun _ isNode visited => absurd isNode visited
  order := trivial

namespace IsSearching

/-- An open node that is not on top of the stack has the top above it. -/
theorem exists_above (searching : IsSearching next nodes unvisited finished (node :: stack))
    {other : α} (isNode : other ∈ nodes) (visited : other ∉ unvisited)
    (unfinished : other ∉ finished) (different : other ≠ node) :
    ∃ above below, stack = above ++ other :: below ∧ other ∉ above ∧ Reaches next other node ∧
      (∀ found ∈ above, Reaches next other found) ∧
      ∀ found ∈ next other, found ∈ unvisited → found ∈ node :: above := by
  obtain ⟨above, below, split, absent, reached, upcoming⟩ :=
    searching.opened other isNode visited unfinished
  cases above with
  | nil => exact absurd (List.cons.inj split).1.symm different
  | cons top above =>
      obtain ⟨rfl, stackEq⟩ := List.cons.inj split
      refine ⟨above, below, stackEq, fun member => absent (List.mem_cons_of_mem _ member),
        reached _ List.mem_cons_self, fun found member => reached found ?_, upcoming⟩
      exact List.mem_cons_of_mem _ member

/-- The step that visits the node on top of the stack. -/
theorem visit [DecidableEq α]
    (searching : IsSearching next nodes unvisited finished (node :: stack))
    (fresh : node ∈ unvisited) :
    IsSearching next nodes (unvisited.erase node) finished
      (((next node).filter fun other => (unvisited.erase node).contains other).reverse ++
        node :: stack) := by
  set found := ((next node).filter fun other => (unvisited.erase node).contains other).reverse
    with foundEq
  have foundIff : ∀ other, other ∈ found ↔ other ∈ next node ∧ other ∈ unvisited.erase node := by
    simp [foundEq]
  have earlier : ∀ other ∈ unvisited.erase node, other ∈ unvisited := fun _ =>
    List.mem_of_mem_erase
  have gone : node ∉ unvisited.erase node := searching.distinct.not_mem_erase
  refine ⟨searching.distinct.erase node, ?pending, ?stacked, searching.finishedNodes, ?visited,
    searching.finishedDistinct, ?settled, ?opened, searching.order⟩
  case pending =>
    intro other member
    exact List.mem_append_right _ (searching.pending other (earlier other member))
  case stacked =>
    intro other member
    rcases List.mem_append.mp member with new | old
    · have unvisitedOther := earlier other ((foundIff other).mp new).2
      exact searching.stacked other (searching.pending other unvisitedOther)
    · exact searching.stacked other old
  case visited =>
    exact fun other member left => searching.finishedVisited other member (earlier other left)
  case settled =>
    intro other member successor isNext left
    exact searching.settled other member successor isNext (earlier successor left)
  case opened =>
    intro other isNode visited unfinished
    by_cases same : other = node
    · subst same
      refine ⟨found, stack, rfl, fun member => gone ((foundIff _).mp member).2, ?_, ?_⟩
      · exact fun above member => .single ((foundIff above).mp member).1
      · exact fun successor isNext left => (foundIff successor).mpr ⟨isNext, left⟩
    · have visitedBefore : other ∉ unvisited := fun member =>
        visited ((List.mem_erase_of_ne same).mpr member)
      obtain ⟨above, below, split, absent, toNode, reached, upcoming⟩ :=
        searching.exists_above isNode visitedBefore unfinished same
      refine ⟨found ++ node :: above, below, by simp [split], ?_, ?_, ?_⟩
      · rw [List.mem_append, List.mem_cons, foundIff]
        rintro (⟨_, left⟩ | isTop | isAbove)
        · exact visited left
        · exact same isTop
        · exact absent isAbove
      · intro later member
        rcases List.mem_append.mp member with new | old
        · exact toNode.tail ((foundIff later).mp new).1
        · rcases List.mem_cons.mp old with rfl | isAbove
          · exact toNode
          · exact reached later isAbove
      · intro successor isNext left
        exact List.mem_append_right _ (upcoming successor isNext (earlier successor left))

/-- Below a visited node on top of the stack, all unvisited nodes are still to come. -/
theorem pending_below (searching : IsSearching next nodes unvisited finished (node :: stack))
    (visited : node ∉ unvisited) : ∀ other ∈ unvisited, other ∈ stack := by
  intro other member
  rcases List.mem_cons.mp (searching.pending other member) with rfl | old
  · exact absurd member visited
  · exact old

/-- Below a visited node on top of the stack, other open nodes are as they were. -/
theorem opened_below (searching : IsSearching next nodes unvisited finished (node :: stack))
    (visited : node ∉ unvisited) {other : α} (isNode : other ∈ nodes)
    (otherVisited : other ∉ unvisited) (unfinished : other ∉ finished) (different : other ≠ node) :
    ∃ above below, stack = above ++ other :: below ∧ other ∉ above ∧
      (∀ found ∈ above, Reaches next other found) ∧
      ∀ found ∈ next other, found ∈ unvisited → found ∈ above := by
  obtain ⟨above, below, split, absent, -, reached, upcoming⟩ :=
    searching.exists_above isNode otherVisited unfinished different
  refine ⟨above, below, split, absent, reached, fun found isNext left => ?_⟩
  have notTop : found ≠ node := fun same => visited (same ▸ left)
  exact List.mem_of_ne_of_mem notTop (upcoming found isNext left)

/-- The step that drops a finished node from the stack. -/
theorem drop (searching : IsSearching next nodes unvisited finished (node :: stack))
    (visited : node ∉ unvisited) (isFinished : node ∈ finished) :
    IsSearching next nodes unvisited finished stack :=
  { searching with
    pending := searching.pending_below visited
    stacked := fun other member => searching.stacked other (List.mem_cons_of_mem _ member)
    opened := fun _ isNode otherVisited unfinished =>
      searching.opened_below visited isNode otherVisited unfinished
        fun same => unfinished (same ▸ isFinished) }

/-- When an open node is on top of the stack, none of its successors is unvisited. -/
theorem visited_of_top (searching : IsSearching next nodes unvisited finished (node :: stack))
    (visited : node ∉ unvisited) (unfinished : node ∉ finished) :
    ∀ other ∈ next node, other ∉ unvisited := by
  obtain ⟨above, below, split, absent, -, upcoming⟩ := searching.opened node
    (searching.stacked node List.mem_cons_self) visited unfinished
  cases above with
  | nil => exact fun other isNext left => absurd (upcoming other isNext left) List.not_mem_nil
  | cons top above =>
      obtain ⟨rfl, -⟩ := List.cons.inj split
      exact absurd List.mem_cons_self absent

/-- A path that leaves the finished nodes enters an open one, and that leads to the top of
the stack. -/
theorem isFinishOrder_cons
    (closed : ∀ node ∈ nodes, ∀ other ∈ next node, other ∈ nodes)
    (searching : IsSearching next nodes unvisited finished (node :: stack))
    (visited : node ∉ unvisited) (unfinished : node ∉ finished) :
    IsFinishOrder next (node :: finished) := by
  have isNode := searching.stacked node List.mem_cons_self
  refine ⟨?_, searching.order⟩
  by_cases complete : ∀ other, Reaches next node other → other ∈ node :: finished
  · exact Or.inl complete
  · push Not at complete
    obtain ⟨target, path, missing⟩ := complete
    obtain ⟨first, second, toFirst, isFirst, step, isSecond⟩ :=
      exists_leaving_step (· ∈ node :: finished) path List.mem_cons_self missing
    have secondVisited : second ∉ unvisited := by
      rcases List.mem_cons.mp isFirst with rfl | old
      · exact searching.visited_of_top visited unfinished second step
      · exact searching.settled first old second step
    have secondNode : second ∈ nodes := Reaches.mem_of_closed (toFirst.tail step) closed isNode
    rw [List.mem_cons, not_or] at isSecond
    obtain ⟨_, _, _, _, toTop, _⟩ :=
      searching.exists_above secondNode secondVisited isSecond.2 isSecond.1
    exact Or.inr ⟨second, by simpa using isSecond, toFirst.tail step, toTop⟩

/-- The step that finishes the node on top of the stack. -/
theorem finishTop (closed : ∀ node ∈ nodes, ∀ other ∈ next node, other ∈ nodes)
    (searching : IsSearching next nodes unvisited finished (node :: stack))
    (visited : node ∉ unvisited) (unfinished : node ∉ finished) :
    IsSearching next nodes unvisited (node :: finished) stack where
  distinct := searching.distinct
  pending := searching.pending_below visited
  stacked := fun other member => searching.stacked other (List.mem_cons_of_mem _ member)
  finishedNodes := List.forall_mem_cons.mpr
    ⟨searching.stacked node List.mem_cons_self, searching.finishedNodes⟩
  finishedVisited := List.forall_mem_cons.mpr ⟨visited, searching.finishedVisited⟩
  finishedDistinct := List.nodup_cons.mpr ⟨unfinished, searching.finishedDistinct⟩
  settled := List.forall_mem_cons.mpr
    ⟨searching.visited_of_top visited unfinished, searching.settled⟩
  opened := by
    intro other isNode otherVisited otherUnfinished
    rw [List.mem_cons, not_or] at otherUnfinished
    exact searching.opened_below visited isNode otherVisited otherUnfinished.2 otherUnfinished.1
  order := searching.isFinishOrder_cons closed visited unfinished

/-- With an empty stack, everything is visited and finished. -/
theorem mem_finished_iff (searching : IsSearching next nodes unvisited finished []) :
    node ∈ finished ↔ node ∈ nodes := by
  refine ⟨searching.finishedNodes node, fun isNode => ?_⟩
  refine Classical.byContradiction fun unfinished => ?_
  have visited : node ∉ unvisited := fun left =>
    absurd (searching.pending node left) List.not_mem_nil
  obtain ⟨above, below, split, -⟩ := searching.opened node isNode visited unfinished
  exact absurd split.symm (by simp)

/-- A search finishes every node once, in a finishing order. -/
theorem finish [DecidableEq α]
    (closed : ∀ node ∈ nodes, ∀ other ∈ next node, other ∈ nodes)
    (searching : IsSearching next nodes unvisited finished stack) :
    (Digraph.finish next unvisited finished stack).Nodup ∧
      (∀ node, node ∈ Digraph.finish next unvisited finished stack ↔ node ∈ nodes) ∧
      IsFinishOrder next (Digraph.finish next unvisited finished stack) := by
  fun_induction Digraph.finish next unvisited finished stack with
  | case1 unvisited finished =>
      exact ⟨searching.finishedDistinct, fun _ => searching.mem_finished_iff, searching.order⟩
  | case2 unvisited finished node stack fresh others found ih =>
      exact ih (searching.visit fresh)
  | case3 unvisited finished node stack visited isFinished ih =>
      exact ih (searching.drop visited isFinished)
  | case4 unvisited finished node stack visited unfinished ih =>
      exact ih (searching.finishTop closed visited unfinished)

end IsSearching

end Search

end TypedClient.Digraph
