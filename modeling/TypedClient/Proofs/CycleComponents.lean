import Mathlib.Data.List.Sort
import TypedClient.Proofs.DeclarationReachability
import TypedClient.Proofs.FinishOrder
import TypedClient.Proofs.FirstOccurrences

/-!
# The cycles of a graph

The second pass collects the components in the order in which the first one, against the
edges, finished the nodes. An unvisited leader is then the last finished node of its
component, and no unvisited node outside the component is reached from it. The components
that contain a cycle are those whose nodes lead to themselves by at least one edge.
-/

namespace TypedClient

open Relation

namespace Digraph

variable {α : Type}

section Collecting

variable {next previous : α → List α} {unvisited leaders component : List α}
  {leader node other : α}

theorem reaches_reverse (reverse : ∀ first second, second ∈ previous first ↔ first ∈ next second) :
    Reaches previous node other ↔ Reaches next other node := by
  have swapped : (fun first second => second ∈ previous first) =
      Function.swap fun first second => second ∈ next first := by
    funext first second
    exact propext (reverse first second)
  rw [Reaches, Reaches, swapped, reflTransGen_swap]

theorem mutual_reverse (reverse : ∀ first second, second ∈ previous first ↔ first ∈ next second) :
    Mutual previous node other ↔ Mutual next node other := by
  rw [Mutual, Mutual, reaches_reverse reverse, reaches_reverse reverse, and_comm]

/-- The state of the second pass in the midst of its run. The components of the unvisited
nodes are unvisited as a whole, and all their nodes are still to come as leaders. -/
structure IsCollecting (previous next : α → List α) (unvisited leaders : List α) : Prop where
  distinct : unvisited.Nodup
  pending : ∀ node ∈ unvisited, node ∈ leaders
  whole : ∀ node ∈ unvisited, ∀ other, Mutual next node other → other ∈ unvisited
  leadersDistinct : leaders.Nodup
  order : IsFinishOrder previous leaders

/-- The nodes that a leader and they lead to each other, each listed once. -/
structure IsComponentOf (next : α → List α) (leader : α) (component : List α) : Prop where
  distinct : component.Nodup
  mem_iff : ∀ node, node ∈ component ↔ Mutual next leader node

theorem IsComponentOf.leader_mem (isComponent : IsComponentOf next leader component) :
    leader ∈ component :=
  (isComponent.mem_iff leader).mpr (.refl leader)

theorem IsComponentOf.mutual_iff (isComponent : IsComponentOf next leader component)
    (member : node ∈ component) : other ∈ component ↔ Mutual next node other := by
  have toNode := (isComponent.mem_iff node).mp member
  rw [isComponent.mem_iff]
  exact ⟨toNode.symm.trans, toNode.trans⟩

/-- A path to a node of the same component stays in the component. -/
theorem leadsTo_of_mutual
    (whole : ∀ node ∈ unvisited, ∀ other, Mutual next node other → other ∈ unvisited)
    (fresh : leader ∈ unvisited) (mutuality : Mutual next leader node) :
    LeadsTo next unvisited leader node := by
  obtain ⟨forth, back⟩ := mutuality
  induction forth using ReflTransGen.head_induction_on with
  | refl => exact .here fresh
  | @head first second step rest ih =>
      have toFirst : Reaches next second first := ReflTransGen.trans rest back
      have secondFresh := whole first fresh second ⟨.single step, toFirst⟩
      exact .step fresh step (ih secondFresh (back.tail step))

theorem nodup_explore [DecidableEq α] {stack : List α} (distinct : unvisited.Nodup) :
    (explore next unvisited stack).Nodup := by
  fun_induction explore next unvisited stack with
  | case1 => exact List.nodup_nil
  | case2 unvisited node stack fresh ih =>
      refine List.nodup_cons.mpr ⟨fun again => ?_, ih (distinct.erase node)⟩
      exact distinct.not_mem_erase (mem_of_mem_explore again)
  | case3 unvisited node stack visited ih => exact ih distinct

namespace IsCollecting

/-- An unvisited leader collects its component. -/
theorem isComponentOf_explore [DecidableEq α]
    (reverse : ∀ first second, second ∈ previous first ↔ first ∈ next second)
    (collecting : IsCollecting previous next unvisited (leader :: leaders))
    (fresh : leader ∈ unvisited) :
    IsComponentOf next leader (explore next unvisited [leader]) := by
  refine ⟨nodup_explore collecting.distinct, fun node => ?_⟩
  simp only [mem_explore, List.mem_singleton, exists_eq_left]
  refine ⟨fun walk => ?_, leadsTo_of_mutual collecting.whole fresh⟩
  have unvisitedNode := walk.target_mem
  have path : Reaches next leader node := by
    clear fresh collecting unvisitedNode
    induction walk with
    | here _ => exact .refl
    | step _ edge _ ih => exact .head edge ih
  rcases collecting.order.mutual_of_reaches collecting.leadersDistinct
    (collecting.pending node unvisitedNode) ((reaches_reverse reverse).mpr path) with
    same | ⟨other, missing, same⟩
  · exact ((mutual_reverse reverse).mp same).symm
  · -- a node of the component would be no leader any more, yet it is unvisited
    have unvisitedOther :=
      collecting.whole node unvisitedNode other ((mutual_reverse reverse).mp same)
    exact absurd (collecting.pending other unvisitedOther) missing

/-- The step that collects the component of a leader. -/
theorem collected [DecidableEq α]
    (collecting : IsCollecting previous next unvisited (leader :: leaders))
    (isComponent : IsComponentOf next leader component) :
    IsCollecting previous next (unvisited.filter fun node => !component.contains node)
      leaders := by
  have leftIff : ∀ node, node ∈ unvisited.filter (fun node => !component.contains node) ↔
      node ∈ unvisited ∧ node ∉ component := by
    simp
  refine ⟨collecting.distinct.filter _, fun node left => ?_, fun node left other same => ?_,
    (List.nodup_cons.mp collecting.leadersDistinct).2, collecting.order.2⟩
  · obtain ⟨unvisitedNode, outside⟩ := (leftIff node).mp left
    have different : node ≠ leader := fun equal => outside (equal ▸ isComponent.leader_mem)
    exact List.mem_of_ne_of_mem different (collecting.pending node unvisitedNode)
  · obtain ⟨unvisitedNode, outside⟩ := (leftIff node).mp left
    refine (leftIff other).mpr ⟨collecting.whole node unvisitedNode other same, fun inside => ?_⟩
    exact outside ((isComponent.mutual_iff inside).mpr same.symm)

/-- The step that passes a leader whose component is collected. -/
theorem passed (collecting : IsCollecting previous next unvisited (leader :: leaders))
    (visited : leader ∉ unvisited) : IsCollecting previous next unvisited leaders := by
  refine ⟨collecting.distinct, fun node fresh => ?_, collecting.whole,
    (List.nodup_cons.mp collecting.leadersDistinct).2, collecting.order.2⟩
  have different : node ≠ leader := fun equal => visited (equal ▸ fresh)
  exact List.mem_of_ne_of_mem different (collecting.pending node fresh)

/-- What the second pass collects are components. They are disjoint and take up all that
was unvisited. -/
theorem collect [DecidableEq α]
    (reverse : ∀ first second, second ∈ previous first ↔ first ∈ next second)
    (collecting : IsCollecting previous next unvisited leaders) :
    (∀ component ∈ Digraph.collect next unvisited leaders,
        ∃ leader, IsComponentOf next leader component) ∧
      (Digraph.collect next unvisited leaders).Pairwise List.Disjoint ∧
      ∀ node ∈ unvisited, ∃ component ∈ Digraph.collect next unvisited leaders,
        node ∈ component := by
  fun_induction Digraph.collect next unvisited leaders with
  | case1 unvisited =>
      refine ⟨fun _ member => absurd member List.not_mem_nil, .nil, fun node fresh => ?_⟩
      exact absurd (collecting.pending node fresh) List.not_mem_nil
  | case2 unvisited leader leaders fresh component ih =>
      have isComponent := collecting.isComponentOf_explore reverse fresh
      obtain ⟨areComponents, disjoint, covered⟩ := ih (collecting.collected isComponent)
      refine ⟨List.forall_mem_cons.mpr ⟨⟨leader, isComponent⟩, areComponents⟩,
        List.pairwise_cons.mpr ⟨fun later isLater node first again => ?_, disjoint⟩,
        fun node unvisitedNode => ?_⟩
      · have left := mem_unvisited_of_mem_collect isLater again
        simp [first] at left
      · by_cases inside : node ∈ component
        · exact ⟨component, List.mem_cons_self, inside⟩
        · obtain ⟨later, isLater, member⟩ := covered node (by simp [unvisitedNode, inside])
          exact ⟨later, List.mem_cons_of_mem _ isLater, member⟩
  | case3 unvisited leader leaders visited ih => exact ih (collecting.passed visited)

end IsCollecting

end Collecting

section Components

variable [DecidableEq α] {graph : Digraph α} {component : List α} {leader node other : α}

/-- Nodes are listed once, and edges join nodes. -/
structure IsProper (graph : Digraph α) : Prop where
  distinct : graph.nodes.Nodup
  source_mem : ∀ edge ∈ graph.edges, edge.1 ∈ graph.nodes
  target_mem : ∀ edge ∈ graph.edges, edge.2 ∈ graph.nodes

/-- One edge of a graph. -/
def HasEdge (graph : Digraph α) (node other : α) : Prop :=
  (node, other) ∈ graph.edges

theorem mem_predecessors {start target : α} :
    start ∈ graph.predecessors target ↔ (start, target) ∈ graph.edges := by
  simp [predecessors]

theorem reaches_successors_iff :
    Reaches graph.successors node other ↔ ReflTransGen graph.HasEdge node other := by
  simp only [Reaches, mem_successors]
  rfl

theorem isCollecting_components (proper : graph.IsProper) :
    IsCollecting graph.predecessors graph.successors graph.nodes graph.componentOrder := by
  have closedBack : ∀ node ∈ graph.nodes, ∀ other ∈ graph.predecessors node,
      other ∈ graph.nodes := fun node _ other before =>
    proper.source_mem (other, node) (mem_predecessors.mp before)
  have closed : ∀ node ∈ graph.nodes, ∀ other ∈ graph.successors node,
      other ∈ graph.nodes := fun node _ other after =>
    proper.target_mem (node, other) (mem_successors.mp after)
  obtain ⟨orderDistinct, memOrder, order⟩ :=
    (isSearching_start proper.distinct).finish closedBack
  exact ⟨proper.distinct, fun node isNode => (memOrder node).mpr isNode,
    fun node isNode other same => same.1.mem_of_closed closed isNode, orderDistinct, order⟩

/-- What the two passes find: components, each node in one of them. -/
theorem components_spec (proper : graph.IsProper) :
    (∀ component ∈ graph.components,
        ∃ leader, IsComponentOf graph.successors leader component) ∧
      graph.components.Pairwise List.Disjoint ∧
      ∀ node ∈ graph.nodes, ∃ component ∈ graph.components, node ∈ component :=
  (isCollecting_components proper).collect fun _ _ =>
    mem_predecessors.trans mem_successors.symm

/-- A component has a cycle when one, and then each, of its nodes leads to itself. -/
theorem IsComponentOf.isCyclic_iff (isComponent : IsComponentOf graph.successors leader component)
    (member : node ∈ component) :
    graph.isCyclic component = true ↔ TransGen graph.HasEdge node node := by
  match component with
  | [] => exact absurd member List.not_mem_nil
  | [single] =>
      obtain rfl := List.mem_singleton.mp member
      rw [isCyclic, List.contains_iff_mem]
      refine ⟨fun loop => TransGen.single loop, fun round => ?_⟩
      obtain ⟨middle, edge, back⟩ := TransGen.head'_iff.mp round
      have same : Mutual graph.successors node middle :=
        ⟨.single (mem_successors.mpr edge), reaches_successors_iff.mpr back⟩
      obtain rfl := List.mem_singleton.mp ((isComponent.mutual_iff member).mpr same)
      exact edge
  | first :: second :: rest =>
      refine iff_of_true rfl ?_
      obtain ⟨another, isMember, different⟩ :
          ∃ another ∈ first :: second :: rest, another ≠ node := by
        by_cases isFirst : first = node
        · refine ⟨second, by simp, fun isSecond => ?_⟩
          have apart := (List.nodup_cons.mp isComponent.distinct).1
          exact apart (by simp [isFirst, isSecond])
        · exact ⟨first, by simp, isFirst⟩
      obtain ⟨forth, back⟩ := (isComponent.mutual_iff member).mp isMember
      rw [reaches_successors_iff] at forth back
      rcases reflTransGen_iff_eq_or_transGen.mp forth with same | proper
      · exact absurd same different
      · exact proper.trans_left back

end Components

section Cycles

variable [DecidableEq α] {graph : Digraph α} {component : List α} {node other : α}

/-- The nodes of a component in node order are those that the filter keeps. -/
theorem inNodeOrder_eq_filter (distinct : graph.nodes.Nodup) (componentDistinct : component.Nodup)
    (inside : ∀ node ∈ component, node ∈ graph.nodes) :
    graph.inNodeOrder component = graph.nodes.filter fun node => component.contains node := by
  have ordered : (graph.inNodeOrder component).Pairwise fun first second =>
      graph.nodes.idxOf first ≤ graph.nodes.idxOf second := by
    have sorted := @List.pairwise_mergeSort α
      (fun first second => decide (graph.nodes.idxOf first ≤ graph.nodes.idxOf second))
      (by simp only [decide_eq_true_eq]; omega)
      (by simp only [Bool.or_eq_true, decide_eq_true_eq]; omega) component
    exact sorted.imp of_decide_eq_true
  have nodesOrdered : graph.nodes.Pairwise fun first second =>
      graph.nodes.idxOf first ≤ graph.nodes.idxOf second := by
    rw [List.pairwise_iff_getElem]
    intro first second firstBound secondBound before
    rw [distinct.idxOf_getElem, distinct.idxOf_getElem]
    exact before.le
  refine List.Perm.eq_of_pairwise ?_ ordered (nodesOrdered.filter _) ?_
  · intro first second _ isSecond forth back
    have isNode := (List.mem_filter.mp isSecond).1
    exact ((List.idxOf_inj isNode).mp (le_antisymm back forth)).symm
  · refine (List.mergeSort_perm component _).trans ?_
    refine (List.perm_ext_iff_of_nodup componentDistinct (distinct.filter _)).mpr fun node => ?_
    rw [List.mem_filter, List.contains_iff_mem]
    exact ⟨fun member => ⟨inside node member, member⟩, And.right⟩

/-- Every cycle is a component, in node order, whose nodes lead to themselves. -/
theorem exists_component_of_mem_cycles (proper : graph.IsProper) {cycle : List α}
    (isCycle : cycle ∈ graph.cycles) :
    ∃ component ∈ graph.components, graph.isCyclic component = true ∧ cycle.Perm component ∧
      cycle = graph.nodes.filter fun node => component.contains node := by
  obtain ⟨component, kept, rfl⟩ := List.mem_map.mp isCycle
  obtain ⟨isComponent, cyclic⟩ := List.mem_filter.mp kept
  obtain ⟨leader, ofLeader⟩ := (components_spec proper).1 component isComponent
  refine ⟨component, isComponent, cyclic, List.mergeSort_perm component _, ?_⟩
  exact inNodeOrder_eq_filter proper.distinct ofLeader.distinct fun node member =>
    mem_unvisited_of_mem_collect isComponent member

/-- Two nodes are on one cycle when each leads to the other by at least one edge. -/
theorem exists_mem_cycles_iff (proper : graph.IsProper) :
    (∃ cycle ∈ graph.cycles, node ∈ cycle ∧ other ∈ cycle) ↔
      TransGen graph.HasEdge node other ∧ TransGen graph.HasEdge other node := by
  constructor
  · rintro ⟨cycle, isCycle, nodeMem, otherMem⟩
    obtain ⟨component, isComponent, cyclic, perm, -⟩ :=
      exists_component_of_mem_cycles proper isCycle
    obtain ⟨leader, ofLeader⟩ := (components_spec proper).1 component isComponent
    rw [perm.mem_iff] at nodeMem otherMem
    obtain ⟨forth, back⟩ := (ofLeader.mutual_iff nodeMem).mp otherMem
    rw [reaches_successors_iff] at forth back
    have round := (ofLeader.isCyclic_iff nodeMem).mp cyclic
    exact ⟨round.trans_left forth, TransGen.trans_right back round⟩
  · rintro ⟨forth, back⟩
    have isNode : node ∈ graph.nodes := by
      obtain ⟨first, edge, -⟩ := TransGen.head'_iff.mp forth
      exact proper.source_mem _ edge
    obtain ⟨component, isComponent, nodeMem⟩ := (components_spec proper).2.2 node isNode
    obtain ⟨leader, ofLeader⟩ := (components_spec proper).1 component isComponent
    have otherMem : other ∈ component := (ofLeader.mutual_iff nodeMem).mpr
      ⟨reaches_successors_iff.mpr forth.to_reflTransGen,
        reaches_successors_iff.mpr back.to_reflTransGen⟩
    have cyclic := (ofLeader.isCyclic_iff nodeMem).mpr (forth.trans back)
    refine ⟨graph.inNodeOrder component, ?_, List.mem_mergeSort.mpr nodeMem,
      List.mem_mergeSort.mpr otherMem⟩
    exact List.mem_map_of_mem (List.mem_filter.mpr ⟨isComponent, cyclic⟩)

theorem cycles_disjoint (proper : graph.IsProper) : graph.cycles.Pairwise List.Disjoint := by
  rw [cycles, List.pairwise_map]
  refine ((components_spec proper).2.1.filter _).imp fun disjoint node first second => ?_
  exact disjoint (List.mem_mergeSort.mp first) (List.mem_mergeSort.mp second)

theorem cycle_ne_nil (proper : graph.IsProper) {cycle : List α} (isCycle : cycle ∈ graph.cycles) :
    cycle ≠ [] := by
  obtain ⟨component, isComponent, -, perm, -⟩ := exists_component_of_mem_cycles proper isCycle
  obtain ⟨leader, ofLeader⟩ := (components_spec proper).1 component isComponent
  exact List.ne_nil_of_mem (perm.mem_iff.mpr ofLeader.leader_mem)

theorem cycle_sublist_nodes (proper : graph.IsProper) {cycle : List α}
    (isCycle : cycle ∈ graph.cycles) : cycle.Sublist graph.nodes := by
  obtain ⟨component, -, -, -, rfl⟩ := exists_component_of_mem_cycles proper isCycle
  exact List.filter_sublist

end Cycles

end Digraph

theorem isProper_dependencyGraph (declarations : List Declaration) :
    (dependencyGraph declarations).IsProper where
  distinct := nodup_eraseDups _
  source_mem := fun (source, target) edge => by
    obtain ⟨declaration, declared, rfl, -⟩ :=
      mem_referencePairs.mp (Digraph.mem_edges_ofLists.mp edge).1
    exact Digraph.mem_nodes_ofLists.mpr (List.mem_map_of_mem declared)
  target_mem := fun (source, target) edge =>
    Digraph.mem_nodes_ofLists.mpr (Digraph.mem_edges_ofLists.mp edge).2

theorem hasEdge_dependencyGraph {declarations : List Declaration} :
    (dependencyGraph declarations).HasEdge = ReferenceStep declarations := by
  funext name other
  rw [Digraph.HasEdge, dependencyGraph, Digraph.mem_edges_ofLists, mem_referencePairs,
    ReferenceStep]

/-- The cycles of some declarations are the strongly connected components of their references
that contain a cycle. A name is on one when it leads to itself, two names are on the same one
when each leads to the other, no two cycles share a name, and each lists its names in the
order of their declaration. -/
theorem cycles_dependencyGraph (declarations : List Declaration) :
    (∀ name, (∃ cycle ∈ (dependencyGraph declarations).cycles, name ∈ cycle) ↔
        TransGen (ReferenceStep declarations) name name) ∧
      (∀ name other,
        (∃ cycle ∈ (dependencyGraph declarations).cycles, name ∈ cycle ∧ other ∈ cycle) ↔
          TransGen (ReferenceStep declarations) name other ∧
            TransGen (ReferenceStep declarations) other name) ∧
      (dependencyGraph declarations).cycles.Pairwise List.Disjoint ∧
      ∀ cycle ∈ (dependencyGraph declarations).cycles,
        cycle ≠ [] ∧ cycle.Sublist (declarations.map Declaration.name).eraseDups := by
  have proper := isProper_dependencyGraph declarations
  have together : ∀ name other,
      (∃ cycle ∈ (dependencyGraph declarations).cycles, name ∈ cycle ∧ other ∈ cycle) ↔
        TransGen (ReferenceStep declarations) name other ∧
          TransGen (ReferenceStep declarations) other name := by
    intro name other
    rw [Digraph.exists_mem_cycles_iff proper, hasEdge_dependencyGraph]
  refine ⟨fun name => ?_, together, Digraph.cycles_disjoint proper, fun cycle isCycle => ?_⟩
  · have alone := together name name
    simpa only [and_self] using alone
  · exact ⟨Digraph.cycle_ne_nil proper isCycle, Digraph.cycle_sublist_nodes proper isCycle⟩

end TypedClient
