import TerraDeps.DependencyGraph.Gathering

/-!
# Graphs of dependencies

A graph has units and edges, each from a unit to one that it depends on; adding either again changes
nothing, and both ends of an edge are units. It is kept as numbered nodes whose parts fit one
another. Whatever the order in which units and edges were added, and so whatever the numbers of the
nodes, the answers come in the order of addresses.
-/

set_option autoImplicit false

namespace TerraDeps

/-- Units and the dependencies between them. -/
structure DependencyGraph where
  /-- The nodes of the units and the arcs of the dependencies. -/
  nodes : NodeGraph
  /-- The parts fit one another. -/
  isConsistent : nodes.IsConsistent

namespace DependencyGraph

/-- The graph without units. -/
def empty : DependencyGraph :=
  ⟨.empty, NodeGraph.isConsistent_empty⟩

/-- The graph with one more unit. -/
def addUnit (g : DependencyGraph) (a : Address) : DependencyGraph :=
  ⟨g.nodes.addUnit a, g.isConsistent.addUnit a⟩

/-- The graph with a dependency of `a` on `b`, and with both as units. -/
def addDependency (g : DependencyGraph) (a b : Address) : DependencyGraph :=
  ⟨g.nodes.addDependency a b, g.isConsistent.addDependency a b⟩

/-- The graph with a unit and dependencies of it. -/
def addEdges (g : DependencyGraph) (unit : Address × List Address) : DependencyGraph :=
  unit.2.foldl (fun g b => g.addDependency unit.1 b) (g.addUnit unit.1)

/-- The graph of units with their dependencies. -/
def ofEdges (edges : List (Address × List Address)) : DependencyGraph :=
  edges.foldl addEdges empty

/-- How many units there are. -/
def nodeCount (g : DependencyGraph) : Nat :=
  g.nodes.labels.length

/-- How many dependencies there are. -/
def edgeCount (g : DependencyGraph) : Nat :=
  g.nodes.arcs.length

/-- Whether there are no units. -/
def isEmpty (g : DependencyGraph) : Bool :=
  g.nodeCount == 0

/-- The units, in the order of their addition. -/
def units (g : DependencyGraph) : OrderedSet Address :=
  ⟨g.nodes.labels, g.nodes.nodeOf.get?, g.isConsistent.get?_nodeOf⟩

/-- No two arcs lead between the same addresses. -/
theorem nodup_pairs {n : NodeGraph} (h : n.IsConsistent) :
    (n.arcs.map fun e => (n.label e.1, n.label e.2)).Nodup := by
  refine List.pairwise_map.mpr (h.nodup_arcs.imp_of_mem fun he hf different same => ?_)
  obtain ⟨starts, ends⟩ := Prod.mk.inj same
  have endsE := h.lt_length _ he
  have endsF := h.lt_length _ hf
  exact different (Prod.ext (h.eq_of_label_eq endsE.1 endsF.1 starts)
    (h.eq_of_label_eq endsE.2 endsF.2 ends))

/-- Pairs of a unit and one that it depends on, in the order of their addition. -/
def edges (g : DependencyGraph) : OrderedSet (Address × Address) :=
  .ofNodup (g.nodes.arcs.map fun e => (g.nodes.label e.1, g.nodes.label e.2))
    (nodup_pairs g.isConsistent)

/-- The units to which the edges at a unit lead, in ascending order; none for an address that is no
unit. -/
def neighborsOf (g : DependencyGraph) (d : Direction) (a : Address) : List Address :=
  match g.nodes.nodeOf.get? a with
  | none => []
  | some i => (g.nodes.sortedNeighbors d i).map g.nodes.label

/-- The units that `a` depends on, in ascending order. -/
def directDependencies (g : DependencyGraph) (a : Address) : List Address :=
  g.neighborsOf .outgoing a

/-- The units that depend on `a`, in ascending order. -/
def dependents (g : DependencyGraph) (a : Address) : List Address :=
  g.neighborsOf .incoming a

/-- The units in ascending order. -/
def sortedUnits (g : DependencyGraph) : List Address :=
  g.nodes.sortedNodes.map g.nodes.label

/-- The units on which none depends, in ascending order. -/
def roots (g : DependencyGraph) : List Address :=
  (g.nodes.sortedNodes.filter fun i => (g.nodes.neighbors .incoming i).isEmpty).map g.nodes.label

/-- The units that `a` depends on directly or through others, `a` among them only if it depends on
itself so; none for an address that is no unit. -/
def transitiveDependencies (g : DependencyGraph) (a : Address) : List Address :=
  match g.nodes.nodeOf.get? a with
  | none => []
  | some i => (Gathering.finish g.nodes ⟨.empty, [i]⟩).toList

section Parts

variable {g : DependencyGraph} {a b : Address} {d : Direction} {i j : Nat}

/-- There are as many nodes as units. -/
theorem nodeCount_eq (g : DependencyGraph) : g.nodeCount = g.units.size := rfl

/-- There are as many arcs as edges. -/
theorem edgeCount_eq (g : DependencyGraph) : g.edgeCount = g.edges.size :=
  (List.length_map _).symm

/-- An address leads to the node that has it. -/
theorem get?_nodeOf_eq_some_iff : g.nodes.nodeOf.get? a = some i ↔ g.nodes.labels[i]? = some a :=
  g.isConsistent.get?_nodeOf a i

/-- An edge is an arc between the nodes of its ends. -/
theorem mem_edges_iff : (a, b) ∈ g.edges.toList ↔
    ∃ i j, (i, j) ∈ g.nodes.arcs ∧ g.nodes.labels[i]? = some a ∧ g.nodes.labels[j]? = some b := by
  constructor
  · intro edge
    obtain ⟨⟨i, j⟩, arc, same⟩ := List.mem_map.mp edge
    obtain ⟨rfl, rfl⟩ := Prod.mk.inj same
    have ends := g.isConsistent.lt_length _ arc
    exact ⟨i, j, arc, NodeGraph.getElem?_labels ends.1, NodeGraph.getElem?_labels ends.2⟩
  · rintro ⟨i, j, arc, start, stop⟩
    exact List.mem_map.mpr ⟨(i, j), arc, by rw [NodeGraph.label_eq start, NodeGraph.label_eq stop]⟩

/-- An edge joins the addresses of two nodes that an arc joins. -/
theorem pair_mem_edges_iff : d.pair a b ∈ g.edges.toList ↔ ∃ i j, d.pair i j ∈ g.nodes.arcs ∧
    g.nodes.labels[i]? = some a ∧ g.nodes.labels[j]? = some b := by
  cases d with
  | outgoing => exact mem_edges_iff
  | incoming =>
    refine mem_edges_iff.trans ⟨?_, ?_⟩
    · rintro ⟨j, i, arc, stop, start⟩
      exact ⟨i, j, arc, start, stop⟩
    · rintro ⟨i, j, arc, start, stop⟩
      exact ⟨j, i, arc, stop, start⟩

/-- Both ends of an edge are units. -/
theorem endsAreUnits (g : DependencyGraph) :
    ∀ e ∈ g.edges.toList, e.1 ∈ g.units.toList ∧ e.2 ∈ g.units.toList := by
  rintro ⟨a, b⟩ edge
  obtain ⟨i, j, -, start, stop⟩ := mem_edges_iff.mp edge
  exact ⟨List.mem_of_getElem? start, List.mem_of_getElem? stop⟩

/-- What is no unit of the graph has no neighbors. -/
theorem neighborsOf_eq_nil (h : a ∉ g.units.toList) : g.neighborsOf d a = [] := by
  unfold neighborsOf
  cases found : g.nodes.nodeOf.get? a with
  | none => rfl
  | some i => exact absurd (List.mem_of_getElem? (get?_nodeOf_eq_some_iff.mp found)) h

/-- The neighbors of a unit are the sorted addresses of its node's neighbors. -/
theorem neighborsOf_eq (h : g.nodes.labels[i]? = some a) :
    g.neighborsOf d a = Address.sorted ((g.nodes.neighbors d i).map g.nodes.label) := by
  rw [neighborsOf, get?_nodeOf_eq_some_iff.mpr h, ← NodeGraph.map_label_sortByLabel,
    ← g.isConsistent.sortedNeighbors_eq]

/-- Neighbors are listed in ascending order. -/
theorem pairwise_neighborsOf (g : DependencyGraph) (d : Direction) (a : Address) :
    (g.neighborsOf d a).Pairwise fun b c => b ≤ c := by
  by_cases unit : a ∈ g.units.toList
  · obtain ⟨i, stands⟩ := List.getElem?_of_mem unit
    rw [neighborsOf_eq stands]
    exact Address.pairwise_sorted _
  · rw [neighborsOf_eq_nil unit]
    exact List.Pairwise.nil

/-- The edges at a unit are the arcs at its node. -/
theorem exists_mem_neighbors_iff (h : g.nodes.labels[i]? = some a) :
    (∃ j ∈ g.nodes.neighbors d i, g.nodes.label j = b) ↔ d.pair a b ∈ g.edges.toList := by
  rw [pair_mem_edges_iff]
  constructor
  · rintro ⟨j, inside, rfl⟩
    have ends := g.isConsistent.lt_of_mem_neighbors inside
    exact ⟨i, j, NodeGraph.mem_neighbors.mp inside, h, NodeGraph.getElem?_labels ends.2⟩
  · rintro ⟨i', j, arc, start, stop⟩
    have same : i' = i :=
      Option.some.inj ((get?_nodeOf_eq_some_iff.mpr start).symm.trans
        (get?_nodeOf_eq_some_iff.mpr h))
    exact ⟨j, NodeGraph.mem_neighbors.mpr (same ▸ arc), NodeGraph.label_eq stop⟩

/-- The neighbors of an address are what edges at it lead to. -/
theorem mem_neighborsOf : b ∈ g.neighborsOf d a ↔ d.pair a b ∈ g.edges.toList := by
  by_cases unit : a ∈ g.units.toList
  · obtain ⟨i, stands⟩ := List.getElem?_of_mem unit
    rw [neighborsOf_eq stands, Address.mem_sorted, List.mem_map, exists_mem_neighbors_iff stands]
  · rw [neighborsOf_eq_nil unit, pair_mem_edges_iff]
    refine ⟨fun inside => absurd inside List.not_mem_nil, ?_⟩
    rintro ⟨i, j, -, start, -⟩
    exact absurd (List.mem_of_getElem? start) unit

/-- No neighbor is listed twice. -/
theorem nodup_neighborsOf (g : DependencyGraph) (d : Direction) (a : Address) :
    (g.neighborsOf d a).Nodup := by
  by_cases unit : a ∈ g.units.toList
  · obtain ⟨i, stands⟩ := List.getElem?_of_mem unit
    rw [neighborsOf_eq stands]
    refine Address.nodup_sorted (List.pairwise_map.mpr ?_)
    refine g.isConsistent.nodup_neighbors.imp_of_mem fun hj hk different same => different ?_
    exact g.isConsistent.eq_of_label_eq (g.isConsistent.lt_of_mem_neighbors hj).2
      (g.isConsistent.lt_of_mem_neighbors hk).2 same
  · rw [neighborsOf_eq_nil unit]
    exact List.nodup_nil

/-- The direct dependencies of a unit are what it has edges to. -/
theorem mem_directDependencies : b ∈ g.directDependencies a ↔ (a, b) ∈ g.edges.toList :=
  mem_neighborsOf

/-- The dependents of a unit are what has edges to it. -/
theorem mem_dependents : b ∈ g.dependents a ↔ (b, a) ∈ g.edges.toList :=
  mem_neighborsOf

/-- No direct dependency is listed twice. -/
theorem nodup_directDependencies (g : DependencyGraph) (a : Address) :
    (g.directDependencies a).Nodup :=
  g.nodup_neighborsOf .outgoing a

/-- No dependent is listed twice. -/
theorem nodup_dependents (g : DependencyGraph) (a : Address) : (g.dependents a).Nodup :=
  g.nodup_neighborsOf .incoming a

/-- The units in ascending order are the units sorted. -/
theorem sortedUnits_eq (g : DependencyGraph) : g.sortedUnits = Address.sorted g.units.toList := by
  have labels : (List.range g.nodes.labels.length).map g.nodes.label = g.nodes.labels := by
    refine List.ext_getElem? fun i => ?_
    rw [List.getElem?_map]
    rcases Nat.lt_or_ge i g.nodes.labels.length with inside | outside
    · rw [List.getElem?_range inside, Option.map_some, NodeGraph.getElem?_labels inside]
    · rw [List.getElem?_eq_none outside, List.getElem?_eq_none (by simpa using outside)]
      rfl
  rw [sortedUnits, NodeGraph.sortedNodes, NodeGraph.map_label_sortByLabel, labels, units]

/-- The sorted units are the units. -/
theorem mem_sortedUnits : a ∈ g.sortedUnits ↔ a ∈ g.units.toList := by
  rw [sortedUnits_eq]
  exact Address.mem_sorted

/-- The sorted units ascend. -/
theorem pairwise_sortedUnits (g : DependencyGraph) :
    g.sortedUnits.Pairwise fun a b => a ≤ b := by
  rw [sortedUnits_eq]
  exact Address.pairwise_sorted _

/-- No unit is sorted twice. -/
theorem nodup_sortedUnits (g : DependencyGraph) : g.sortedUnits.Nodup := by
  rw [sortedUnits_eq]
  exact Address.nodup_sorted g.units.nodup

/-- The roots are units, in their order. -/
theorem roots_sublist (g : DependencyGraph) : g.roots.Sublist g.sortedUnits :=
  List.filter_sublist.map _

/-- The roots are the units at which no edge ends. -/
theorem mem_roots : a ∈ g.roots ↔ a ∈ g.units.toList ∧ ∀ b, (b, a) ∉ g.edges.toList := by
  have isRootNode {i : Nat} (stands : g.nodes.labels[i]? = some a) :
      (g.nodes.neighbors .incoming i).isEmpty ↔ ∀ b, (b, a) ∉ g.edges.toList := by
    rw [List.isEmpty_iff, List.eq_nil_iff_forall_not_mem]
    constructor
    · intro empty b edge
      obtain ⟨j, inside, -⟩ := (exists_mem_neighbors_iff (d := .incoming) stands).mpr edge
      exact empty j inside
    · intro noEdge j inside
      exact noEdge _ ((exists_mem_neighbors_iff (d := .incoming) stands).mp ⟨j, inside, rfl⟩)
  have node {i : Nat} : i ∈ g.nodes.sortedNodes ↔ i < g.nodes.labels.length :=
    (NodeGraph.perm_sortByLabel _ _).mem_iff.trans List.mem_range
  constructor
  · intro root
    obtain ⟨i, inside, rfl⟩ := List.mem_map.mp root
    obtain ⟨listed, empty⟩ := List.mem_filter.mp inside
    have stands := NodeGraph.getElem?_labels (node.mp listed)
    exact ⟨List.mem_of_getElem? stands, (isRootNode stands).mp empty⟩
  · rintro ⟨unit, noEdge⟩
    obtain ⟨i, stands⟩ := List.getElem?_of_mem unit
    have listed := node.mpr (List.getElem?_eq_some_iff.mp stands).1
    exact List.mem_map.mpr ⟨i, List.mem_filter.mpr ⟨listed, (isRootNode stands).mpr noEdge⟩,
      NodeGraph.label_eq stands⟩

end Parts

end DependencyGraph

end TerraDeps
