import Mathlib.Data.List.Nodup
import Mathlib.Tactic.Tauto
import TerraDeps.DependencyGraph

/-!
# The graph of given dependencies

A graph that is built from units with their dependencies has the units and all that they depend on,
and an edge for each dependency. Where no unit is given twice and none with a repeated dependency,
every dependency given is an edge of its own.
-/

set_option autoImplicit false

namespace TerraDeps.DependencyGraph

variable {g : DependencyGraph} {a c : Address} {bs : List Address} {e : Address × Address}
  {given : List (Address × List Address)}

/-- An added unit joins the units. -/
theorem mem_units_addUnit : c ∈ (g.addUnit a).units.toList ↔ c ∈ g.units.toList ∨ c = a :=
  g.isConsistent.mem_labels_ensureNode

/-- A new unit has no arcs, and the old ones keep their numbers. -/
theorem mem_edges_addUnit : e ∈ (g.addUnit a).edges.toList ↔ e ∈ g.edges.toList := by
  have old {i : ℕ} (inside : i < g.nodes.labels.length) :
      (g.addUnit a).nodes.labels[i]? = g.nodes.labels[i]? := by
    have stands := List.getElem?_eq_getElem inside
    exact (NodeGraph.getElem?_labels_ensureNode stands).trans stands.symm
  obtain ⟨b, b'⟩ := e
  rw [mem_edges_iff, mem_edges_iff,
    show (g.addUnit a).nodes.arcs = g.nodes.arcs from g.nodes.arcs_ensureNode a]
  refine exists_congr fun i => exists_congr fun j => and_congr_right fun arc => ?_
  have ends := g.isConsistent.lt_length _ arc
  rw [old ends.1, old ends.2]

/-- Both units of an added dependency join the units. -/
theorem mem_units_addDependency {b : Address} :
    c ∈ (g.addDependency a b).units.toList ↔ c ∈ g.units.toList ∨ c = a ∨ c = b := by
  have units : (g.addDependency a b).units.toList = ((g.addUnit a).addUnit b).units.toList :=
    NodeGraph.labels_addArc _ _ _
  rw [units, mem_units_addUnit, mem_units_addUnit, or_assoc]

/-- An added dependency joins the edges. -/
theorem mem_edges_addDependency {b : Address} :
    e ∈ (g.addDependency a b).edges.toList ↔ e ∈ g.edges.toList ∨ (e.1 = a ∧ e.2 = b) := by
  -- the arc that is added lies between the nodes of the two addresses
  have labels : (g.addDependency a b).nodes.labels = ((g.addUnit a).addUnit b).nodes.labels :=
    NodeGraph.labels_addArc _ _ _
  have start : ((g.addUnit a).addUnit b).nodes.labels[(g.nodes.ensureNode a).2]? = some a :=
    NodeGraph.getElem?_labels_ensureNode (g.isConsistent.getElem?_ensureNode a)
  have stop : ((g.addUnit a).addUnit b).nodes.labels[((g.addUnit a).nodes.ensureNode b).2]? =
      some b :=
    (g.addUnit a).isConsistent.getElem?_ensureNode b
  obtain ⟨c, c'⟩ := e
  have old : (c, c') ∈ g.edges.toList ↔ (c, c') ∈ ((g.addUnit a).addUnit b).edges.toList :=
    mem_edges_addUnit.symm.trans mem_edges_addUnit.symm
  rw [old, mem_edges_iff, mem_edges_iff, labels]
  constructor
  · rintro ⟨i, j, arc, hi, hj⟩
    rcases NodeGraph.mem_arcs_addArc.mp arc with arc | new
    · exact .inl ⟨i, j, arc, hi, hj⟩
    · obtain ⟨rfl, rfl⟩ := Prod.mk.inj new
      exact .inr ⟨Option.some.inj (hi.symm.trans start), Option.some.inj (hj.symm.trans stop)⟩
  · rintro (⟨i, j, arc, hi, hj⟩ | ⟨rfl, rfl⟩)
    · exact ⟨i, j, NodeGraph.mem_arcs_addArc.mpr (.inl arc), hi, hj⟩
    · exact ⟨_, _, NodeGraph.mem_arcs_addArc.mpr (.inr rfl), start, stop⟩

/-- Added dependencies of one unit join the edges. -/
theorem mem_edges_foldl_addDependency :
    e ∈ (bs.foldl (fun g b => g.addDependency a b) g).edges.toList ↔
      e ∈ g.edges.toList ∨ (e.1 = a ∧ e.2 ∈ bs) := by
  induction bs generalizing g with
  | nil => simp
  | cons b bs ih =>
    rw [List.foldl_cons, ih, mem_edges_addDependency, List.mem_cons, or_assoc, and_or_left]

/-- What a unit of the graph is made to depend on joins the units. -/
theorem mem_units_foldl_addDependency (unit : a ∈ g.units.toList) :
    c ∈ (bs.foldl (fun g b => g.addDependency a b) g).units.toList ↔
      c ∈ g.units.toList ∨ c ∈ bs := by
  induction bs generalizing g with
  | nil => simp
  | cons b bs ih =>
    rw [List.foldl_cons, ih (mem_units_addDependency.mpr (.inl unit)), mem_units_addDependency,
      List.mem_cons]
    have known : c = a → c ∈ g.units.toList := fun same => same ▸ unit
    tauto

/-- The edges that are given for a unit join the edges. -/
theorem mem_edges_addEdges {unit : Address × List Address} :
    e ∈ (g.addEdges unit).edges.toList ↔ e ∈ g.edges.toList ∨ (e.1 = unit.1 ∧ e.2 ∈ unit.2) := by
  rw [addEdges, mem_edges_foldl_addDependency, mem_edges_addUnit]

/-- A unit and what it is given edges to join the units. -/
theorem mem_units_addEdges {unit : Address × List Address} :
    c ∈ (g.addEdges unit).units.toList ↔ c ∈ g.units.toList ∨ c = unit.1 ∨ c ∈ unit.2 := by
  rw [addEdges, mem_units_foldl_addDependency (mem_units_addUnit.mpr (.inr rfl)),
    mem_units_addUnit, or_assoc]

/-- The edges that are given for several units join the edges. -/
theorem mem_edges_foldl_addEdges : e ∈ (given.foldl addEdges g).edges.toList ↔
    e ∈ g.edges.toList ∨ ∃ unit ∈ given, e.1 = unit.1 ∧ e.2 ∈ unit.2 := by
  induction given generalizing g with
  | nil => simp
  | cons unit given ih =>
    rw [List.foldl_cons, ih, mem_edges_addEdges, List.exists_mem_cons_iff, or_assoc]

/-- Several units and what they are given edges to join the units. -/
theorem mem_units_foldl_addEdges : c ∈ (given.foldl addEdges g).units.toList ↔
    c ∈ g.units.toList ∨ ∃ unit ∈ given, c = unit.1 ∨ c ∈ unit.2 := by
  induction given generalizing g with
  | nil => simp
  | cons unit given ih =>
    rw [List.foldl_cons, ih, mem_units_addEdges, List.exists_mem_cons_iff, or_assoc]

/-- The edges of a graph made from edges are those that are given. -/
theorem mem_edges_ofEdges : e ∈ (ofEdges given).edges.toList ↔
    ∃ unit ∈ given, e.1 = unit.1 ∧ e.2 ∈ unit.2 := by
  rw [ofEdges, mem_edges_foldl_addEdges]
  exact or_iff_right List.not_mem_nil

/-- The units of a graph made from edges are those that are given and what they are given edges to.
-/
theorem mem_units_ofEdges : c ∈ (ofEdges given).units.toList ↔
    ∃ unit ∈ given, c = unit.1 ∨ c ∈ unit.2 := by
  rw [ofEdges, mem_units_foldl_addEdges]
  exact or_iff_right List.not_mem_nil

/-- No dependency is lost where each is given once. -/
theorem size_edges_ofEdges (units : (given.map Prod.fst).Nodup)
    (dependencies : ∀ unit ∈ given, unit.2.Nodup) :
    (ofEdges given).edges.size = (given.flatMap Prod.snd).length := by
  have once : (given.flatMap fun unit => unit.2.map fun b => (unit.1, b)).Nodup := by
    refine List.nodup_flatMap.mpr ⟨fun unit listed => ?_, ?_⟩
    · exact (dependencies unit listed).map fun b b' same => (Prod.mk.inj same).2
    · refine (List.pairwise_map.mp units).imp fun different => ?_
      refine List.disjoint_left.mpr fun e inFirst inLater => ?_
      obtain ⟨b, -, rfl⟩ := List.mem_map.mp inFirst
      obtain ⟨b', -, same⟩ := List.mem_map.mp inLater
      exact different (Prod.mk.inj same).1.symm
  have same : (ofEdges given).edges.toList.Perm
      (given.flatMap fun unit => unit.2.map fun b => (unit.1, b)) := by
    refine (List.perm_ext_iff_of_nodup (ofEdges given).edges.nodup once).mpr fun e => ?_
    simp only [mem_edges_ofEdges, List.mem_flatMap, List.mem_map]
    refine exists_congr fun unit => and_congr_right fun _ => ?_
    constructor
    · rintro ⟨start, dependency⟩
      exact ⟨e.2, dependency, by rw [← start]⟩
    · rintro ⟨b, dependency, rfl⟩
      exact ⟨rfl, dependency⟩
  rw [OrderedSet.size, same.length_eq, List.length_flatMap, List.length_flatMap]
  simp only [List.length_map]

end TerraDeps.DependencyGraph
