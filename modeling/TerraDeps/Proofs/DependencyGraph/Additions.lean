import Mathlib.Data.Finset.Card
import TerraDeps.Proofs.DependencyGraph.BuildOrder
import TerraDeps.Proofs.DependencyGraph.Gathering
import TerraDeps.Proofs.DependencyGraph.OfEdges

/-!
# A graph is its set of units and its set of edges

A graph is built by additions, of a unit or of a dependency. Of all that was added only two sets
count, the addresses that were mentioned and the pairs that were added: the numbered nodes and arcs
of the graph *represent* these sets, and so do its sizes, its direct dependencies and its roots.
Graphs with the same two sets give the same answer to every query, however their nodes are numbered;
for the search for a cycle and for the build order this is so because each finds the least of
something that the edges determine.
-/

set_option autoImplicit false

namespace TerraDeps

/-- What is added to a graph at a time. -/
inductive Addition where
  | unit (a : Address)
  | dependency (a b : Address)

namespace Addition

/-- The graph with what is added. -/
def apply (g : DependencyGraph) : Addition → DependencyGraph
  | unit a => g.addUnit a
  | dependency a b => g.addDependency a b

/-- The addresses that are mentioned. -/
def mentioned : Addition → List Address
  | unit a => [a]
  | dependency a b => [a, b]

/-- The pairs that are added. -/
def pairs : Addition → List (Address × Address)
  | unit _ => []
  | dependency a b => [(a, b)]

/-- The addresses that some of the additions mention. -/
def allMentioned (additions : List Addition) : Finset Address :=
  (additions.flatMap mentioned).toFinset

/-- The pairs that some of the additions add. -/
def allPairs (additions : List Addition) : Finset (Address × Address) :=
  (additions.flatMap pairs).toFinset

/-- A unit and its dependencies as additions. -/
def ofUnit (unit : Address × List Address) : List Addition :=
  .unit unit.1 :: unit.2.map (.dependency unit.1)

end Addition

namespace DependencyGraph

/-- The graph to which everything in a list has been added in turn. -/
def ofAdditions (additions : List Addition) : DependencyGraph :=
  additions.foldl Addition.apply empty

/-- The nodes and arcs of the graph stand for the addresses in `units` and the pairs in `edges`, and
the queries on single units and edges say the same. -/
structure Represents (g : DependencyGraph) (units : Finset Address)
    (edges : Finset (Address × Address)) : Prop where
  /-- Exactly the addresses in `units` have a node. -/
  exists_node_iff : ∀ a, (∃ i, g.nodes.nodeOf.get? a = some i) ↔ a ∈ units
  /-- The node of an address has that address, and no other node has it. -/
  node_iff : ∀ a i, g.nodes.nodeOf.get? a = some i ↔ g.nodes.labels[i]? = some a
  /-- The arcs lie between the nodes of the pairs in `edges`. -/
  arc_iff : ∀ i j, (i, j) ∈ g.nodes.arcs ↔
    ∃ a b, (a, b) ∈ edges ∧ g.nodes.nodeOf.get? a = some i ∧ g.nodes.nodeOf.get? b = some j
  /-- No arc runs beside another. -/
  nodup_arcs : g.nodes.arcs.Nodup
  nodeCount : g.nodeCount = units.card
  edgeCount : g.edgeCount = edges.card
  isEmpty_iff : g.isEmpty = true ↔ units = ∅
  pairwise_directDependencies : ∀ a, (g.directDependencies a).Pairwise fun b c => b < c
  directDependency_iff : ∀ a b, b ∈ g.directDependencies a ↔ (a, b) ∈ edges
  directDependencies_unknown : ∀ a ∉ units, g.directDependencies a = []
  pairwise_roots : g.roots.Pairwise fun a b => a < b
  root_iff : ∀ a, a ∈ g.roots ↔ a ∈ units ∧ ∀ b, (b, a) ∉ edges

/-- No query tells the graphs apart; the dependencies that are gathered count as a set. -/
structure AnswersAlike (g h : DependencyGraph) : Prop where
  nodeCount : g.nodeCount = h.nodeCount
  edgeCount : g.edgeCount = h.edgeCount
  isEmpty : g.isEmpty = h.isEmpty
  directDependencies : ∀ a, g.directDependencies a = h.directDependencies a
  transitiveDependencies : ∀ a, (g.transitiveDependencies a).Perm (h.transitiveDependencies a)
  roots : g.roots = h.roots
  checkAcyclic : g.checkAcyclic = h.checkAcyclic
  buildOrder : g.buildOrder = h.buildOrder

variable {g h : DependencyGraph} {units : Finset Address} {edges : Finset (Address × Address)}
  {addition : Addition} {additions : List Addition} {c : Address} {e : Address × Address}

/-! ## What is added -/

/-- An addition adds the units that it mentions. -/
theorem mem_units_apply :
    c ∈ (addition.apply g).units.toList ↔ c ∈ g.units.toList ∨ c ∈ addition.mentioned := by
  cases addition with
  | unit a => exact mem_units_addUnit.trans (or_congr_right List.mem_singleton.symm)
  | dependency a b =>
    refine mem_units_addDependency.trans (or_congr_right ?_)
    rw [Addition.mentioned, List.mem_cons, List.mem_singleton]

/-- An addition adds its own pairs as edges. -/
theorem mem_edges_apply :
    e ∈ (addition.apply g).edges.toList ↔ e ∈ g.edges.toList ∨ e ∈ addition.pairs := by
  cases addition with
  | unit a => exact mem_edges_addUnit.trans (or_iff_left List.not_mem_nil).symm
  | dependency a b =>
    refine mem_edges_addDependency.trans (or_congr_right ?_)
    rw [Addition.pairs, List.mem_singleton, Prod.ext_iff]

/-- Additions add all units that they mention. -/
theorem mem_units_foldl_apply : c ∈ (additions.foldl Addition.apply g).units.toList ↔
    c ∈ g.units.toList ∨ c ∈ Addition.allMentioned additions := by
  induction additions generalizing g with
  | nil => simp [Addition.allMentioned]
  | cons addition additions ih =>
    rw [List.foldl_cons, ih, mem_units_apply, or_assoc]
    simp [Addition.allMentioned]

/-- Additions add all their pairs as edges. -/
theorem mem_edges_foldl_apply : e ∈ (additions.foldl Addition.apply g).edges.toList ↔
    e ∈ g.edges.toList ∨ e ∈ Addition.allPairs additions := by
  induction additions generalizing g with
  | nil => simp [Addition.allPairs]
  | cons addition additions ih =>
    rw [List.foldl_cons, ih, mem_edges_apply, or_assoc]
    simp [Addition.allPairs]

/-- The units of a graph made by additions are those that they mention. -/
theorem mem_units_ofAdditions :
    c ∈ (ofAdditions additions).units.toList ↔ c ∈ Addition.allMentioned additions :=
  mem_units_foldl_apply.trans (or_iff_right List.not_mem_nil)

/-- The edges of a graph made by additions are their pairs. -/
theorem mem_edges_ofAdditions :
    e ∈ (ofAdditions additions).edges.toList ↔ e ∈ Addition.allPairs additions :=
  mem_edges_foldl_apply.trans (or_iff_right List.not_mem_nil)

/-- Units with their dependencies are one way of giving additions. -/
theorem ofEdges_eq_ofAdditions (given : List (Address × List Address)) :
    ofEdges given = ofAdditions (given.flatMap Addition.ofUnit) := by
  have step (g : DependencyGraph) (unit : Address × List Address) :
      (Addition.ofUnit unit).foldl Addition.apply g = g.addEdges unit := by
    rw [Addition.ofUnit, List.foldl_cons, List.foldl_map]
    rfl
  rw [ofEdges, ofAdditions, List.foldl_flatMap]
  simp only [step]

/-! ## What a graph represents -/

/-- An ordered set has as many items as a finite set with the same ones. -/
theorem card_eq_of_mem_iff {α : Type} [DecidableEq α] {s : OrderedSet α} {t : Finset α}
    (same : ∀ x, x ∈ s.toList ↔ x ∈ t) : s.size = t.card := by
  have listed : s.toList.toFinset = t := by
    ext x
    rw [List.mem_toFinset, same]
  rw [← listed, List.toFinset_card_of_nodup s.nodup]
  rfl

/-- A graph represents the units and the edges that it has. -/
theorem represents_of_mem_iff (sameUnits : ∀ a, a ∈ g.units.toList ↔ a ∈ units)
    (sameEdges : ∀ e, e ∈ g.edges.toList ↔ e ∈ edges) : g.Represents units edges where
  exists_node_iff a := by
    rw [← sameUnits]
    constructor
    · rintro ⟨i, found⟩
      exact List.mem_of_getElem? (get?_nodeOf_eq_some_iff.mp found)
    · intro unit
      obtain ⟨i, stands⟩ := List.getElem?_of_mem unit
      exact ⟨i, get?_nodeOf_eq_some_iff.mpr stands⟩
  node_iff a i := get?_nodeOf_eq_some_iff
  arc_iff i j := by
    -- a unit has one node, so an edge between two units is an arc between their nodes
    simp only [← sameEdges, mem_edges_iff, get?_nodeOf_eq_some_iff]
    constructor
    · intro arc
      have ends := g.isConsistent.lt_length _ arc
      have start := NodeGraph.getElem?_labels ends.1
      have stop := NodeGraph.getElem?_labels ends.2
      exact ⟨_, _, ⟨i, j, arc, start, stop⟩, start, stop⟩
    · rintro ⟨a, b, ⟨i', j', arc, start', stop'⟩, start, stop⟩
      rw [← get?_nodeOf_eq_some_iff] at start stop start' stop'
      rw [start, Option.some.injEq] at start'
      rw [stop, Option.some.injEq] at stop'
      exact start' ▸ stop' ▸ arc
  nodup_arcs := g.isConsistent.nodup_arcs
  nodeCount := (nodeCount_eq g).trans (card_eq_of_mem_iff sameUnits)
  edgeCount := (edgeCount_eq g).trans (card_eq_of_mem_iff sameEdges)
  isEmpty_iff := by
    rw [isEmpty, nodeCount_eq, card_eq_of_mem_iff sameUnits, beq_iff_eq, Finset.card_eq_zero]
  pairwise_directDependencies a :=
    Address.pairwise_lt (g.pairwise_neighborsOf .outgoing a) (g.nodup_directDependencies a)
  directDependency_iff a b := mem_directDependencies.trans (sameEdges (a, b))
  directDependencies_unknown a unknown :=
    neighborsOf_eq_nil fun unit => unknown ((sameUnits a).mp unit)
  pairwise_roots :=
    (Address.pairwise_lt g.pairwise_sortedUnits g.nodup_sortedUnits).sublist g.roots_sublist
  root_iff a := by
    simp only [mem_roots, sameUnits, sameEdges]

/-- A graph made by additions represents what they mention and their pairs. -/
theorem represents_foldl (additions : List Addition) :
    (ofAdditions additions).Represents (Addition.allMentioned additions)
      (Addition.allPairs additions) :=
  represents_of_mem_iff (fun _ => mem_units_ofAdditions) fun _ => mem_edges_ofAdditions

/-! ## Graphs of the same sets -/

section Alike

variable (sameUnits : ∀ a, a ∈ g.units.toList ↔ a ∈ h.units.toList)
  (sameEdges : ∀ e, e ∈ g.edges.toList ↔ e ∈ h.edges.toList)

include sameUnits sameEdges in
/-- Graphs with the same units and edges have the same build orders. -/
theorem isBuildOrder_congr (order : List Address) :
    g.IsBuildOrder order ↔ h.IsBuildOrder order := by
  have edges (a b : Address) : g.DependsOn a b ↔ h.DependsOn a b := sameEdges (a, b)
  constructor
  · rintro ⟨nodup, mem, first⟩
    refine ⟨nodup, fun a => (mem a).trans (sameUnits a), fun before a after split b edge => ?_⟩
    exact first before a after split b ((edges a b).mpr edge)
  · rintro ⟨nodup, mem, first⟩
    refine ⟨nodup, fun a => (mem a).trans (sameUnits a).symm, fun before a after split b edge => ?_⟩
    exact first before a after split b ((edges a b).mp edge)

include sameUnits sameEdges in
/-- Each order is the least of the same orders. -/
theorem buildOrder_congr : g.buildOrder = h.buildOrder := by
  have found : g.findCycle? = h.findCycle? := findCycle_congr fun a b => sameEdges (a, b)
  unfold buildOrder
  rw [found]
  cases noCycle : h.findCycle? with
  | some cycle => rfl
  | none =>
    have validG := Placement.isBuildOrder_finish (isAcyclic_of_findCycle (found.trans noCycle))
    have validH := Placement.isBuildOrder_finish (isAcyclic_of_findCycle noCycle)
    have leastG := Placement.order_finish_least .start
      ((isBuildOrder_congr sameUnits sameEdges _).mpr validH) List.nil_prefix
    have leastH := Placement.order_finish_least .start
      ((isBuildOrder_congr sameUnits sameEdges _).mp validG) List.nil_prefix
    rcases leastG with same | less
    · exact congrArg Except.ok same.symm
    · rcases leastH with same | back
      · exact congrArg Except.ok same
      · exact absurd back (asymm less)

include sameUnits sameEdges in
/-- Graphs with the same units and edges give the same answers. -/
theorem answersAlike : g.AnswersAlike h := by
  have edges (a b : Address) : g.DependsOn a b ↔ h.DependsOn a b := sameEdges (a, b)
  have repG : g.Represents h.units.toList.toFinset h.edges.toList.toFinset :=
    represents_of_mem_iff (by simpa using sameUnits) (by simpa using sameEdges)
  have repH : h.Represents h.units.toList.toFinset h.edges.toList.toFinset :=
    represents_of_mem_iff (by simp) (by simp)
  have nodes := repG.nodeCount.trans repH.nodeCount.symm
  refine ⟨nodes, repG.edgeCount.trans repH.edgeCount.symm, ?_, fun a => ?_, fun a => ?_, ?_, ?_,
    buildOrder_congr sameUnits sameEdges⟩
  · rw [isEmpty, isEmpty, nodes]
  · refine Address.eq_of_pairwise_lt (repG.pairwise_directDependencies a)
      (repH.pairwise_directDependencies a) fun b => ?_
    rw [repG.directDependency_iff, repH.directDependency_iff]
  · refine (List.perm_ext_iff_of_nodup (g.nodup_transitiveDependencies a)
      (h.nodup_transitiveDependencies a)).mpr fun b => ?_
    have dependsOn : g.DependsOn = h.DependsOn := by
      funext c d
      exact propext (edges c d)
    rw [mem_transitiveDependencies_iff, mem_transitiveDependencies_iff, dependsOn]
  · refine Address.eq_of_pairwise_lt repG.pairwise_roots repH.pairwise_roots fun a => ?_
    rw [repG.root_iff, repH.root_iff]
  · unfold checkAcyclic
    rw [findCycle_congr edges]

end Alike

/-- Whatever is added in whatever order and however often, the graph represents the addresses that
were mentioned and the pairs that were added, and every graph of the same two sets answers alike. A
graph of units with their dependencies is built by such additions. -/
theorem represents_ofAdditions (additions : List Addition) :
    (ofAdditions additions).Represents (Addition.allMentioned additions)
      (Addition.allPairs additions) ∧
    (∀ others, Addition.allMentioned others = Addition.allMentioned additions →
      Addition.allPairs others = Addition.allPairs additions →
      (ofAdditions others).AnswersAlike (ofAdditions additions)) ∧
    ∀ given, ofEdges given = ofAdditions (given.flatMap Addition.ofUnit) := by
  refine ⟨represents_foldl additions, fun others units edges => answersAlike ?_ ?_,
    ofEdges_eq_ofAdditions⟩
  · intro a
    rw [mem_units_ofAdditions, mem_units_ofAdditions, units]
  · intro e
    rw [mem_edges_ofAdditions, mem_edges_ofAdditions, edges]

/-- The nodes of the two graphs are numbered the other way round. -/
theorem represents_ofAdditions_reordered :
    let a := Address.ofPath "a"
    let b := Address.ofPath "b"
    let additions := [Addition.dependency a b]
    let others := [Addition.unit b, .dependency a b, .dependency a b]
    Addition.allMentioned others = Addition.allMentioned additions ∧
      Addition.allPairs others = Addition.allPairs additions ∧
      (ofAdditions others).AnswersAlike (ofAdditions additions) := by
  intro a b additions others
  have units : Addition.allMentioned others = Addition.allMentioned additions := by decide
  have edges : Addition.allPairs others = Addition.allPairs additions := by decide
  exact ⟨units, edges, (represents_ofAdditions additions).2.1 others units edges⟩

end DependencyGraph

end TerraDeps
