import TerraDeps.Address.Order
import TerraDeps.OrderedSet

/-!
# Numbered nodes

How a dependency graph is kept. The nodes are numbered from 0 in the order in which they are added,
and each has the address of a unit; an arc is a pair of numbers; a catalog leads from an address to
its node. These parts could disagree, and the same arc could stand twice. `IsConsistent` says that
neither is so, and every addition keeps it.
-/

set_option autoImplicit false

namespace TerraDeps

/-- Numbered nodes with their addresses, the arcs between them, and the node of each address. -/
structure NodeGraph where
  /-- The address of each node, at its number. -/
  labels : List Address
  /-- Pairs of a node and one that it depends on, in the order of their addition. -/
  arcs : List (Nat × Nat)
  /-- The node of an address. -/
  nodeOf : Catalog Address Nat

/-- The two ways in which arcs are followed. -/
inductive Direction where
  /-- From a node to those that it depends on. -/
  | outgoing
  /-- From a node to those that depend on it. -/
  | incoming
  deriving DecidableEq, Repr

/-- The pair that leads from `x` to `y` when pairs are followed in this direction. -/
def Direction.pair {α : Type} (d : Direction) (x y : α) : α × α :=
  match d with
  | .outgoing => (x, y)
  | .incoming => (y, x)

namespace NodeGraph

/-- The graph without nodes. -/
def empty : NodeGraph := ⟨[], [], .empty⟩

/-- The graph with a node for the address, and that node; an address that has one keeps it. -/
def ensureNode (n : NodeGraph) (a : Address) : NodeGraph × Nat :=
  match n.nodeOf.get? a with
  | some i => (n, i)
  | none => (⟨n.labels ++ [a], n.arcs, n.nodeOf.insert a n.labels.length⟩, n.labels.length)

/-- The graph with a node for the address. -/
def addUnit (n : NodeGraph) (a : Address) : NodeGraph :=
  (n.ensureNode a).1

/-- The graph with an arc, unless it has the arc already. -/
def addArc (n : NodeGraph) (i j : Nat) : NodeGraph :=
  if (i, j) ∈ n.arcs then n else { n with arcs := n.arcs ++ [(i, j)] }

/-- The graph with nodes for two addresses and an arc between them. -/
def addDependency (n : NodeGraph) (a b : Address) : NodeGraph :=
  let (n, i) := n.ensureNode a
  let (n, j) := n.ensureNode b
  n.addArc i j

/-- The address of a node; a number without a node has that of the root. -/
def label (n : NodeGraph) (i : Nat) : Address :=
  n.labels.getD i (.ofPath "")

/-- The nodes to which the arcs at a node lead. -/
def neighbors (n : NodeGraph) (d : Direction) (i : Nat) : List Nat :=
  match d with
  | .outgoing => (n.arcs.filter fun e => e.1 = i).map Prod.snd
  | .incoming => (n.arcs.filter fun e => e.2 = i).map Prod.fst

/-- The nodes in the order of their addresses. -/
def sortByLabel (n : NodeGraph) (nodes : List Nat) : List Nat :=
  nodes.mergeSort fun i j => decide (n.label i ≤ n.label j)

/-- All nodes, in the order of their addresses. -/
def sortedNodes (n : NodeGraph) : List Nat :=
  n.sortByLabel (List.range n.labels.length)

/-- The nodes to which the arcs at a node lead, each once, in the order of their addresses. -/
def sortedNeighbors (n : NodeGraph) (d : Direction) (i : Nat) : List Nat :=
  dropRepeats id (n.sortByLabel (n.neighbors d i))

/-- The parts of the graph fit one another. -/
structure IsConsistent (n : NodeGraph) : Prop where
  /-- An address leads to the node that has it and to no other. -/
  get?_nodeOf : ∀ a i, n.nodeOf.get? a = some i ↔ n.labels[i]? = some a
  /-- Both ends of an arc are nodes. -/
  lt_length : ∀ e ∈ n.arcs, e.1 < n.labels.length ∧ e.2 < n.labels.length
  /-- No arc stands twice. -/
  nodup_arcs : n.arcs.Nodup

section Ensuring

variable {n : NodeGraph} {a b : Address} {i : Nat}

/-- Either the address has a node and nothing changes, or a node is added at the end. -/
theorem ensureNode_cases (n : NodeGraph) (a : Address) :
    (∃ i, n.nodeOf.get? a = some i ∧ n.ensureNode a = (n, i)) ∨
    (n.nodeOf.get? a = none ∧ n.ensureNode a =
      (⟨n.labels ++ [a], n.arcs, n.nodeOf.insert a n.labels.length⟩, n.labels.length)) := by
  unfold ensureNode
  cases found : n.nodeOf.get? a with
  | some i => exact .inl ⟨i, rfl, rfl⟩
  | none => exact .inr ⟨rfl, rfl⟩

/-- A node for an address changes no arcs. -/
theorem arcs_ensureNode (n : NodeGraph) (a : Address) : (n.ensureNode a).1.arcs = n.arcs := by
  obtain ⟨i, -, same⟩ | ⟨-, same⟩ := ensureNode_cases n a <;> rw [same]

/-- A node is added behind those that there are. -/
theorem labels_prefix_ensureNode (n : NodeGraph) (a : Address) :
    n.labels <+: (n.ensureNode a).1.labels := by
  obtain ⟨i, -, same⟩ | ⟨-, same⟩ := ensureNode_cases n a
  · simp [same]
  · simp [same]

/-- The nodes that there are keep their addresses. -/
theorem getElem?_labels_ensureNode (h : n.labels[i]? = some b) :
    (n.ensureNode a).1.labels[i]? = some b := by
  obtain ⟨inside, rfl⟩ := List.getElem?_eq_some_iff.mp h
  exact List.prefix_iff_getElem?.mp (labels_prefix_ensureNode n a) i inside

/-- The address has the node that is given for it. -/
theorem IsConsistent.getElem?_ensureNode (h : n.IsConsistent) (a : Address) :
    (n.ensureNode a).1.labels[(n.ensureNode a).2]? = some a := by
  obtain ⟨i, found, same⟩ | ⟨-, same⟩ := ensureNode_cases n a
  · rw [same]
    exact (h.get?_nodeOf a i).mp found
  · rw [same]
    exact List.getElem?_concat_length

/-- The addresses with a node are those that had one and the one that is given a node. -/
theorem IsConsistent.mem_labels_ensureNode (h : n.IsConsistent) :
    b ∈ (n.ensureNode a).1.labels ↔ b ∈ n.labels ∨ b = a := by
  obtain ⟨i, found, same⟩ | ⟨-, same⟩ := ensureNode_cases n a
  · have known : a ∈ n.labels := List.mem_of_getElem? ((h.get?_nodeOf a i).mp found)
    rw [same]
    exact ⟨.inl, fun either => either.elim id fun new => new ▸ known⟩
  · rw [same]
    exact List.mem_append.trans (or_congr_right List.mem_singleton)

/-- A node for one more address keeps the parts fitting. -/
theorem IsConsistent.ensureNode (h : n.IsConsistent) (a : Address) :
    (n.ensureNode a).1.IsConsistent := by
  obtain ⟨i, -, same⟩ | ⟨absent, same⟩ := ensureNode_cases n a
  · rw [same]
    exact h
  · rw [same]
    refine ⟨fun b i => ?_, fun e inside => ?_, h.nodup_arcs⟩
    · rw [Catalog.get?_insert]
      exact GivesPlaces.concat h.get?_nodeOf absent b i
    · have ends := h.lt_length e inside
      rw [List.length_append]
      exact ⟨Nat.lt_add_right _ ends.1, Nat.lt_add_right _ ends.2⟩

end Ensuring

/-- The parts of the graph without nodes fit one another. -/
theorem isConsistent_empty : empty.IsConsistent where
  get?_nodeOf a i := by simp [empty, Catalog.get?_empty]
  lt_length _ inside := absurd inside List.not_mem_nil
  nodup_arcs := List.nodup_nil

/-- An arc between nodes keeps the parts fitting. -/
theorem IsConsistent.addArc {n : NodeGraph} {i j : Nat} (h : n.IsConsistent)
    (hi : i < n.labels.length) (hj : j < n.labels.length) : (n.addArc i j).IsConsistent := by
  unfold NodeGraph.addArc
  split
  · exact h
  · rename_i fresh
    refine ⟨h.get?_nodeOf, fun e inside => ?_, ?_⟩
    · rcases List.mem_append.mp inside with old | new
      · exact h.lt_length e old
      · rw [List.mem_singleton.mp new]
        exact ⟨hi, hj⟩
    · rw [List.nodup_append]
      refine ⟨h.nodup_arcs, by simp, ?_⟩
      rintro e old f new rfl
      exact fresh (List.mem_singleton.mp new ▸ old)

/-- The arcs are those that there were and the one that is added. -/
theorem mem_arcs_addArc {n : NodeGraph} {i j : Nat} {e : Nat × Nat} :
    e ∈ (n.addArc i j).arcs ↔ e ∈ n.arcs ∨ e = (i, j) := by
  unfold addArc
  split
  · rename_i old
    exact ⟨.inl, fun either => either.elim id fun same => same ▸ old⟩
  · exact List.mem_append.trans (or_congr_right List.mem_singleton)

/-- An arc changes no addresses. -/
theorem labels_addArc (n : NodeGraph) (i j : Nat) : (n.addArc i j).labels = n.labels := by
  unfold addArc
  split <;> rfl

/-- To add a unit keeps the parts fitting. -/
theorem IsConsistent.addUnit {n : NodeGraph} (h : n.IsConsistent) (a : Address) :
    (n.addUnit a).IsConsistent :=
  h.ensureNode a

/-- To add a dependency keeps the parts fitting. -/
theorem IsConsistent.addDependency {n : NodeGraph} (h : n.IsConsistent) (a b : Address) :
    (n.addDependency a b).IsConsistent := by
  have first := h.ensureNode a
  refine (first.ensureNode b).addArc ?_ ?_
  · have start := (List.getElem?_eq_some_iff.mp (h.getElem?_ensureNode a)).1
    exact Nat.lt_of_lt_of_le start (labels_prefix_ensureNode _ b).length_le
  · exact (List.getElem?_eq_some_iff.mp (first.getElem?_ensureNode b)).1

section Consistent

variable {n : NodeGraph} {d : Direction} {a : Address} {i j : Nat}

/-- The address at the number of a node is its label. -/
theorem label_eq (h : n.labels[i]? = some a) : n.label i = a := by
  rw [label, List.getD_eq_getElem?_getD, h, Option.getD_some]

/-- A node has its label for an address. -/
theorem getElem?_labels (h : i < n.labels.length) : n.labels[i]? = some (n.label i) := by
  rw [label, List.getD_eq_getElem?_getD, List.getElem?_eq_getElem h, Option.getD_some]

/-- Two nodes never have the same address. -/
theorem IsConsistent.eq_of_label_eq (h : n.IsConsistent) (hi : i < n.labels.length)
    (hj : j < n.labels.length) (same : n.label i = n.label j) : i = j := by
  have first := (h.get?_nodeOf _ i).mpr (getElem?_labels hi)
  rw [same, (h.get?_nodeOf _ j).mpr (getElem?_labels hj), Option.some.injEq] at first
  exact first.symm

/-- The neighbors of a node are what the arcs at it lead to. -/
theorem mem_neighbors : j ∈ n.neighbors d i ↔ d.pair i j ∈ n.arcs := by
  cases d <;> simp [neighbors, Direction.pair]

/-- What has a neighbor is a node, and so is the neighbor. -/
theorem IsConsistent.lt_of_mem_neighbors (h : n.IsConsistent) (inside : j ∈ n.neighbors d i) :
    i < n.labels.length ∧ j < n.labels.length := by
  have ends := h.lt_length _ (mem_neighbors.mp inside)
  cases d with
  | outgoing => exact ends
  | incoming => exact ends.symm

/-- No neighbor is listed twice. -/
theorem IsConsistent.nodup_neighbors (h : n.IsConsistent) : (n.neighbors d i).Nodup := by
  cases d with
  | outgoing =>
    refine List.pairwise_map.mpr ((h.nodup_arcs.filter _).imp_of_mem fun he hf different same => ?_)
    have starts := of_decide_eq_true (List.mem_filter.mp he).2
    have startsToo := of_decide_eq_true (List.mem_filter.mp hf).2
    exact different (Prod.ext (starts.trans startsToo.symm) same)
  | incoming =>
    refine List.pairwise_map.mpr ((h.nodup_arcs.filter _).imp_of_mem fun he hf different same => ?_)
    have ends := of_decide_eq_true (List.mem_filter.mp he).2
    have endsToo := of_decide_eq_true (List.mem_filter.mp hf).2
    exact different (Prod.ext same (ends.trans endsToo.symm))

/-- Sorting only moves nodes. -/
theorem perm_sortByLabel (n : NodeGraph) (nodes : List Nat) : (n.sortByLabel nodes).Perm nodes :=
  List.mergeSort_perm _ _

/-- The addresses of sorted nodes are their addresses sorted. -/
theorem map_label_sortByLabel (n : NodeGraph) (nodes : List Nat) :
    (n.sortByLabel nodes).map n.label = Address.sorted (nodes.map n.label) :=
  List.map_mergeSort fun _ _ _ _ => rfl

/-- No neighbor comes twice, so that none is dropped. -/
theorem IsConsistent.sortedNeighbors_eq (h : n.IsConsistent) (d : Direction) (i : Nat) :
    n.sortedNeighbors d i = n.sortByLabel (n.neighbors d i) := by
  refine dropRepeats_eq_self ?_
  rw [List.map_id]
  exact (perm_sortByLabel n _).nodup_iff.mpr h.nodup_neighbors

end Consistent

end NodeGraph

end TerraDeps
