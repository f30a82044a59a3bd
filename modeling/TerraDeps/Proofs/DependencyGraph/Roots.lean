import Mathlib.Order.WellFoundedSet
import TerraDeps.Proofs.DependencyGraph.CycleSearch
import TerraDeps.Proofs.DependencyGraph.Gathering

/-!
# An acyclic graph is gathered from its roots

A root is a unit on which none depends, so that it is never gathered as a dependency. Going back
from a unit to one that depends on it, and on to one that depends on that, one comes to an end in an
acyclic graph, and the end is a root. Hence the roots and what is gathered from them are all the
units, and there is a root if there are any units.
-/

set_option autoImplicit false

namespace TerraDeps.DependencyGraph

variable {g : DependencyGraph} {a b r : Address}

/-- An edge leads to whatever is gathered. -/
theorem exists_dependent (gathered : b ∈ g.transitiveDependencies a) : ∃ c, g.DependsOn c b := by
  obtain ⟨c, -, edge⟩ := Relation.TransGen.tail'_iff.mp (mem_transitiveDependencies_iff.mp gathered)
  exact ⟨c, edge⟩

/-- No unit reaches a root. -/
theorem not_mem_transitiveDependencies_of_root (root : r ∈ g.roots) (a : Address) :
    r ∉ g.transitiveDependencies a := by
  intro gathered
  obtain ⟨c, edge⟩ := exists_dependent gathered
  exact (mem_roots.mp root).2 c edge

/-- Every unit of an acyclic graph is reached from a root. -/
theorem IsAcyclic.exists_root (acyclic : g.IsAcyclic) (unit : a ∈ g.units.toList) :
    ∃ r ∈ g.roots, Relation.ReflTransGen g.DependsOn r a := by
  have := acyclic.isStrictOrder
  have wellFounded : {b | b ∈ g.units.toList}.WellFoundedOn (Relation.TransGen g.DependsOn) :=
    g.units.toList.finite_toSet.wellFoundedOn
  -- of the units that reach `a`, one that none of the others reaches
  obtain ⟨⟨r, unitR⟩, reach, first⟩ :=
    wellFounded.has_min {b | Relation.ReflTransGen g.DependsOn b a} ⟨⟨a, unit⟩, .refl⟩
  refine ⟨r, mem_roots.mpr ⟨unitR, fun b edge => ?_⟩, reach⟩
  have dependent : g.DependsOn b r := edge
  exact first ⟨b, dependent.mem_units.1⟩ (reach.head dependent) (.single dependent)

/-- The units of an acyclic graph are its roots and what the roots depend on. -/
theorem mem_units_iff_of_isAcyclic (acyclic : g.IsAcyclic) (a : Address) :
    a ∈ g.units.toList ↔ a ∈ g.roots ∨ ∃ r ∈ g.roots, a ∈ g.transitiveDependencies r := by
  constructor
  · intro unit
    obtain ⟨r, root, reach⟩ := acyclic.exists_root unit
    rcases Relation.reflTransGen_iff_eq_or_transGen.mp reach with rfl | further
    · exact .inl root
    · exact .inr ⟨r, root, mem_transitiveDependencies_iff.mpr further⟩
  · rintro (root | ⟨r, -, gathered⟩)
    · exact (mem_roots.mp root).1
    · obtain ⟨c, edge⟩ := exists_dependent gathered
      exact edge.mem_units.2

/-- Where no cycle is found, the units are the roots and whatever is gathered from a root; there is
a root unless there are no units, and none is gathered from any unit. -/
theorem units_of_roots (acyclic : g.checkAcyclic = .ok ()) :
    (∀ a, a ∈ g.units.toList ↔ a ∈ g.roots ∨ ∃ r ∈ g.roots, a ∈ g.transitiveDependencies r) ∧
    (g.isEmpty = false → g.roots ≠ []) ∧
    ∀ r ∈ g.roots, ∀ a, r ∉ g.transitiveDependencies a := by
  have isAcyclic := checkAcyclic_eq_ok_iff.mp acyclic
  refine ⟨mem_units_iff_of_isAcyclic isAcyclic, fun notEmpty => ?_,
    fun r root a => not_mem_transitiveDependencies_of_root root a⟩
  have units : g.units.toList ≠ [] := by
    intro noUnits
    rw [isEmpty, nodeCount_eq, OrderedSet.size, noUnits] at notEmpty
    contradiction
  obtain ⟨a, unit⟩ := List.exists_mem_of_ne_nil _ units
  obtain ⟨r, root, -⟩ := isAcyclic.exists_root unit
  exact List.ne_nil_of_mem root

/-- Two roots that have a dependency in common. -/
theorem units_of_roots_two :
    let a := Address.ofPath "a"
    let b := Address.ofPath "b"
    let c := Address.ofPath "c"
    let d := Address.ofPath "d"
    let g := ((empty.addDependency a c).addDependency b c).addDependency c d
    g.checkAcyclic = .ok () ∧ g.isEmpty = false ∧ g.roots ≠ [] ∧
      (d ∈ g.roots ∨ ∃ r ∈ g.roots, d ∈ g.transitiveDependencies r) ∧
      a ∈ g.roots ∧ a ∉ g.transitiveDependencies b := by
  intro a b c d g
  -- each edge leads to a greater address, so that none leads back
  have ascend : ∀ e ∈ g.edges.toList, e.1 < e.2 := by decide
  have : IsTrans Address (· < ·) := ⟨fun _ _ _ => KeyOrder.lt_trans⟩
  have isAcyclic : g.IsAcyclic := by
    intro x circle
    have less : x < x := Relation.transGen_minimal (fun y z edge => ascend (y, z) edge) x x circle
    exact KeyOrder.lt_irrefl x less
  have acyclic := checkAcyclic_eq_ok_iff.mpr isAcyclic
  obtain ⟨covered, someRoot, never⟩ := units_of_roots acyclic
  have unit : d ∈ g.units.toList := by decide
  have noDependent : ∀ e ∈ g.edges.toList, e.2 ≠ a := by decide
  have root : a ∈ g.roots :=
    mem_roots.mpr ⟨by decide, fun x edge => noDependent (x, a) edge rfl⟩
  exact ⟨acyclic, by decide, someRoot (by decide), (covered d).mp unit, root, never a root b⟩

end TerraDeps.DependencyGraph
