import TerraDeps.DependencyGraph.CycleSearch

/-!
# Build order

Units are placed one by one. Of each unit it is known how many of its dependencies have not been
placed, and the units with none are ready; always the least of these is placed next, and counted
off for the units that depend on it. The build order exists unless the search comes upon a cycle.
-/

set_option autoImplicit false

namespace TerraDeps

/-- How far the placing of units has come. -/
structure Placement where
  /-- How many dependencies of each unit have not been placed; integers, so that a count which is
  lowered too often can be told from 0. -/
  pending : Catalog Address Int
  /-- The units that can be placed. -/
  ready : Catalog Address Unit
  /-- The units that have been placed, in order. -/
  order : List Address

namespace Placement

/-- The units of a graph before the first is placed. -/
def start (g : DependencyGraph) : Placement :=
  let pending : Catalog Address Int :=
    .tabulate (fun a => ((g.directDependencies a).length : Int)) g.units.toList
  ⟨pending, .tabulate (fun _ => ()) ((pending.entries.filter fun e => e.2 = 0).map Prod.fst), []⟩

/-- Counts one dependency of `b` off; at the last, `b` is ready. -/
def release (p : Placement) (b : Address) : Placement :=
  match p.pending.get? b with
  | none => p
  | some count =>
    { p with
      pending := p.pending.insert b (count - 1)
      ready := if count - 1 = 0 then p.ready.insert b () else p.ready }

/-- How many units are ready or can still become so. -/
def remaining (p : Placement) : Nat :=
  p.pending.countValues (fun count => decide (0 < count)) + p.ready.size

/-- To release a unit leaves no more to do than before. -/
theorem remaining_release_le (p : Placement) (b : Address) :
    (p.release b).remaining ≤ p.remaining := by
  unfold release
  split
  · exact Nat.le_refl _
  · rename_i count found
    have counted := Catalog.countValues_insert (fun count => decide (0 < count)) p.pending b
      (count - 1)
    have grown := Catalog.size_insert_le p.ready b ()
    simp only [found, Option.any_some, decide_eq_true_eq] at counted
    simp only [remaining]
    split
    · rename_i last
      rw [if_pos (show (0 : Int) < count by omega),
        if_neg (show ¬ (0 : Int) < count - 1 by omega)] at counted
      omega
    · split at counted <;> split at counted <;> omega

/-- To release several units leaves no more to do than before. -/
theorem remaining_foldl_release_le (p : Placement) (units : List Address) :
    (units.foldl release p).remaining ≤ p.remaining := by
  induction units generalizing p with
  | nil => exact Nat.le_refl _
  | cons b units ih => exact Nat.le_trans (ih (p.release b)) (remaining_release_le p b)

/-- The least unit that is ready, and the situation once it stands in the order; nothing if no unit
is ready. -/
def takeReady? (p : Placement) : Option (Address × Placement) :=
  p.ready.popFirst?.map fun (a, ready) => (a, { p with ready := ready, order := p.order ++ [a] })

/-- Places the least unit that is ready and counts it off for the units that depend on it; nothing
if no unit is ready. -/
def next? (g : DependencyGraph) (p : Placement) : Option Placement :=
  p.takeReady?.map fun (a, q) => (g.dependents a).foldl release q

/-- To take a ready unit leaves less to do. -/
theorem remaining_takeReady_lt {p q : Placement} {a : Address}
    (h : p.takeReady? = some (a, q)) : q.remaining < p.remaining := by
  unfold takeReady? at h
  obtain ⟨⟨b, ready⟩, popped, same⟩ := Option.map_eq_some_iff.mp h
  obtain ⟨value, entries⟩ := Catalog.entries_of_popFirst? popped
  obtain ⟨-, rfl⟩ := Prod.mk.inj same
  simp only [remaining, Catalog.size, entries, List.length_cons]
  omega

/-- Every placement leaves less to do. -/
theorem remaining_next_lt {g : DependencyGraph} {p q : Placement} (h : p.next? g = some q) :
    q.remaining < p.remaining := by
  unfold next? at h
  obtain ⟨⟨a, r⟩, taken, rfl⟩ := Option.map_eq_some_iff.mp h
  exact Nat.lt_of_le_of_lt (remaining_foldl_release_le r (g.dependents a))
    (remaining_takeReady_lt taken)

/-- Places units until none is ready. -/
def finish (g : DependencyGraph) (p : Placement) : Placement :=
  match _h : p.next? g with
  | none => p
  | some q => q.finish g
termination_by p.remaining
decreasing_by exact remaining_next_lt (by assumption)

end Placement

/-- The units in an order in which each comes after its dependencies, the least possible first; or
a cycle, which rules such an order out. -/
def DependencyGraph.buildOrder (g : DependencyGraph) : Except (List Address) (List Address) :=
  match g.findCycle? with
  | some cycle => .error cycle
  | none => .ok ((Placement.start g).finish g).order

end TerraDeps
