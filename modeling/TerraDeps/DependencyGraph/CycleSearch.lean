import TerraDeps.DependencyGraph
import TerraDeps.Failure

/-!
# Searching for a cycle

The units are visited depth first, in ascending order, and so are the dependencies of each. A unit
is white before its visit, gray during it and black after it; the gray units, in the order in which
their visits began, are the path. A dependency on a gray unit closes a cycle, which is the part of
the path from that unit on and that unit again, and ends the search.
-/

set_option autoImplicit false

namespace TerraDeps

/-- How far the search has come with a unit. -/
inductive VisitColor where
  /-- The visit has not begun. -/
  | white
  /-- The visit has begun. -/
  | gray
  /-- The visit has ended without a cycle. -/
  | black
  deriving DecidableEq, Repr

/-- What the search knows at one moment. -/
structure CycleSearch where
  /-- The colors of the units. -/
  colors : Catalog Address VisitColor
  /-- The units whose visits have begun and not ended, in the order in which they began. -/
  path : List Address

namespace CycleSearch

/-- The search of a graph before its first visit. -/
def start (g : DependencyGraph) : CycleSearch :=
  ⟨.tabulate (fun _ => .white) g.units.toList, []⟩

/-- How many units have not been visited. -/
def unvisited (s : CycleSearch) : Nat :=
  s.colors.countValues fun c => decide (c = .white)

/-- Begins the visit of a unit. -/
def enter (s : CycleSearch) (a : Address) : CycleSearch :=
  ⟨s.colors.insert a .gray, s.path ++ [a]⟩

/-- Ends the visit of a unit, which is the last of the path. -/
def leave (s : CycleSearch) (a : Address) : CycleSearch :=
  ⟨s.colors.insert a .black, s.path.dropLast⟩

/-- The cycle that a dependency of the last unit of the path on `a` closes. -/
def closing (s : CycleSearch) (a : Address) : List Address :=
  s.path.drop ((s.path.idxOf? a).getD 0) ++ [a]

/-- To enter a unit leaves fewer that are unvisited. -/
theorem unvisited_enter_lt {s : CycleSearch} {a : Address} (h : s.colors.get? a = some .white) :
    (s.enter a).unvisited < s.unvisited := by
  have counted := Catalog.countValues_insert (fun c => decide (c = VisitColor.white)) s.colors a
    .gray
  simp only [h, Option.any_some, decide_true, if_true, reduceCtorEq, decide_false] at counted
  exact Nat.lt_of_succ_le (Nat.le_of_eq counted)

/-- To leave a unit makes none unvisited. -/
theorem unvisited_leave_le (s : CycleSearch) (a : Address) :
    (s.leave a).unvisited ≤ s.unvisited := by
  have counted := Catalog.countValues_insert (fun c => decide (c = VisitColor.white)) s.colors a
    .black
  simp only [reduceCtorEq, decide_false] at counted
  exact Nat.le_trans (Nat.le_add_right _ _) (Nat.le_of_eq counted)

end CycleSearch

namespace DependencyGraph

/-- Visits, in turn, those of the units that are white: a cycle, or the search afterwards, which has
no more units left to visit. -/
def explore (g : DependencyGraph) (s : CycleSearch) (units : List Address) :
    Except (List Address) { t : CycleSearch // t.unvisited ≤ s.unvisited } :=
  match units with
  | [] => .ok ⟨s, Nat.le_refl _⟩
  | a :: rest =>
    match _h : s.colors.get? a with
    | some .gray => .error (s.closing a)
    | some .white =>
      match g.explore (s.enter a) (g.directDependencies a) with
      | .error cycle => .error cycle
      | .ok ⟨t, fewer⟩ =>
        match g.explore (t.leave a) rest with
        | .error cycle => .error cycle
        | .ok ⟨u, fewer'⟩ =>
          .ok ⟨u, Nat.le_trans fewer' (Nat.le_trans (CycleSearch.unvisited_leave_le t a)
            (Nat.le_of_lt (Nat.lt_of_le_of_lt fewer (CycleSearch.unvisited_enter_lt _h))))⟩
    | _ => g.explore s rest
termination_by (s.unvisited, units.length)
decreasing_by
  · exact Prod.Lex.left _ _ (CycleSearch.unvisited_enter_lt _h)
  · refine Prod.Lex.left _ _ (Nat.lt_of_le_of_lt (CycleSearch.unvisited_leave_le t a) ?_)
    exact Nat.lt_of_le_of_lt fewer (CycleSearch.unvisited_enter_lt _h)
  · exact Prod.Lex.right _ (by simp)

/-- Visits, in turn, those of the units that are white. -/
def visitEach (g : DependencyGraph) (s : CycleSearch) (units : List Address) :
    Except (List Address) CycleSearch :=
  (g.explore s units).map Subtype.val

/-- Visits a unit: a cycle, or the search afterwards. -/
def visit (g : DependencyGraph) (s : CycleSearch) (a : Address) :
    Except (List Address) CycleSearch :=
  (g.visitEach (s.enter a) (g.directDependencies a)).map fun t => t.leave a

/-- The first cycle that the visits of the white units among those given come upon. -/
def findCycleFrom? (g : DependencyGraph) (s : CycleSearch) : List Address → Option (List Address)
  | [] => none
  | a :: rest =>
    if s.colors.get? a = some .white then
      match g.visit s a with
      | .error cycle => some cycle
      | .ok t => g.findCycleFrom? t rest
    else g.findCycleFrom? s rest

/-- The cycle that the search comes upon, if there are any: it starts and ends with the same
unit. -/
def findCycle? (g : DependencyGraph) : Option (List Address) :=
  g.findCycleFrom? (.start g) g.sortedUnits

/-- A cycle in words. -/
def chainText (cycle : List Address) : String :=
  " → ".intercalate (cycle.map Address.display)

/-- The failure that a cycle is. -/
def circularity (cycle : List Address) : Failure :=
  .circularDependency (chainText cycle)

/-- Fails with the cycle that the search comes upon, if there are any. -/
def checkAcyclic (g : DependencyGraph) : Except Failure Unit :=
  match g.findCycle? with
  | some cycle => .error (circularity cycle)
  | none => .ok ()

/-- A visit of no units changes nothing. -/
theorem visitEach_nil (g : DependencyGraph) (s : CycleSearch) : g.visitEach s [] = .ok s := by
  rw [visitEach, explore]
  rfl

/-- A visit ends at a unit that is on the path, which closes a cycle. -/
theorem visitEach_cons_gray {g : DependencyGraph} {s : CycleSearch} {a : Address}
    {rest : List Address} (h : s.colors.get? a = some .gray) :
    g.visitEach s (a :: rest) = .error (s.closing a) := by
  rw [visitEach, explore]
  split <;> simp_all [Except.map]

/-- An unvisited unit is visited before the rest, and a cycle found there ends the visit. -/
theorem visitEach_cons_white {g : DependencyGraph} {s : CycleSearch} {a : Address}
    {rest : List Address} (h : s.colors.get? a = some .white) :
    g.visitEach s (a :: rest) =
      match g.visit s a with
      | .error cycle => .error cycle
      | .ok t => g.visitEach t rest := by
  rw [visitEach, explore]
  simp only [visit, visitEach]
  split
  · simp_all
  · cases g.explore (s.enter a) (g.directDependencies a) with
    | error cycle => rfl
    | ok t =>
      simp only [Except.map]
      cases g.explore (t.val.leave a) rest with
      | error cycle => rfl
      | ok u => rfl
  · simp_all

/-- A unit that has been left is passed over. -/
theorem visitEach_cons_black {g : DependencyGraph} {s : CycleSearch} {a : Address}
    {rest : List Address} (h : s.colors.get? a = some .black) :
    g.visitEach s (a :: rest) = g.visitEach s rest := by
  rw [visitEach, explore]
  split
  · simp_all
  · simp_all
  · rfl

end DependencyGraph

end TerraDeps
