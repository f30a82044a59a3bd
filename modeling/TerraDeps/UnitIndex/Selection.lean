import TerraDeps.OrderedSet
import TerraDeps.UnitIndex

/-!
# Selecting units

A selection holds the units that queries name, each once, in the order of their addresses. The
first query that names no unit makes it fail.
-/

set_option autoImplicit false

namespace TerraDeps

namespace UnitIndex

/-- The units in the order of their addresses, each once. -/
def arranged (units : List BuildUnit) : List BuildUnit :=
  dropRepeats BuildUnit.address (units.mergeSort fun a b => decide (a.address ≤ b.address))

/-- The units that the queries name, or all units if there are no queries. -/
def select (index : UnitIndex) (queries : List Address) : Except Failure (List BuildUnit) :=
  if queries.isEmpty then .ok index.toList else (queries.mapM index.find).map arranged

end UnitIndex

end TerraDeps
