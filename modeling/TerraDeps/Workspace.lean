import TerraDeps.DependencyGraph
import TerraDeps.Snapshot.Capture
import TerraDeps.UnitIndex

/-!
# Workspaces

A workspace is a file tree with a root and the build units found below it. The dependencies of a
unit are those that its source files give; the dependency graph of a workspace joins the
dependencies of all its units.
-/

set_option autoImplicit false

namespace TerraDeps

/-- A file tree whose build units are known. -/
structure Workspace where
  /-- The files. -/
  tree : FileTree
  /-- The directory from which relative paths count. -/
  base : Place
  /-- The path of the root. -/
  root : String
  /-- The build units below the root. -/
  index : UnitIndex

namespace Workspace

/-- The workspace at a root. -/
def discover (tree : FileTree) (base : Place) (root : String) (settings : WorkspaceSettings) :
    Except Failure Workspace :=
  (UnitIndex.discover tree base root settings).map fun index => ⟨tree, base, root, index⟩

/-- The units that a unit depends on. -/
def dependencies (w : Workspace) (unit : BuildUnit) : Except Failure Dependencies :=
  match Snapshot.capture w.tree w.base w.root unit.sources with
  | .error e => .error e
  | .ok snapshot =>
    inferDependencies (ModuleReference.extract snapshot unit.sources) w.index.resolver
      Path.parentDir

/-- The unit's address with the units that it depends on. -/
def unitDependencies (w : Workspace) (unit : BuildUnit) :
    Except Failure (Address × Dependencies) :=
  (w.dependencies unit).map fun d => (unit.address, d)

/-- The dependencies of several units, up to the first that fails. -/
def inferAll (w : Workspace) (units : List BuildUnit) :
    Except Failure (List (Address × Dependencies)) :=
  units.mapM w.unitDependencies

/-- The dependency graph of units with their dependencies. -/
def graphOf (inferred : List (Address × Dependencies)) : DependencyGraph :=
  .ofEdges (inferred.map fun (address, d) => (address, d.addresses.toList))

/-- The dependency graph of all units. -/
def graph (w : Workspace) : Except Failure DependencyGraph :=
  (w.inferAll w.index.toList).map graphOf

end Workspace

end TerraDeps
