import TerraDeps.Address
import TerraDeps.ModulePath
import TerraDeps.ModuleReference
import TerraDeps.ModuleSource
import TerraDeps.OrderedSet

/-!
# Inferring dependencies

The local references of a unit's files lead to directories, and the directories to other units.
`localReferences` keeps the references whose source is a path of the workspace and says where they
lead; `inferDependencies` turns them into the addresses of units, leaving out references of a
directory to itself. Either fails at the first reference that leads nowhere.
-/

set_option autoImplicit false

namespace TerraDeps

/-- A reference together with the directory that its source leads to. -/
structure LocalReference where
  reference : ModuleReference
  path : ModulePath
  deriving DecidableEq

/-- How directories are turned into addresses. -/
structure AddressResolver where
  /-- The address of the unit in a directory, if there is one. -/
  addressOf? : ModulePath → Option Address
  /-- Directories of units that may have been meant instead. -/
  suggest : ModulePath → List String

/-- The units that a unit depends on. -/
structure Dependencies where
  addresses : OrderedSet Address
  /-- Whether dependencies on other units of the same directory can be seen. -/
  siblingsInferrable : Bool := false
  deriving DecidableEq

/-- Where a reference leads from the directory `dirOf` its file: nowhere if it is remote. -/
def ModuleReference.resolve (dirOf : String → String) (r : ModuleReference) :
    Except Failure (Option LocalReference) :=
  match ModuleSource.classify r.source r.version with
  | .remote _ => .ok none
  | .localPath relative =>
    match ModulePath.resolve (dirOf r.file) relative with
    | .ok path => .ok (some ⟨r, path⟩)
    | .error e => .error (.pathEscapesRoot r.file r.line r.source e.anchor)

/-- The local references among `references`, in order. -/
def localReferences (dirOf : String → String) (references : List ModuleReference) :
    Except Failure (List LocalReference) :=
  (references.mapM (ModuleReference.resolve dirOf)).map fun found => found.filterMap id

/-- Whether a reference leads to the directory that its own file belongs to. -/
def LocalReference.isSelf (dirOf : String → String) (r : LocalReference) : Bool :=
  match ModulePath.parse (dirOf r.reference.file) with
  | .ok own => decide (own = r.path)
  | .error _ => false

/-- The address of the unit that a reference leads to. -/
def LocalReference.address (resolver : AddressResolver) (r : LocalReference) :
    Except Failure Address :=
  match resolver.addressOf? r.path with
  | some a => .ok a
  | none => .error (.unresolvedAddress r.path.display r.reference.name r.reference.source
      r.reference.file r.reference.line (resolver.suggest r.path))

/-- The units that the references lead to, in order of first mention. -/
def dependenciesOf (resolver : AddressResolver) (dirOf : String → String)
    (references : List ModuleReference) : Except Failure Dependencies :=
  match localReferences dirOf references with
  | .error e => .error e
  | .ok locals =>
    ((locals.filter fun r => !r.isSelf dirOf).mapM (LocalReference.address resolver)).map
      fun addresses => { addresses := OrderedSet.ofList addresses }

/-- The units that extracted references lead to, if they could be extracted. -/
def inferDependencies (extracted : Except Failure (List ModuleReference))
    (resolver : AddressResolver) (dirOf : String → String) : Except Failure Dependencies :=
  match extracted with
  | .error e => .error e
  | .ok references => dependenciesOf resolver dirOf references

end TerraDeps
