import TerraDeps.Address
import TerraDeps.Catalog
import TerraDeps.Failure
import TerraDeps.FileTree.Files
import TerraDeps.Glob
import TerraDeps.Inference
import TerraDeps.Marker
import TerraDeps.ModulePath
import TerraDeps.Settings
import TerraDeps.Text.EditDistance

/-!
# The build units of a workspace

A build unit is a directory whose marker file declares one. `UnitIndex.ofFiles` finds the units
among the files of a workspace, which come in the order of the walk; it fails at the first marker
that cannot be read, declares more than one unit, or declares a second unit for its directory.
`UnitIndex.find` looks a unit up by its address and `UnitIndex.suggest` names directories that may
have been meant instead.
-/

set_option autoImplicit false

namespace TerraDeps

open Text

/-- A build unit. -/
structure BuildUnit where
  /-- How the unit is named. -/
  address : Address
  /-- The unit's directory. -/
  directory : ModulePath
  /-- The path of the marker file that declares it. -/
  marker : String
  /-- The paths of its source files, ascending. -/
  sources : List String
  deriving DecidableEq

/-- The build units of a workspace by the text of their directory. -/
structure UnitIndex where
  /-- The units. -/
  units : Catalog String BuildUnit
  /-- A unit is kept under its directory, and its address names that directory. -/
  keyed : ∀ key unit, units.get? key = some unit →
    unit.directory.text = key ∧ unit.address.specPath = key

instance : DecidableEq UnitIndex := fun a b =>
  decidable_of_iff (a.units = b.units) (by cases a; cases b; simp)

/-- Whether some pattern fits the path. -/
def isIgnored (ignore : List Glob.Pattern) (path : String) : Bool :=
  ignore.any fun p => p.fits path

/-- The pattern that a setting gives. -/
def ignorePattern (text : String) : Except Failure Glob.Pattern :=
  match Glob.Pattern.parse text with
  | .ok p => .ok p
  | .error e => .error (.config s!"Invalid ignore pattern '{text}': {e.message}")

/-- Whether a file name ends as the names of source files do. -/
def hasSourceExtension (extensions : List String) (name : String) : Bool :=
  extensions.any fun e => e.toList.isSuffixOf name.toList

/-- The paths of the source files in a directory, ascending. -/
def ownedSources (settings : WorkspaceSettings) (ignore : List Glob.Pattern)
    (files : List FoundFile) (directory : List String) : List String :=
  let owned := files.filter fun f =>
    decide (f.directory = directory) &&
      hasSourceExtension settings.sourceExtensions f.name && !isIgnored ignore f.path
  (owned.map FoundFile.path).mergeSort fun a b => decide (a ≤ b)

/-- The declaration of a marker file, if it has one. -/
def soleDeclaration? (path : String) : List Marker.Declaration →
    Except Failure (Option Marker.Declaration)
  | [] => .ok none
  | [d] => .ok (some d)
  | _ :: second :: _ => .error (.config
      s!"{path} declares terraform_module more than once (again at line {second.line})")

/-- The directory of a marker file as a directory of the workspace. -/
def markerDirectory (path : String) : Except Failure ModulePath :=
  match ModulePath.parse (Path.parentDir path) with
  | .ok directory => .ok directory
  | .error e => .error (.config s!"Marker {path} is outside the workspace: {e.message}")

namespace UnitIndex

/-- The index without units. -/
def empty : UnitIndex :=
  ⟨.empty, fun _ _ found => by simp [Catalog.get?_empty] at found⟩

/-- The index with one more unit, in place of any unit in the same directory. -/
def add (index : UnitIndex) (unit : BuildUnit)
    (own : unit.address.specPath = unit.directory.text) : UnitIndex where
  units := index.units.insert unit.directory.text unit
  keyed key other found := by
    rw [Catalog.get?_insert] at found
    split at found
    · rename_i same
      obtain rfl := Option.some.inj found
      exact ⟨same.symm, own.trans same.symm⟩
    · exact index.keyed key other found

/-- The unit in a directory. -/
def unitAt? (index : UnitIndex) (directory : ModulePath) : Option BuildUnit :=
  index.units.get? directory.text

/-- The index with what a marker file declares. -/
def addMarker (settings : WorkspaceSettings) (ignore : List Glob.Pattern)
    (files : List FoundFile) (index : UnitIndex) (marker : FoundFile) :
    Except Failure UnitIndex :=
  match FileTree.textOf marker.bytes with
  | .error e => .error (.io e)
  | .ok text =>
    match soleDeclaration? marker.path (Marker.declarations text) with
    | .error e => .error e
    | .ok none => .ok index
    | .ok (some declaration) =>
      match markerDirectory marker.path with
      | .error e => .error e
      | .ok directory =>
        match index.unitAt? directory with
        | some existing => .error (.config (s!"Directory '{directory.display}' declares two " ++
            s!"terraform modules ({existing.marker} and {marker.path})"))
        | none => .ok (index.add {
            address := Address.ofParts directory.text declaration.name
            directory := directory
            marker := marker.path
            sources := ownedSources settings ignore files marker.directory }
            (Address.specPath_ofParts directory.text declaration.name))

/-- Whether a file counts as a marker. -/
def isMarker (settings : WorkspaceSettings) (ignore : List Glob.Pattern) (f : FoundFile) : Bool :=
  settings.markerFiles.contains f.name && !isIgnored ignore f.path

/-- The build units among the files of a workspace. -/
def ofFiles (settings : WorkspaceSettings) (files : List FoundFile) : Except Failure UnitIndex :=
  match settings.ignore.mapM ignorePattern with
  | .error e => .error e
  | .ok ignore =>
    (files.filter (isMarker settings ignore)).foldlM (addMarker settings ignore files) empty

/-- The build units of the workspace to whose root a path leads. -/
def discover (tree : FileTree) (base : Place) (root : String) (settings : WorkspaceSettings) :
    Except Failure UnitIndex :=
  ofFiles settings (tree.filesUnder base root)

/-- The units in the order of their directories. -/
def toList (index : UnitIndex) : List BuildUnit :=
  index.units.values

/-- How many units there are. -/
def size (index : UnitIndex) : Nat :=
  index.units.size

/-- Whether there are no units. -/
def isEmpty (index : UnitIndex) : Bool :=
  index.units.isEmpty

/-- The unit that a query names. -/
def find (index : UnitIndex) (query : Address) : Except Failure BuildUnit :=
  let found := match ModulePath.parse query.specPath with
    | .ok directory => index.unitAt? directory
    | .error _ => none
  match found.filter fun u => u.address.fits query with
  | some u => .ok u
  | none => .error (.unitNotFound query.display)

/-- The most changes by which a suggested directory may differ from the one asked for: half the
bytes of the latter. -/
def suggestionRadius (target : String) : Nat :=
  target.utf8ByteSize * 50 / 100

/-- The directories of units with their distances from a path, nearest first and those of one
distance by name. -/
def ranked (index : UnitIndex) (target : String) : List (Nat × String) :=
  (index.toList.map fun u =>
    (editDistance target.toList u.directory.text.toList, u.directory.display)).mergeSort
      fun a b => decide (a.1 < b.1 ∨ (a.1 = b.1 ∧ a.2 ≤ b.2))

/-- Up to three directories of units close to the one asked for, closest first. -/
def suggest (index : UnitIndex) (directory : ModulePath) : List String :=
  let target := directory.text
  (((index.ranked target).filter fun r => r.1 ≤ suggestionRadius target).take 3).map Prod.snd

/-- The index as what inference asks. -/
def resolver (index : UnitIndex) : AddressResolver where
  addressOf? directory := (index.unitAt? directory).map BuildUnit.address
  suggest := index.suggest

end UnitIndex

end TerraDeps
