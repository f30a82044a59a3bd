import TerraDeps.Document.Blocks
import TerraDeps.Failure
import TerraDeps.Native.Blocks
import TerraDeps.Path
import TerraDeps.Snapshot

/-!
# References to modules

The module blocks of a set of files are its references to other modules. A file whose name ends in
`override` adds none: each of its blocks replaces arguments of the first reference that has the
block's name and stems from the same directory, later blocks over earlier ones. The first file that
cannot be read makes the whole extraction fail.
-/

set_option autoImplicit false

namespace TerraDeps

/-- A module block with a source, in the file where it stands. -/
structure ModuleReference where
  /-- The block's label. -/
  name : String
  /-- The `source` argument as it is written. -/
  source : String
  /-- The `version` argument, if there is one. -/
  version : Option String
  /-- The file. -/
  file : String
  /-- The line of the block, or 0 where lines are not known. -/
  line : Nat
  deriving DecidableEq, Repr

namespace ModuleReference

/-- The directory of the file where the block stands. -/
def directory (r : ModuleReference) : String :=
  Path.parentDir r.file

/-- The text without `ending`, if it ends so. -/
def dropEnding? (ending s : List Char) : Option (List Char) :=
  if ending.isSuffixOf s then some (s.take (s.length - ending.length)) else none

/-- Whether a file is written in the JSON syntax. -/
def isDocument (path : String) : Bool :=
  ".tf.json".toList.isSuffixOf path.toList

/-- Whether a file only overrides blocks of other files. -/
def isOverride (path : String) : Bool :=
  let name := (Path.fileName path).toList
  let stem := ((dropEnding? ".tf.json".toList name).or (dropEnding? ".tf".toList name)).getD name
  decide (stem = "override".toList) || "_override".toList.isSuffixOf stem

/-- The module blocks of a file. -/
def blocksOf (path text : String) : Except ScanError (List ModuleBlock) :=
  if isDocument path then Document.scan text else Native.scan text

/-- The reference that a block makes; without a source it makes none. -/
def ofBlock (path : String) (b : ModuleBlock) : Except ScanError ModuleReference :=
  match b.source with
  | some source => .ok ⟨b.name, source, b.version, path, b.line⟩
  | none => .error ⟨b.line, .missingSource b.name⟩

/-- A block that overrides one of the same name in a directory. -/
structure Override where
  /-- The directory of the override file. -/
  directory : String
  /-- The block. -/
  block : ModuleBlock
  deriving DecidableEq, Repr

/-- The reference with the arguments that a block gives. -/
def overriddenBy (r : ModuleReference) (b : ModuleBlock) : ModuleReference :=
  { r with source := b.source.getD r.source, version := b.version.or r.version }

/-- Whether an override is meant for the reference. -/
def isTarget (o : Override) (r : ModuleReference) : Bool :=
  decide (r.name = o.block.name) && decide (r.directory = o.directory)

/-- The references after an override, which goes to the first that it is meant for. -/
def applyOverride (o : Override) : List ModuleReference → List ModuleReference
  | [] => []
  | r :: rest => if isTarget o r then r.overriddenBy o.block :: rest else r :: applyOverride o rest

/-- What one file contributes: references, or overrides. -/
structure Contribution where
  references : List ModuleReference
  overrides : List Override
  deriving DecidableEq, Repr

/-- What a file with the given text contributes. -/
def contributionOf (path text : String) : Except ScanError Contribution :=
  match blocksOf path text with
  | .error e => .error e
  | .ok blocks =>
    if isOverride path then .ok ⟨[], blocks.map fun b => ⟨Path.parentDir path, b⟩⟩
    else (blocks.mapM (ofBlock path)).map fun references => ⟨references, []⟩

/-- What a file of the snapshot contributes. -/
def contribution (snapshot : Snapshot) (path : String) : Except Failure Contribution :=
  match snapshot.get? path with
  | none => .error (.extraction path "file is not part of the source snapshot")
  | some text => (contributionOf path text).mapError fun e => .extraction path e.display

/-- The references of all contributions, after all overrides in turn. -/
def merge (contributions : List Contribution) : List ModuleReference :=
  (contributions.flatMap Contribution.overrides).foldl (fun rs o => applyOverride o rs)
    (contributions.flatMap Contribution.references)

/-- The module references of the files at `paths`, in order. -/
def extract (snapshot : Snapshot) (paths : List String) : Except Failure (List ModuleReference) :=
  (paths.mapM (contribution snapshot)).map merge

end ModuleReference

end TerraDeps
