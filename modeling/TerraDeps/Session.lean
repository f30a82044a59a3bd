import TerraDeps.DependencyGraph.BuildOrder
import TerraDeps.Invocation
import TerraDeps.Listing
import TerraDeps.Report
import TerraDeps.Settings.Load
import TerraDeps.UnitIndex.Selection
import TerraDeps.Workspace

/-!
# Running commands

A session runs one invocation in a file tree and ends with an outcome: what is printed, and the
exit code. `outcome` is a function of the tree, the working directory and the invocation; nothing
is printed before the command has succeeded.
-/

set_option autoImplicit false

namespace TerraDeps

/-- What a session ends with. -/
structure Outcome where
  exitCode : Nat
  /-- The text on the standard output. -/
  output : String
  /-- The text on the error output. -/
  errors : String
  deriving DecidableEq, Repr

/-- Where an invocation runs. -/
structure Session where
  tree : FileTree
  /-- The working directory. -/
  directory : Place
  /-- Whether output is colored. -/
  color : Bool

namespace Session

/-- The trouble that a failure is during a task. -/
def during {α : Type} (task : String) (r : Except Failure α) : Except Trouble α :=
  r.mapError fun f => ⟨.failure f, [task]⟩

/-- A failure on its own as trouble. -/
def plainly {α : Type} (r : Except Failure α) : Except Trouble α :=
  r.mapError fun f => ⟨.failure f, []⟩

/-- The path of the workspace root without links. -/
def root (s : Session) (i : Invocation) : Except Trouble String :=
  match i.root with
  | none => .ok (findRoot s.tree s.directory s.directory.text)
  | some root =>
    match s.tree.locate s.directory root with
    | .ok place => .ok place.text
    | .error e => .error ⟨.io e, [s!"Workspace root {root} does not exist"]⟩

/-- The settings for a workspace root. -/
def settings (s : Session) (i : Invocation) (root : String) : Except Trouble Settings :=
  let path := i.config.getD (Path.join root settingsFileName)
  during s!"Failed to load configuration from {path}" (Settings.load s.tree s.directory path)

/-- The workspace at a root. -/
def workspace (s : Session) (root : String) (settings : Settings) : Except Trouble Workspace :=
  during "Failed to discover build units"
    (Workspace.discover s.tree s.directory root settings.workspace)

/-- What an inference prints. -/
def inferOutput (s : Session) (w : Workspace) (addresses : List String) (format : OutputFormat) :
    Except Trouble String := do
  let units ← plainly (w.index.select (addresses.map Address.parse))
  let inferred ← plainly (w.inferAll units)
  return match format with
    | .text => Listing.inferredText s.color inferred
    | .json => Listing.jsonText (Listing.inferredJson inferred)

/-- What a build order prints. -/
def graphOutput (s : Session) (w : Workspace) (format : OutputFormat) : Except Trouble String := do
  let g ← plainly w.graph
  let order ← during "Failed to order build units"
    (g.buildOrder.mapError DependencyGraph.circularity)
  return match format with
    | .text => Listing.orderText s.color g order
    | .json => Listing.jsonText (Listing.orderJson g order)

/-- The path of a file named on the command line, from the workspace root. -/
def workspaceFile (file : String) : Except Trouble String :=
  match ModulePath.parse (Path.stored file) with
  | .ok path => .ok path.text
  | .error e => .error ⟨.told e.message, [s!"File {file} is outside the workspace root"]⟩

/-- What the resolution of the local sources of files prints. -/
def parseOutput (s : Session) (root : String) (files : List String) : Except Trouble String := do
  let files ← files.mapM workspaceFile
  let snapshot ← during "Failed to read source files"
    (Snapshot.capture s.tree s.directory root files)
  let references ← plainly (ModuleReference.extract snapshot files)
  let locals ← plainly (localReferences Path.parentDir references)
  return Listing.ofLines (locals.map fun r => r.path.display)

/-- What an invocation prints. -/
def output (s : Session) (i : Invocation) : Except Trouble String := do
  let root ← s.root i
  let settings ← s.settings i root
  match i.command with
  | .infer addresses format => s.inferOutput (← s.workspace root settings) addresses format
  | .graph format => s.graphOutput (← s.workspace root settings) format
  | .parse files => s.parseOutput root files

/-- How an invocation ends. -/
def outcome (s : Session) (i : Invocation) : Outcome :=
  match s.output i with
  | .ok text => ⟨0, text, ""⟩
  | .error t => ⟨1, "", (Report.ofTrouble t).printed s.color⟩

end Session

end TerraDeps
