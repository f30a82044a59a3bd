import TerraDeps.FileTree.Lookup
import TerraDeps.Path
import TerraDeps.Settings
import TerraDeps.Toml.Reader

/-!
# Loading settings

Settings are kept in a TOML file with a table for each group of settings; what the file does not
give keeps its default, and what is no setting is refused. A group may also be written as an array,
which gives its settings in order. `Settings.load` reads the file at a path, if there is one, and
`findRoot` looks upwards for the directory that holds the file.
-/

set_option autoImplicit false

namespace TerraDeps

open Toml (Value Entries)

/-- The name of the file at the root of a workspace that holds its settings. -/
def settingsFileName : String := "tfdep.toml"

/-- The text that a value is. -/
def textOf? : Value → Option String
  | .text s => some s
  | _ => none

/-- The texts that an array lists. -/
def textsOf? : Value → Option (List String)
  | .array items => items.mapM textOf?
  | _ => none

/-- The count that a value is, if it fits 64 bits. -/
def countOf? : Value → Option Nat
  | .integer (.ofNat n) => if n < UInt64.size then some n else none
  | _ => none

/-- Sets one setting of a group. -/
abbrev Setter (α : Type) := Value → α → Option α

/-- The group with the settings that a value gives, which starts out as `initial`; `settings` lists
the names of its settings in order. -/
def groupOf? {α : Type} (settings : List (String × Setter α)) (initial : α) : Value → Option α
  | .table _ entries => entries.foldlM (fun group (key, v) =>
      match settings.lookup key with
      | some set => set v group
      | none => none) initial
  | .array items => (settings.zip items).foldlM (fun group ((_, set), v) => set v group) initial
  | _ => none

/-- The settings of a workspace by name. -/
def workspaceSetters : List (String × Setter WorkspaceSettings) := [
  ("marker_files", fun v s => (textsOf? v).map fun names => { s with markerFiles := names }),
  ("source_extensions",
    fun v s => (textsOf? v).map fun ends => { s with sourceExtensions := ends }),
  ("ignore", fun v s => (textsOf? v).map fun patterns => { s with ignore := patterns })]

/-- The settings of inference by name. -/
def inferenceSetters : List (String × Setter InferenceSettings) := [
  ("jobs", fun v s => (countOf? v).map fun n => { s with jobs := n }),
  ("timeout_secs", fun v s => (countOf? v).map fun n => { s with timeoutSeconds := n })]

namespace Settings

/-- The groups of settings by name. -/
def groups : List (String × Setter Settings) := [
  ("workspace", fun v s =>
    (groupOf? workspaceSetters {} v).map fun group => { s with workspace := group }),
  ("inference", fun v s =>
    (groupOf? inferenceSetters {} v).map fun group => { s with inference := group })]

/-- The settings that a text gives, if it gives settings. -/
def parse? (text : String) : Option Settings :=
  (Toml.parse text).bind fun entries => groupOf? groups {} (.table .headed entries)

/-- The settings in the file to which a path leads, which must make sense. -/
def read (tree : FileTree) (base : Place) (path : String) : Except Failure Settings :=
  match tree.readText base path with
  | .error e => .error (.io e)
  | .ok text =>
    match parse? text with
    | none => .error (.configSyntax path)
    | some settings =>
      match settings.problem? with
      | some problem => .error (.config problem.message)
      | none => .ok settings

/-- The settings in the file to which a path leads, or the defaults if it leads nowhere. -/
def load (tree : FileTree) (base : Place) (path : String) : Except Failure Settings :=
  if tree.leadsSomewhere base path then read tree base path else .ok {}

end Settings

/-- The path without links of what `start` leads to, or `start` if it leads nowhere. -/
def canonical (tree : FileTree) (base : Place) (start : String) : String :=
  match tree.locate base start with
  | .ok place => place.text
  | .error _ => start

/-- The nearest directory at or above `start` that holds a settings file, or `start` itself. -/
def findRoot (tree : FileTree) (base : Place) (start : String) : String :=
  let start := canonical tree base start
  ((Path.ancestors start).find? fun d =>
    tree.leadsToFile base (Path.join d settingsFileName)).getD start

end TerraDeps
