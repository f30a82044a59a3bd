/-!
# Settings

The settings of a workspace say which files declare build units, which files belong to a unit,
which paths do not count, and how inference runs. `Settings.problem?` gives the first reason why
settings make no sense.
-/

set_option autoImplicit false

namespace TerraDeps

/-- Which files of a workspace count, and as what. -/
structure WorkspaceSettings where
  /-- The names of files that declare build units. -/
  markerFiles : List String := ["BUILD"]
  /-- How the names of source files end. -/
  sourceExtensions : List String := [".tf", ".tf.json"]
  /-- The glob patterns of paths that do not count. -/
  ignore : List String := [".git/**", "**/.terraform/**"]
  deriving DecidableEq, Repr

/-- How inference runs. -/
structure InferenceSettings where
  /-- How many units are inferred at a time. -/
  jobs : Nat := 8
  /-- The seconds after which the inference of a unit is given up. -/
  timeoutSeconds : Nat := 60
  deriving DecidableEq, Repr

/-- All settings. -/
structure Settings where
  workspace : WorkspaceSettings := {}
  inference : InferenceSettings := {}
  deriving DecidableEq, Repr

/-- A reason why settings make no sense. -/
inductive SettingsProblem where
  | noMarkerFiles
  | emptyExtension
  | noJobs
  | noTime
  deriving DecidableEq, Repr

/-- The reason in words. -/
def SettingsProblem.message : SettingsProblem → String
  | noMarkerFiles => "[workspace] marker_files must name at least one file"
  | emptyExtension => "[workspace] source_extensions must not contain empty entries"
  | noJobs => "[inference] jobs must be at least 1"
  | noTime => "[inference] timeout_secs must be at least 1"

/-- The first reason why the settings make no sense, if there is one. -/
def Settings.problem? (s : Settings) : Option SettingsProblem :=
  if s.workspace.markerFiles.isEmpty then some .noMarkerFiles
  else if s.workspace.sourceExtensions.any String.isEmpty then some .emptyExtension
  else if s.inference.jobs = 0 then some .noJobs
  else if s.inference.timeoutSeconds = 0 then some .noTime
  else none

end TerraDeps
