import TerraDeps.Failure
import TerraDeps.Terminal

/-!
# Reports to the user

A report names a failure and, where there is something to say, adds details and a suggestion.
`Report.ofTrouble` makes a report of anything that can go wrong: known failures have advice of
their own, and so have missing and protected files; anything else is told together with what was
being done when it happened.
-/

set_option autoImplicit false

namespace TerraDeps

/-- What went wrong in the first place. -/
inductive Cause where
  /-- A failure that the program knows. -/
  | failure (f : Failure)
  /-- A failure of the file system. -/
  | io (fault : IoFault)
  /-- Something that can only be told. -/
  | told (text : String)
  deriving DecidableEq, Repr

/-- A cause with what was being done when it came up. -/
structure Trouble where
  cause : Cause
  /-- What was being done, from the innermost task outwards. -/
  tasks : List String := []
  deriving DecidableEq, Repr

/-- A failure with advice. -/
structure Report where
  failure : Failure
  details : Option String := none
  suggestion : Option String := none
  deriving DecidableEq, Repr

/-- The cause in words. -/
def Cause.message : Cause → String
  | failure f => f.message
  | io fault => fault.message
  | told text => text

/-- The numbered lines that tell the causes of a message. -/
def causeLines (causes : List String) : String :=
  "".intercalate ((causes.zipIdx 1).map fun (text, i) => s!"\n  {i}: {text}")

/-- The outermost task, and under it what led to it, down to the cause. -/
def Trouble.story (t : Trouble) : String :=
  match (t.cause.message :: t.tasks).reverse with
  | [] => ""
  | [only] => only
  | outermost :: causes => outermost ++ "\n\nCaused by:" ++ causeLines causes

/-- A directory as advice names it. -/
def namedDirectory (directory : String) : String :=
  if directory = "" then "<workspace root>" else directory

namespace Report

/-- The report of a known failure. -/
def ofFailure (f : Failure) : Report :=
  match f with
  | .pathEscapesRoot _ _ _ anchor => {
      failure := f
      details := s!"The source was resolved relative to '{namedDirectory anchor}'. " ++
        "Local module sources may not point above the workspace root"
      suggestion := "Remove the extra '../' segments, or move the referenced module inside " ++
        "the workspace root" }
  | .extraction file _ => {
      failure := f
      details := "Module blocks must use a literal string for 'source'; " ++
        "the whole file must be well-formed"
      suggestion :=
        s!"Run 'terraform validate' in the directory of {file} to locate the syntax problem" }
  | .unresolvedAddress path _ _ _ _ suggestions => {
      failure := f
      details := "Local module sources must point at a directory whose BUILD file declares " ++
        s!"terraform_module(); '{path}' has none"
      suggestion :=
        if suggestions.isEmpty then
          s!"Add a BUILD file with terraform_module() to '{path}', or fix the module source path"
        else "Did you mean: " ++ ", ".intercalate suggestions ++ "?" }
  | .unitNotFound _ => {
      failure := f
      details := "Units are addressed by their directory relative to the workspace root"
      suggestion := "Run 'tfdep graph' to list the build units in this workspace" }
  | .configSyntax file => {
      failure := f
      details := "Only the [workspace] and [inference] tables are recognized"
      suggestion := s!"Check the TOML syntax in {file}. Common issues: missing quotes, " ++
        "unmatched brackets, unknown keys" }
  | .circularDependency chain => {
      failure := f
      details := s!"Circular dependency chain detected: {chain}. " ++
        "Terraform cannot apply modules that reference each other"
      suggestion := "Review the module sources along the chain and break the cycle" }
  | .inferenceTimeout _ _ => {
      failure := f
      suggestion := "Increase [inference] timeout_secs in tfdep.toml" }
  | .io _ => { failure := .other f.message }
  | .config _ => { failure := f }
  | .other _ => { failure := f }

/-- The report of anything that went wrong. -/
def ofTrouble (t : Trouble) : Report :=
  match t.cause with
  | .failure f => ofFailure f
  | .io ⟨.permissionDenied, message⟩ => {
      failure := .other s!"Permission denied: {message}"
      suggestion := "Check that the workspace files are readable by the current user" }
  | .io ⟨.notFound, message⟩ => {
      failure := .other s!"File not found: {message}"
      details := "Paths passed to tfdep are relative to the workspace root"
      suggestion := "Check that the file or directory exists and the path is correct" }
  | .io _ => { failure := .other t.story }
  | .told _ => { failure := .other t.story }

/-- A line with a label, if there is something to say. -/
def labelled (label : String) : Option String → String
  | none => ""
  | some text => "\n" ++ label ++ ": " ++ text

/-- The report as plain text. -/
def text (r : Report) : String :=
  r.failure.message ++ labelled "Details" r.details ++ labelled "Suggestion" r.suggestion

/-- The report as it is printed. -/
def printed (r : Report) (color : Bool) : String :=
  Style.boldRed.paint color "error" ++ ": " ++ r.failure.message ++
    labelled (Style.yellow.paint color "details") r.details ++
    labelled (Style.green.paint color "suggestion") r.suggestion ++ "\n"

end Report

end TerraDeps
