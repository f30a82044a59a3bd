/-!
# Failures

Everything that can go wrong between reading a workspace and printing its dependencies, as causes;
`Failure.message` puts a cause in words. Advice on how to mend a failure is given elsewhere.
-/

set_option autoImplicit false

namespace TerraDeps

/-- What kind of failure of the file system it was, as far as advice depends on it. -/
inductive IoFault.Kind where
  /-- There is no such file. -/
  | notFound
  /-- The file may not be read. -/
  | permissionDenied
  /-- Any other kind. -/
  | other
  deriving DecidableEq, Repr

/-- A failure of the file system. -/
structure IoFault where
  /-- What kind of failure it was. -/
  kind : IoFault.Kind
  /-- The system's words for it. -/
  message : String
  deriving DecidableEq, Repr

namespace IoFault

/-- Nothing stands at the place. -/
def noSuchFile : IoFault := ⟨.notFound, "No such file or directory (os error 2)"⟩

/-- Something below a file was asked for. -/
def notADirectory : IoFault := ⟨.other, "Not a directory (os error 20)"⟩

/-- A directory was read as a file. -/
def isADirectory : IoFault := ⟨.other, "Is a directory (os error 21)"⟩

/-- A name is longer than the file system holds. -/
def nameTooLong : IoFault := ⟨.other, "File name too long (os error 36)"⟩

/-- Links lead to links without end. -/
def tooManyLinks : IoFault := ⟨.other, "Too many levels of symbolic links (os error 40)"⟩

/-- A path holds the character that ends paths for the system. -/
def nulInPath : IoFault := ⟨.other, "file name contained an unexpected NUL byte"⟩

/-- A text file is no UTF-8. -/
def notText : IoFault := ⟨.other, "stream did not contain valid UTF-8"⟩

end IoFault

/-- A cause for which the program cannot go on. -/
inductive Failure where
  /-- A local source, seen from directory `anchor`, leads above the workspace root. -/
  | pathEscapesRoot (file : String) (line : Nat) (source anchor : String)
  /-- The module references of a file cannot be extracted. -/
  | extraction (file reason : String)
  /-- A local source leads to a directory that is no build unit. -/
  | unresolvedAddress (path name source file : String) (line : Nat) (suggestions : List String)
  /-- No build unit has the address. -/
  | unitNotFound (address : String)
  /-- The configuration or a marker makes no sense. -/
  | config (problem : String)
  /-- The configuration file cannot be understood. -/
  | configSyntax (file : String)
  /-- Modules depend on each other in a circle. -/
  | circularDependency (chain : String)
  /-- Inference took too long. -/
  | inferenceTimeout (address : String) (seconds : Nat)
  /-- The file system failed. -/
  | io (fault : IoFault)
  /-- Anything else. -/
  | other (text : String)
  deriving DecidableEq, Repr

/-- The cause in words. -/
def Failure.message : Failure → String
  | pathEscapesRoot file line source _ =>
    s!"Module source \"{source}\" at {file}:{line} escapes the workspace root"
  | extraction file reason => s!"Failed to extract module references from {file}: {reason}"
  | unresolvedAddress path name source file line _ =>
    s!"No build unit found at '{path}' for module \"{name}\" (source \"{source}\") at {file}:{line}"
  | unitNotFound address => s!"Build unit '{address}' not found"
  | config problem => s!"Configuration error: {problem}"
  | configSyntax file => s!"Invalid configuration file syntax in {file}"
  | circularDependency chain => s!"Circular dependency detected: {chain}"
  | inferenceTimeout address seconds =>
    s!"Dependency inference for '{address}' timed out after {seconds}s"
  | io fault => s!"IO error: {fault.message}"
  | other text => text

end TerraDeps
