import TerraDeps.Text.Blank
import TerraDeps.Text.Pieces

/-!
# Where a module comes from

A `source` argument either names a directory of the workspace, written as an explicit relative
path, or something that is fetched from elsewhere. `ModuleSource.classify` decides from the text of
the source and the presence of a `version` argument; only local sources lead to dependencies.
-/

set_option autoImplicit false

namespace TerraDeps

open Text

/-- Why a source is remote. -/
inductive RemoteKind where
  /-- Registry coordinates such as `hashicorp/consul/aws`. -/
  | registry
  /-- A text with a URL scheme. -/
  | url
  /-- A known host without a scheme, or a forced fetch method such as `git::`. -/
  | getter
  /-- A relative path that comes with a version, which only registries have. -/
  | versioned
  /-- Anything else, such as an absolute path or a bare name. -/
  | other
  deriving DecidableEq, Repr

/-- What a `source` argument refers to. -/
inductive ModuleSource where
  /-- A relative path, without blanks around it and not yet resolved. -/
  | localPath (path : String)
  /-- Something that is not read from the workspace. -/
  | remote (kind : RemoteKind)
  deriving DecidableEq, Repr

namespace ModuleSource

/-- Whether the source names a directory of the workspace. -/
def isLocal : ModuleSource → Bool
  | localPath _ => true
  | remote _ => false

/-- Starts of sources that are fetched from a known host. -/
def getterHosts : List String := ["github.com/", "bitbucket.org/", "git@"]

/-- Whether the text starts with `./` or `../`. -/
def isRelative (s : List Char) : Bool :=
  "./".toList.isPrefixOf s || "../".toList.isPrefixOf s

/-- Whether a segment of registry coordinates is well formed: not empty, and over ASCII letters,
digits, `-`, `_` and `.`. -/
def isCoordinate (segment : List Char) : Bool :=
  !segment.isEmpty && segment.all fun c => c.isAlphanum || c == '-' || c == '_' || c == '.'

/-- Whether the text before the first `//` is `namespace/name/provider`, which a host with a dot in
it may precede. -/
def isRegistryAddress (s : List Char) : Bool :=
  match pieces (· == '/') (beforePair '/' '/' s) with
  | [a, b, c] => [a, b, c].all isCoordinate
  | [host, a, b, c] => [host, a, b, c].all isCoordinate && host.contains '.'
  | _ => false

/-- What the `source` text, together with the `version` argument if there is one, refers to. -/
def classify (source : String) (version : Option String) : ModuleSource :=
  let text := trim source
  let s := text.toList
  if occurs "::".toList s then
    remote (if occurs "://".toList s then .url else .getter)
  else if occurs "://".toList s then remote .url
  else if isRelative s then
    if version.isSome then remote .versioned
    else if s.contains '?' then remote .other
    else localPath text
  else if getterHosts.any (fun host => host.toList.isPrefixOf s) then remote .getter
  else if isRegistryAddress s then remote .registry
  else remote .other

end ModuleSource

end TerraDeps
