import TerraDeps.FileTree.Lookup
import TerraDeps.Path

/-!
# The files below a directory

`FileTree.filesUnder` lists the regular files at or below the place that a path leads to, in the
order of their names from there down. Links below that place are neither listed nor followed.
-/

set_option autoImplicit false

namespace TerraDeps

/-- A regular file found below a directory. -/
structure FoundFile where
  /-- The names that lead to the file from where the search began; none if it began at the file. -/
  names : List String
  /-- The file's own name. -/
  name : String
  /-- The file's bytes. -/
  bytes : ByteArray

namespace FoundFile

/-- The names of the directory that the file is in. -/
def directory (f : FoundFile) : List String :=
  f.names.dropLast

/-- The path from where the search began, in stored form. -/
def path (f : FoundFile) : String :=
  Path.ofNames f.names

end FoundFile

namespace FileTree

/-- The file that an entry at a place is, as found from the place `start`. No file stands at the
top, which is a directory. -/
def found? (start : Place) : Place × Entry → Option FoundFile
  | (place, .file bytes) =>
    if !place.isEmpty && start.isPrefixOf place then
      some ⟨place.drop start.length, place.getLastD "", bytes⟩
    else none
  | _ => none

/-- The regular files at or below a place. -/
def filesAt (tree : FileTree) (start : Place) : List FoundFile :=
  tree.entries.entries.filterMap (found? start)

/-- The regular files at or below where a path leads. A path that names a link is followed only to
a directory; one that leads nowhere has no files. -/
def filesUnder (tree : FileTree) (base : Place) (path : String) : List FoundFile :=
  match tree.locate base path false with
  | .error _ => []
  | .ok place => match tree.entry? place with
    | some (.link _) => match tree.locate base path with
      | .ok target => if tree.isDirectory target then tree.filesAt target else []
      | .error _ => []
    | _ => tree.filesAt place

end FileTree

end TerraDeps
