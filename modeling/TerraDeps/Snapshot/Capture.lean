import TerraDeps.Failure
import TerraDeps.FileTree.Lookup
import TerraDeps.Path
import TerraDeps.Snapshot

/-!
# Capturing source files

A snapshot is captured by reading files of a workspace, one after the other. It fails at the first
file that cannot be read or is no text.
-/

set_option autoImplicit false

namespace TerraDeps

open Text

/-- The text of a source file below a root. -/
def captureFile (tree : FileTree) (base : Place) (root file : String) :
    Except Failure (String × String) :=
  match tree.read base (Path.join root file) with
  | .error e => .error (.io e)
  | .ok bytes => match Utf8.decode bytes with
    | .ok text => .ok (file, text)
    | .error e => .error (.extraction file s!"file is not valid UTF-8: {e.message}")

/-- A file that can be read is captured if its bytes are a text. -/
theorem captureFile_of_read {tree : FileTree} {base : Place} {root file : String}
    {bytes : ByteArray} (read : tree.read base (Path.join root file) = .ok bytes) :
    captureFile tree base root file = match Utf8.decode bytes with
      | .ok text => .ok (file, text)
      | .error e => .error (.extraction file s!"file is not valid UTF-8: {e.message}") := by
  -- the equation of `captureFile` would be had by evaluating the look-up in the tree
  delta captureFile
  rw [read]

/-- The snapshot of files below a root, under their paths from there. -/
def Snapshot.capture (tree : FileTree) (base : Place) (root : String) (files : List String) :
    Except Failure Snapshot :=
  (files.mapM (captureFile tree base root)).map Snapshot.ofFiles

/-- One file is captured when it can be read and is a text. -/
theorem Snapshot.capture_singleton {tree : FileTree} {base : Place} {root file text : String}
    {bytes : ByteArray} (read : tree.read base (Path.join root file) = .ok bytes)
    (decoded : Utf8.decode bytes = .ok text) :
    capture tree base root [file] = .ok (ofFiles [(file, text)]) := by
  rw [capture, List.mapM_cons, captureFile_of_read read]
  simp only [decoded]
  rfl

end TerraDeps
