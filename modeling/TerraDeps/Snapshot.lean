import TerraDeps.Catalog
import TerraDeps.Digest.Sha256
import TerraDeps.Text.Utf8

/-!
# Snapshots of source files

A snapshot holds the text of a set of files under their paths, in the order of the paths. Its
digest is the hash of `digestStream`, in which every text stands after its length in bytes, so that
different snapshots have different streams.
-/

set_option autoImplicit false

namespace TerraDeps

open Text

/-- The texts of source files by path. -/
structure Snapshot where
  /-- The files' texts, in the order of their paths. -/
  files : Catalog String String

namespace Snapshot

/-- The snapshot of paths with their texts; of two texts for one path, the later counts. -/
def ofFiles (files : List (String × String)) : Snapshot :=
  ⟨Catalog.ofList files⟩

/-- The text of a file. -/
def get? (s : Snapshot) (path : String) : Option String :=
  s.files.get? path

/-- The paths, ascending. -/
def paths (s : Snapshot) : List String :=
  s.files.keys

/-- How many files there are. -/
def size (s : Snapshot) : Nat :=
  s.files.size

/-- Whether there are no files. -/
def isEmpty (s : Snapshot) : Bool :=
  s.files.isEmpty

/-- A number as eight bytes, the least significant first. -/
def littleEndian (n : Nat) : List UInt8 :=
  (List.range 8).map fun i => UInt8.ofNat (n >>> (8 * i))

/-- The bytes of a text after their number. -/
def framed (text : String) : List UInt8 :=
  let bytes := Utf8.encode text
  littleEndian bytes.length ++ bytes

/-- The bytes that the digest is the hash of: each path and each text, framed, in order. -/
def digestStream (s : Snapshot) : List UInt8 :=
  s.files.entries.flatMap fun (path, text) => framed path ++ framed text

/-- The digest by which equal snapshots are recognized. -/
def digest (s : Snapshot) : String :=
  "sha256:" ++ Digest.Sha256.hexDigest s.digestStream

end Snapshot

end TerraDeps
