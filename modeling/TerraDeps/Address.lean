import TerraDeps.Text.Blank
import TerraDeps.Text.Pieces

/-!
# Addresses of build units

An address names a build unit by its directory and, where the unit has a name of its own, by that
name. It is written `dir` or `dir:name`, with `//` for the workspace root. Addresses are ordered by
directory and then by name, an address without a name coming first; texts compare by code point,
which is also the order of their UTF-8 bytes.
-/

set_option autoImplicit false

namespace TerraDeps

open Text

/-- The identity of a build unit, or a query for one. -/
structure Address where
  /-- The unit's directory relative to the workspace root, empty for the root. -/
  specPath : String
  /-- The unit's name, unless the directory's last segment implies it. -/
  targetName : Option String
  deriving DecidableEq, Repr

namespace Address

/-- The address of the unit in a directory, under the name that the directory implies. -/
def ofPath (specPath : String) : Address :=
  ⟨specPath, none⟩

/-- The name that a directory implies: the text after its last `/`. -/
def impliedName (specPath : String) : String :=
  String.ofList (afterLast '/' specPath.toList)

/-- The address of a unit with a name; a name that the directory implies is not kept. -/
def named (specPath name : String) : Address :=
  ⟨specPath, if name = impliedName specPath then none else some name⟩

/-- The address of the unit in a directory, with a name if one is given. -/
def ofParts (specPath : String) : Option String → Address
  | none => ofPath specPath
  | some name => named specPath name

/-- The address of the unit of a directory has the directory. -/
theorem specPath_ofPath (specPath : String) : (ofPath specPath).specPath = specPath := rfl

/-- An address with a name has the directory that it is made with. -/
theorem specPath_named (specPath name : String) : (named specPath name).specPath = specPath := rfl

/-- A name, whether given or not, does not touch the directory. -/
theorem specPath_ofParts (specPath : String) (name : Option String) :
    (ofParts specPath name).specPath = specPath := by
  cases name <;> rfl

/-- The text without pairs of slashes at its start. -/
def dropSlashPairs : List Char → List Char
  | '/' :: '/' :: rest => dropSlashPairs rest
  | s => s

/-- The directory that the path part of an address text names. -/
def cleanPath (s : List Char) : String :=
  let path := String.ofList (dropEndWhile (· == '/') (dropSlashPairs s))
  if path = "." then "" else path

/-- Reads an address text: `dir`, `dir:name`, `//` or `//:name`, blanks around it not counting. An
empty name after a colon makes the colon part of the directory. -/
def parse (text : String) : Address :=
  let s := trimBlanks text.toList
  match splitLast? ':' s with
  | some (path, c :: name) => named (cleanPath path) (String.ofList (c :: name))
  | _ => ofPath (cleanPath s)

/-- Whether a query names this unit; a query without a name fits every unit of its directory. -/
def fits (unit query : Address) : Bool :=
  decide (unit.specPath = query.specPath) &&
    (query.targetName.isNone || decide (unit.targetName = query.targetName))

/-- The address as it is written. -/
def display (a : Address) : String :=
  let dir := if a.specPath = "" then "//" else a.specPath
  match a.targetName with
  | none => dir
  | some name => dir ++ ":" ++ name

/-- The texts by which addresses are ordered: the directory, then the name if there is one. -/
def key (a : Address) : List String :=
  a.specPath :: a.targetName.toList

instance : LT Address := ⟨fun a b => a.key < b.key⟩

instance : LE Address := ⟨fun a b => ¬ b < a⟩

instance (a b : Address) : Decidable (a < b) :=
  inferInstanceAs (Decidable (a.key < b.key))

instance (a b : Address) : Decidable (a ≤ b) :=
  inferInstanceAs (Decidable (¬ b < a))

/-- The addresses in ascending order. -/
def sorted (addresses : List Address) : List Address :=
  addresses.mergeSort fun a b => decide (a ≤ b)

end Address

end TerraDeps
