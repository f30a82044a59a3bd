import TerraDeps.Failure
import TerraDeps.FileTree
import TerraDeps.Text.Pieces
import TerraDeps.Text.Utf8

/-!
# Looking up paths

A path is followed name by name from a directory: `.` and an empty name stay where they are, `..`
goes to the directory above, and a link goes on from its target. Whatever a name is looked up in
must be a directory. `FileTree.locate` gives the place to which a path leads; on the way it follows
at most `linkLimit` links.
-/

set_option autoImplicit false

namespace TerraDeps

open Text

/-- The names along a path, empty ones among them. -/
def namesOf (path : String) : List String :=
  (pieces (· == '/') path.toList).map String.ofList

/-- Whether a path counts from the top. -/
def isAbsolute (path : String) : Bool :=
  path.toList.head? == some '/'

/-- A place as an absolute path. -/
def Place.text (place : Place) : String :=
  "/" ++ "/".intercalate place

namespace FileTree

/-- How many links one look-up follows. -/
def linkLimit : Nat := 40

/-- How many bytes a name may have. -/
def nameLimit : Nat := 255

/-- The place to which the names lead from a directory, following at most `links` links. A link
named last is followed only if `followLast` holds. -/
def walk (tree : FileTree) (followLast : Bool) (links : Nat) (place : Place) :
    List String → Except IoFault Place
  | [] => .ok place
  | name :: rest =>
    if tree.isDirectory place then
      if name = "" ∨ name = "." then walk tree followLast links place rest
      else if name = ".." then walk tree followLast links place.parent rest
      else if nameLimit < name.utf8ByteSize then .error .nameTooLong
      else match tree.entry? (place ++ [name]) with
        | none => .error .noSuchFile
        | some (.link target) =>
          if rest.isEmpty && !followLast then .ok (place ++ [name])
          else match links with
            | 0 => .error .tooManyLinks
            | links + 1 =>
              walk tree followLast links (if isAbsolute target then [] else place)
                (namesOf target ++ rest)
        | some _ => walk tree followLast links (place ++ [name]) rest
    else .error .notADirectory
termination_by names => (links, names.length)

/-- The place to which a path leads from the directory `base`. -/
def locate (tree : FileTree) (base : Place) (path : String) (followLast : Bool := true) :
    Except IoFault Place :=
  if path.toList.contains '\x00' then .error .nulInPath
  else if path = "" then .error .noSuchFile
  else tree.walk followLast linkLimit (if isAbsolute path then [] else base) (namesOf path)

/-- Whether the path leads to something. -/
def leadsSomewhere (tree : FileTree) (base : Place) (path : String) : Bool :=
  match tree.locate base path with
  | .ok _ => true
  | .error _ => false

/-- Whether the path leads to a file. -/
def leadsToFile (tree : FileTree) (base : Place) (path : String) : Bool :=
  match tree.locate base path with
  | .ok place => match tree.entry? place with
    | some (.file _) => true
    | _ => false
  | .error _ => false

/-- The bytes of the file to which a path leads. -/
def read (tree : FileTree) (base : Place) (path : String) : Except IoFault ByteArray :=
  match tree.locate base path with
  | .error e => .error e
  | .ok place => match tree.entry? place with
    | some (.file bytes) => .ok bytes
    | some .directory => .error .isADirectory
    | some (.link _) => .error .tooManyLinks
    | none => .error .noSuchFile

/-- The text of bytes read as UTF-8. -/
def textOf (bytes : ByteArray) : Except IoFault String :=
  match Utf8.decode bytes with
  | .ok text => .ok text
  | .error _ => .error .notText

/-- The text of the file to which a path leads. -/
def readText (tree : FileTree) (base : Place) (path : String) : Except IoFault String :=
  match tree.read base path with
  | .error e => .error e
  | .ok bytes => textOf bytes

end FileTree

end TerraDeps
