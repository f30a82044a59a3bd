import TerraDeps.Text.Pieces

/-!
# Directories of the workspace

A `ModulePath` is a directory below the workspace root in canonical form: a list of segments, none
of them empty, `.` or `..`, and none holding a separator. The root is the empty list. Resolution
reads a path as a list of steps, each up or down, and follows them from a starting directory; it
fails exactly when some step leads above the root.
-/

set_option autoImplicit false

namespace TerraDeps

open Text

/-- Both slashes separate the segments of a path. -/
def isSeparator (c : Char) : Bool :=
  c == '/' || c == '\\'

/-- A name that stands for one directory: not empty, neither `.` nor `..`, and without
separators. -/
def IsSegment (name : String) : Prop :=
  name ≠ "" ∧ name ≠ "." ∧ name ≠ ".." ∧ ∀ c ∈ name.toList, isSeparator c = false

-- The separators are looked for in the name alone, not among all characters there are.
instance (name : String) : Decidable (IsSegment name) :=
  have := List.decidableBAll (isSeparator · = false) name.toList
  inferInstanceAs (Decidable (_ ∧ _ ∧ _ ∧ _))

/-- The name of one directory. -/
structure Segment where
  /-- The name as it is written. -/
  name : String
  /-- The name stands for one directory. -/
  isSegment : IsSegment name
  deriving DecidableEq

/-- One step along a path. -/
inductive PathStep where
  /-- To the parent directory. -/
  | up
  /-- Into a directory. -/
  | down (segment : Segment)
  deriving DecidableEq

/-- The step that one piece of a path stands for; empty pieces and `.` stand for none. -/
def PathStep.ofPiece? (piece : List Char) : Option PathStep :=
  let name := String.ofList piece
  if name = ".." then some .up
  else if h : IsSegment name then some (.down ⟨name, h⟩)
  else none

/-- The steps that a path stands for, in order. -/
def pathSteps (path : String) : List PathStep :=
  (pieces isSeparator path.toList).filterMap PathStep.ofPiece?

/-- A directory of the workspace, as the segments from the root down to it. -/
structure ModulePath where
  /-- The segments, outermost first; none for the root. -/
  segments : List Segment
  deriving DecidableEq

/-- A path that leads above the workspace root. -/
structure EscapesRoot where
  /-- The directory from which the path was followed. -/
  anchor : String
  /-- The path that was followed. -/
  relative : String
  deriving DecidableEq, Repr

/-- The report of a path that leads above the root. -/
def EscapesRoot.message (e : EscapesRoot) : String :=
  s!"'{e.relative}' resolved from '{e.anchor}' escapes the workspace root"

namespace ModulePath

/-- The workspace root. -/
def root : ModulePath := ⟨[]⟩

/-- Whether the directory is the workspace root. -/
def isRoot (p : ModulePath) : Bool :=
  p.segments.isEmpty

/-- The segments' names, outermost first. -/
def names (p : ModulePath) : List String :=
  p.segments.map Segment.name

/-- The path as one text with `/` between segments, empty for the root. -/
def text (p : ModulePath) : String :=
  "/".intercalate p.names

/-- The path as it is shown: `.` for the root. -/
def display (p : ModulePath) : String :=
  if p.isRoot then "." else p.text

/-- The directory above, which the root does not have. -/
def parent? (p : ModulePath) : Option ModulePath :=
  if p.isRoot then none else some ⟨p.segments.dropLast⟩

/-- The directories above, nearest first and ending with the root. -/
def ancestors (p : ModulePath) : List ModulePath :=
  (List.range p.segments.length).reverse.map fun n => ⟨p.segments.take n⟩

/-- Follows steps from a directory whose segments are given innermost first; fails at a step above
the root. -/
def follow? : List Segment → List PathStep → Option (List Segment)
  | stack, [] => some stack
  | [], .up :: _ => none
  | _ :: stack, .up :: steps => follow? stack steps
  | stack, .down segment :: steps => follow? (segment :: stack) steps

/-- The directory that `relative` leads to from `anchor`. -/
def resolve (anchor relative : String) : Except EscapesRoot ModulePath :=
  match follow? [] (pathSteps anchor ++ pathSteps relative) with
  | some stack => .ok ⟨stack.reverse⟩
  | none => .error ⟨anchor, relative⟩

/-- The directory that `path` leads to from the root. -/
def parse (path : String) : Except EscapesRoot ModulePath :=
  resolve "" path

end ModulePath

end TerraDeps
