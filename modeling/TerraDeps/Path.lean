import TerraDeps.Text.Blank
import TerraDeps.Text.Pieces

/-!
# Paths of files

Paths are kept and shown with `/` between their parts, whatever the system writes: `Path.stored`
gives that form. `Path.relativeTo?` cuts a root off the front of a path, part by part, and
`Path.parentDir` drops the last part.
-/

set_option autoImplicit false

namespace TerraDeps.Path

open Text

/-- The text after `start`, if the text starts so. -/
def dropStart? (start : String) (s : List Char) : Option (List Char) :=
  if start.toList.isPrefixOf s then some (s.drop start.length) else none

/-- The characters of a path in stored form: the marks `\\?\UNC\` and `\\?\` of extended paths are
taken off, and every backslash becomes a slash. -/
def storedChars (s : List Char) : List Char :=
  let plain := match dropStart? "\\\\?\\UNC\\" s with
    | some rest => '/' :: '/' :: rest
    | none => (dropStart? "\\\\?\\" s).getD s
  plain.map fun c => if c = '\\' then '/' else c

/-- A path without backslashes is in stored form. -/
theorem storedChars_of_not_mem {s : List Char} (noBackslash : '\\' ∉ s) : storedChars s = s := by
  have noMark (mark : String) (marked : mark.toList.head? = some '\\') :
      dropStart? mark s = none := by
    refine if_neg fun start => noBackslash ?_
    exact (List.isPrefixOf_iff_prefix.mp start).mem (List.mem_of_mem_head? marked)
  rw [storedChars, noMark _ rfl, noMark _ rfl]
  refine (List.map_congr_left fun c inside => if_neg ?_).trans (List.map_id s)
  rintro rfl
  exact noBackslash inside

/-- The path in stored form. -/
def stored (path : String) : String :=
  String.ofList (storedChars path.toList)

/-- The path `path` as seen from the directory `root`, unless it is absolute. -/
def join (root path : String) : String :=
  if path.toList.head? = some '/' || root = "" then path
  else if root.toList.getLast? = some '/' then root ++ path
  else root ++ "/" ++ path

/-- The names joined to a path in stored form, without slashes at its ends. -/
def ofNames (names : List String) : String :=
  String.ofList (dropAround (· == '/') (storedChars ("/".intercalate names).toList))

/-- The directory of a file, empty for a file at the root. -/
def parentDir (file : String) : String :=
  String.ofList (beforeLast '/' file.toList)

/-- The text after the last slash of a path, or all of it. -/
def fileName (file : String) : String :=
  String.ofList (afterLast '/' file.toList)

/-- A part of a path. -/
inductive Part where
  /-- The slash at the start of an absolute path. -/
  | rootDir
  /-- A dot at the start of a relative path. -/
  | currentDir
  /-- A name, `..` among them. -/
  | name (text : List Char)
  deriving DecidableEq

/-- The path without the slashes and lone dots at its start. -/
def dropEmptyParts : List Char → List Char
  | '/' :: rest => dropEmptyParts rest
  | ['.'] => []
  | '.' :: '/' :: rest => dropEmptyParts rest
  | s => s

/-- The text without the empty parts at its front is no longer than the text. -/
theorem length_dropEmptyParts_le (s : List Char) : (dropEmptyParts s).length ≤ s.length := by
  fun_induction dropEmptyParts s with
  | case1 rest ih => exact Nat.le_succ_of_le ih
  | case2 => exact Nat.zero_le _
  | case3 rest ih => exact Nat.le_succ_of_le (Nat.le_succ_of_le ih)
  | case4 => exact Nat.le_refl _

/-- The names of a path's body, each with what follows it; slashes and lone dots do not count. -/
def bodyParts (s : List Char) : List (Part × List Char) :=
  match _h : dropEmptyParts s with
  | [] => []
  | c :: rest =>
    let after := rest.dropWhile (· != '/')
    (.name (c :: rest.takeWhile (· != '/')), after) :: bodyParts after
termination_by s.length
decreasing_by
  have cut := length_dropEmptyParts_le s
  have tail : (rest.dropWhile (· != '/')).length ≤ rest.length :=
    (List.dropWhile_suffix _).length_le
  rw [_h] at cut
  simp only [List.length_cons] at cut
  omega

/-- The parts of a path, each with what follows it. -/
def parts : List Char → List (Part × List Char)
  | '/' :: rest => (.rootDir, rest) :: bodyParts rest
  | '.' :: rest =>
    if rest.isEmpty || rest.head? = some '/' then (.currentDir, rest) :: bodyParts rest
    else bodyParts ('.' :: rest)
  | s => bodyParts s

/-- The path and the directories above it as they are written, nearest first; above a relative path
they end with the empty path. -/
def ancestors (path : String) : List String :=
  let s := path.toList
  let above := ((parts s).map fun p => s.take (s.length - p.2.length)).dropLast.reverse
  let outermost := if s.head? = some '/' ∨ (parts s).isEmpty then [] else [[]]
  path :: (above ++ outermost).map String.ofList

/-- The path without the slashes and lone dots at its end; a dot at its very start stays. -/
def dropEndParts (s : List Char) : List Char :=
  let rec fromEnd : List Char → List Char
    | '/' :: rest => fromEnd rest
    | '.' :: '/' :: rest => fromEnd rest
    | s => s
  (fromEnd s.reverse).reverse

/-- What is left of `path` after the parts of `root`, if `path` starts with them. -/
def afterRoot? (path : List Char) :
    List (Part × List Char) → List (Part × List Char) → Option (List Char)
  | _, [] => some path
  | (p, after) :: ps, (r, _) :: rs =>
    if p = r then afterRoot? (dropEmptyParts after) ps rs else none
  | [], _ :: _ => none

/-- The path relative to `root` in stored form, empty for the root itself, or nothing for a path
that is not below it. -/
def relativeTo? (root path : String) : Option String :=
  (afterRoot? path.toList (parts path.toList) (parts root.toList)).map fun rest =>
    String.ofList (dropAround (· == '/') (storedChars (dropEndParts rest)))

end TerraDeps.Path
