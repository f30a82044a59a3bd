import Mathlib.Data.List.Infix
import TerraDeps.Proofs.FileTree.Walk

/-!
# Places as paths

The path of a place leads back to the place (`locate_text`), a name joined to it is looked up in the
place (`locate_join_text`), and the directories above the path are the places above, nearest first
(`ancestors_text`).
-/

set_option autoImplicit false

namespace TerraDeps

open Text

namespace Place

variable {place : Place} {name : String}

/-- The names with a slash before each. -/
def slashed (names : List String) : List Char :=
  names.flatMap fun name => '/' :: name.toList

/-- The first name has a slash before it and the others follow. -/
theorem slashed_cons (name : String) (rest : List String) :
    slashed (name :: rest) = '/' :: (name.toList ++ slashed rest) := rfl

/-- Two lists of names with slashes follow one another. -/
theorem slashed_append (front rest : List String) :
    slashed (front ++ rest) = slashed front ++ slashed rest :=
  List.flatMap_append

/-- The last name has a slash before it and follows the others. -/
theorem slashed_concat (front : List String) (name : String) :
    slashed (front ++ [name]) = slashed front ++ '/' :: name.toList := by
  simp [slashed]

/-- The path of the top is a slash. -/
theorem text_nil : Place.text [] = "/" := by
  decide

/-- The path of any other place has a slash before each name. -/
theorem toList_text (notTop : place ≠ []) : place.text.toList = slashed place := by
  cases place with
  | nil => contradiction
  | cons name rest =>
    rw [Place.text, String.toList_append]
    induction rest generalizing name with
    | nil => simp [slashed]
    | cons other rest ih =>
      rw [String.intercalate_cons_cons, slashed_cons, ← ih other (by simp)]
      simp

/-- The path of a place other than the top is the names with a slash before each. -/
theorem text_eq (notTop : place ≠ []) : place.text = String.ofList (slashed place) := by
  rw [← toList_text notTop, String.ofList_toList]

/-- Names with slashes before them are cut into the names and an empty one at the start. -/
theorem namesOf_slashed (valid : ∀ name ∈ place, IsFileName name) :
    namesOf (String.ofList (slashed place)) = "" :: place := by
  induction place using List.reverseRecOn with
  | nil => rfl
  | append_singleton front name ih =>
    have isName : IsFileName name := valid name (by simp)
    rw [slashed_concat, namesOf_append_slash, isName.namesOf_eq,
      ih fun other listed => valid other (List.mem_append_left [name] listed), List.cons_append]

/-- The path of a place starts with a slash. -/
theorem head?_text (place : Place) : place.text.toList.head? = some '/' := by
  rw [Place.text, String.toList_append]
  rfl

/-- The path of a place of file names has no zero character. -/
theorem nul_not_mem_text (valid : ∀ name ∈ place, IsFileName name) :
    '\x00' ∉ place.text.toList := by
  by_cases top : place = []
  · rw [top]
    decide
  · rw [toList_text top, slashed, List.mem_flatMap]
    rintro ⟨name, listed, inside⟩
    exact (valid name listed).noNul ((List.mem_cons.mp inside).resolve_left (by decide))

/-- A name joined to the path of a place gives the path of the place of that name. -/
theorem join_text (valid : ∀ name ∈ place, IsFileName name) (isName : IsFileName name) :
    Path.join place.text name = Place.text (place ++ [name]) := by
  have relative := isName.head?_ne
  rw [text_eq (List.append_ne_nil_of_right_ne_nil place (List.cons_ne_nil name [])), slashed_concat]
  rcases List.eq_nil_or_concat place with rfl | ⟨front, last, rfl⟩
  · rw [FileTree.join_eq_of_slash relative (show (Place.text []).toList = [] ++ ['/'] by rfl)]
    rfl
  · rw [List.concat_eq_append] at valid ⊢
    have notTop : front ++ [last] ≠ [] := by simp
    have isLast : IsFileName last := valid last (by simp)
    have noSlash : (Place.text (front ++ [last])).toList.getLast? ≠ some '/' := by
      have notEmpty : last.toList ≠ [] := by simpa using isLast.1
      rw [toList_text notTop, slashed_concat, List.getLast?_append_of_ne_nil _ (by simp),
        List.getLast?_cons_of_ne_nil notEmpty]
      exact fun ends => isLast.noSlash (List.mem_of_getLast? ends)
    have notEmpty : Place.text (front ++ [last]) ≠ "" := by
      rw [text_eq notTop, slashed_concat]
      simp
    rw [FileTree.join_eq_of_no_slash relative notEmpty noSlash, toList_text notTop]

end Place

namespace FileTree

variable {tree : FileTree} {place : Place} {name : String}

/-- The path of a place leads along its names from the top. -/
theorem locate_text_eq (valid : ∀ name ∈ place, IsFileName name) (notTop : place ≠ [])
    (tree : FileTree) (base : Place) :
    tree.locate base place.text = tree.walk true linkLimit [] place := by
  have safe : ¬ place.text.toList.contains '\x00' = true := by
    rw [List.contains_iff_mem]
    exact Place.nul_not_mem_text valid
  have notEmpty : place.text ≠ "" := by
    intro empty
    simpa [empty] using Place.head?_text place
  have absolute : isAbsolute place.text = true := by
    rw [isAbsolute, Place.head?_text]
    rfl
  have top : tree.isDirectory [] = true := rfl
  rw [locate, if_neg safe, if_neg notEmpty, if_pos absolute, Place.text_eq notTop,
    Place.namesOf_slashed valid, walk, if_pos top, if_pos (.inl rfl)]

/-- A name is looked up in the place itself. -/
theorem locate_name (isName : IsFileName name) :
    tree.locate place name = tree.walk true linkLimit place [name] := by
  have safe : ¬ name.toList.contains '\x00' = true := by
    rw [List.contains_iff_mem]
    exact isName.noNul
  have relative : ¬ isAbsolute name = true := by
    rw [isAbsolute, beq_iff_eq]
    exact isName.head?_ne
  rw [locate, if_neg safe, if_neg isName.1, if_neg relative, isName.namesOf_eq]

/-- A walk from the top along the names of a place goes on from the place. -/
theorem walk_from_top (stands : tree.Stands place) (valid : ∀ name ∈ place, IsFileName name)
    (links : Nat) (more : List String) :
    tree.walk true links [] (place ++ more) = tree.walk true links place more := by
  obtain ⟨entry, found, notLink⟩ := stands
  exact walk_down_append rfl found notLink valid links more

/-- The path of a place leads to it. -/
theorem locate_text (stands : tree.Stands place) (valid : ∀ name ∈ place, IsFileName name)
    (base : Place) : tree.locate base place.text = .ok place := by
  by_cases top : place = []
  · subst top
    have directory : tree.isDirectory [] = true := rfl
    have names : namesOf "/" = ["", ""] := by decide
    simp [Place.text_nil, locate, isAbsolute, names, walk, directory]
  · have down := walk_from_top stands valid linkLimit []
    rw [List.append_nil, walk] at down
    rw [locate_text_eq valid top, down]

/-- The path of a file gives its bytes. -/
theorem read_text {bytes : ByteArray} (file : tree.entry? place = some (.file bytes))
    (valid : ∀ name ∈ place, IsFileName name) (base : Place) :
    tree.read base place.text = .ok bytes := by
  have stands : tree.Stands place := ⟨.file bytes, file, by simp⟩
  simp only [read, locate_text stands valid base, file]

/-- A name joined to the path of a place is looked up in the place. -/
theorem locate_join_text (stands : tree.Stands place) (valid : ∀ name ∈ place, IsFileName name)
    (isName : IsFileName name) (base : Place) :
    tree.locate base (Path.join place.text name) = tree.locate place name := by
  have validToo : ∀ other ∈ place ++ [name], IsFileName other := by
    intro other listed
    rcases List.mem_append.mp listed with inside | last
    · exact valid other inside
    · exact List.mem_singleton.mp last ▸ isName
  rw [Place.join_text valid isName, locate_text_eq validToo (by simp),
    walk_from_top stands valid, locate_name isName]

end FileTree

namespace Path

variable {place : Place} {name : String}

/-- Nothing has no parts. -/
theorem bodyParts_nil : bodyParts [] = [] := by
  rw [bodyParts]
  rfl

/-- The first part is the name up to the next slash, and the others are those of what follows. -/
theorem bodyParts_eq_cons {s rest : List Char} {c : Char} (starts : dropEmptyParts s = c :: rest) :
    bodyParts s = (.name (c :: rest.takeWhile (· != '/')), rest.dropWhile (· != '/')) ::
      bodyParts (rest.dropWhile (· != '/')) := by
  rw [bodyParts]
  split
  · rename_i dropped
    rw [dropped] at starts
    contradiction
  · rename_i d after starts'
    obtain ⟨rfl, rfl⟩ := List.cons.inj (starts.symm.trans starts')
    rfl

/-- A slash at the front adds no part. -/
theorem bodyParts_slash (s : List Char) : bodyParts ('/' :: s) = bodyParts s := by
  rw [bodyParts, bodyParts]
  rfl

/-- A name is kept whole when slashes and lone dots are dropped before it. -/
theorem dropEmptyParts_append (isName : IsFileName name) (after : List Char) :
    dropEmptyParts (name.toList ++ after) = name.toList ++ after := by
  obtain ⟨c, cs, whole⟩ := List.exists_cons_of_ne_nil (mt String.toList_eq_nil_iff.mp isName.1)
  have notDot : c :: cs ≠ ['.'] := fun dot => isName.2.1 (String.toList_inj.mp (whole.trans dot))
  have noSlash : '/' ∉ c :: cs := whole ▸ isName.noSlash
  rw [whole, List.cons_append]
  unfold dropEmptyParts
  split
  · rename_i starts
    obtain ⟨rfl, -⟩ := List.cons.inj starts
    simp at noSlash
  · rename_i starts
    obtain ⟨rfl, atEnd⟩ := List.cons.inj starts
    rw [(List.append_eq_nil_iff.mp atEnd).1] at notDot
    contradiction
  · rename_i starts
    obtain ⟨rfl, later⟩ := List.cons.inj starts
    cases cs with
    | nil => contradiction
    | cons d cs =>
      obtain ⟨rfl, -⟩ := List.cons.inj later
      simp at noSlash
  · rfl

/-- The parts of names with slashes are the first name and the parts of the others. -/
theorem bodyParts_slashed (isName : IsFileName name) (rest : List String) :
    bodyParts (Place.slashed (name :: rest)) =
      (.name name.toList, Place.slashed rest) :: bodyParts (Place.slashed rest) := by
  obtain ⟨c, cs, whole⟩ := List.exists_cons_of_ne_nil (mt String.toList_eq_nil_iff.mp isName.1)
  have starts := dropEmptyParts_append isName (Place.slashed rest)
  rw [whole, List.cons_append] at starts
  have noSlash : ∀ d ∈ cs, (d != '/') = true := by
    intro d inside
    rw [bne_iff_ne]
    rintro rfl
    exact isName.noSlash (whole ▸ List.mem_cons_of_mem c inside)
  rw [Place.slashed_cons, bodyParts_slash, whole, List.cons_append, bodyParts_eq_cons starts,
    List.takeWhile_append_of_pos noSlash, List.dropWhile_append_of_pos noSlash]
  cases rest with
  | nil => simp [Place.slashed]
  | cons other rest => simp [Place.slashed_cons]

/-- What stands before the end of each part is the path of the place above. -/
theorem map_bodyParts_slashed (front : List String) {names : List String}
    (valid : ∀ name ∈ names, IsFileName name) {s : List Char}
    (whole : s = Place.slashed (front ++ names)) :
    ((bodyParts (Place.slashed names)).map fun p => s.take (s.length - p.2.length)) =
      names.inits.tail.map fun below => Place.slashed (front ++ below) := by
  induction names generalizing front with
  | nil => rw [Place.slashed, List.flatMap_nil, bodyParts_nil]; rfl
  | cons name rest ih =>
    have cut : s = Place.slashed (front ++ [name]) ++ Place.slashed rest := by
      rw [whole, ← Place.slashed_append, List.append_assoc, List.singleton_append]
    have first : s.take (s.length - (Place.slashed rest).length) =
        Place.slashed (front ++ [name]) := by
      rw [cut, List.length_append, Nat.add_sub_cancel, List.take_left]
    have later := ih (front ++ [name])
      (fun other listed => valid other (List.mem_cons_of_mem name listed)) (by simp [whole])
    obtain ⟨longer, starts⟩ : ∃ longer, rest.inits = [] :: longer := by
      cases rest <;> exact ⟨_, rfl⟩
    rw [bodyParts_slashed (valid name List.mem_cons_self), List.map_cons, later, first,
      List.inits_cons, List.tail_cons, starts]
    simp

/-- What stands before the end of each part of the path of a place is the path of a place above, or
of the place itself. -/
theorem map_parts_text (valid : ∀ name ∈ place, IsFileName name) :
    ((parts place.text.toList).map fun p =>
      place.text.toList.take (place.text.toList.length - p.2.length)) =
      place.inits.map fun above => (Place.text above).toList := by
  cases place with
  | nil => simp [Place.text_nil, parts, bodyParts_nil]
  | cons name names =>
    have below := map_bodyParts_slashed [] valid rfl
    have texts : (names.inits.map (name :: ·)).map (fun above => (Place.text above).toList) =
        (names.inits.map (name :: ·)).map fun below => Place.slashed ([] ++ below) := by
      refine List.map_congr_left fun above inside => ?_
      obtain ⟨rest, -, rfl⟩ := List.mem_map.mp inside
      exact Place.toList_text (List.cons_ne_nil name rest)
    rw [List.nil_append, List.inits_cons, List.tail_cons, ← texts, Place.slashed_cons,
      bodyParts_slash] at below
    rw [List.inits_cons, List.map_cons, ← below, Place.toList_text (List.cons_ne_nil name names),
      Place.slashed_cons, parts, List.map_cons]
    simp [Place.text_nil]

/-- The path of a place and the directories above it are the paths of the place and of those above,
from the nearest to the top. -/
theorem ancestors_text (valid : ∀ name ∈ place, IsFileName name) :
    ancestors place.text = (place.inits.map Place.text).reverse := by
  have above := map_parts_text valid
  have upToSelf : place.inits = place.inits.dropLast ++ [place] := by
    rcases List.eq_nil_or_concat place with rfl | ⟨front, last, rfl⟩
    · rfl
    · simp [List.inits_append]
  have absolute := Place.head?_text place
  simp only [ancestors]
  rw [above, if_pos (.inl absolute), List.append_nil, ← List.map_dropLast, upToSelf]
  simp [Function.comp_def]

end Path

end TerraDeps
