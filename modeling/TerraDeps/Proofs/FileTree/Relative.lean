import TerraDeps.Proofs.FileTree.Places

/-!
# Paths below a root

The path of a file that was found is put together from the names that lead to it. The same is had
from two paths: what is left of the file's own path after that of the root (`relativeTo?_text`).
-/

set_option autoImplicit false

namespace TerraDeps

open Text

namespace Place

variable {names : List String}

/-- Names joined by slashes have a slash less than names with a slash before each. -/
theorem cons_toList_intercalate (notEmpty : names ≠ []) :
    '/' :: ("/".intercalate names).toList = slashed names := by
  rw [← toList_text notEmpty, Place.text, String.toList_append]
  rfl

/-- Names joined by slashes start with the first name. -/
theorem toList_intercalate_cons (name : String) (rest : List String) :
    ("/".intercalate (name :: rest)).toList = name.toList ++ slashed rest := by
  have whole := cons_toList_intercalate (List.cons_ne_nil name rest)
  rw [slashed_cons] at whole
  exact (List.cons.inj whole).2

/-- Names joined by slashes end with the last name. -/
theorem exists_toList_intercalate_concat (front : List String) (last : String) :
    ∃ before, ("/".intercalate (front ++ [last])).toList = before ++ last.toList := by
  have whole := cons_toList_intercalate (List.concat_ne_nil last front)
  rw [slashed_concat] at whole
  cases ahead : slashed front with
  | nil =>
    rw [ahead] at whole
    exact ⟨[], (List.cons.inj whole).2⟩
  | cons d before =>
    rw [ahead, List.cons_append] at whole
    refine ⟨before ++ ['/'], (List.cons.inj whole).2.trans ?_⟩
    rw [List.append_assoc, List.singleton_append]

end Place

namespace Path

variable {place : Place} {name : String} {names : List String}

/-- The first part of the path of a place is the slash at its start, and the names follow. -/
theorem parts_text (place : Place) : ∃ after, dropEmptyParts after =
      dropEmptyParts (Place.slashed place) ∧
    parts place.text.toList = (.rootDir, after) :: bodyParts (Place.slashed place) := by
  cases place with
  | nil => exact ⟨[], rfl, by simp [Place.text_nil, parts, Place.slashed]⟩
  | cons name rest =>
    refine ⟨name.toList ++ Place.slashed rest, rfl, ?_⟩
    rw [Place.toList_text (List.cons_ne_nil name rest), Place.slashed_cons, parts, bodyParts_slash]

/-- What is left of the names below a place after those of the place are the names below it. -/
theorem afterRoot?_slashed (valid : ∀ name ∈ place, IsFileName name) (names : List String) :
    afterRoot? (dropEmptyParts (Place.slashed (place ++ names)))
      (bodyParts (Place.slashed (place ++ names))) (bodyParts (Place.slashed place)) =
      some (dropEmptyParts (Place.slashed names)) := by
  induction place with
  | nil =>
    have noParts : bodyParts (Place.slashed []) = [] := bodyParts_nil
    rw [List.nil_append, noParts, afterRoot?]
  | cons name rest ih =>
    obtain ⟨isName, later⟩ := List.forall_mem_cons.mp valid
    rw [List.cons_append, bodyParts_slashed isName, bodyParts_slashed isName, afterRoot?,
      if_pos rfl]
    exact ih later

/-- The slash before the first name is dropped and no more. -/
theorem dropEmptyParts_slashed (valid : ∀ name ∈ names, IsFileName name) :
    dropEmptyParts (Place.slashed names) = ("/".intercalate names).toList := by
  cases names with
  | nil => rfl
  | cons name rest =>
    rw [Place.slashed_cons, dropEmptyParts, Place.toList_intercalate_cons]
    exact dropEmptyParts_append (valid name List.mem_cons_self) _

/-- Read from its end, a name is no part to be dropped. -/
theorem fromEnd_append (isName : IsFileName name) (before : List Char) :
    dropEndParts.fromEnd (name.toList.reverse ++ before) = name.toList.reverse ++ before := by
  have noSlash : '/' ∉ name.toList.reverse := mt List.mem_reverse.mp isName.noSlash
  have notDot : name.toList.reverse ≠ ['.'] := by
    rw [ne_eq, List.reverse_eq_iff]
    exact fun dot => isName.2.1 (String.toList_inj.mp dot)
  obtain ⟨c, cs, whole⟩ := List.exists_cons_of_ne_nil
    (mt List.reverse_eq_nil_iff.mp (mt String.toList_eq_nil_iff.mp isName.1))
  rw [whole] at noSlash notDot ⊢
  rw [List.cons_append]
  unfold dropEndParts.fromEnd
  split
  · rename_i starts
    obtain ⟨rfl, -⟩ := List.cons.inj starts
    exact absurd List.mem_cons_self noSlash
  · rename_i starts
    obtain ⟨rfl, later⟩ := List.cons.inj starts
    cases cs with
    | nil => contradiction
    | cons d cs =>
      obtain ⟨rfl, -⟩ := List.cons.inj later
      exact absurd (List.mem_cons_of_mem _ List.mem_cons_self) noSlash
  · rfl

/-- Nothing is dropped behind a last name. -/
theorem dropEndParts_intercalate (valid : ∀ name ∈ names, IsFileName name) :
    dropEndParts ("/".intercalate names).toList = ("/".intercalate names).toList := by
  rcases List.eq_nil_or_concat names with rfl | ⟨front, last, rfl⟩
  · rfl
  · rw [List.concat_eq_append] at valid ⊢
    have isName : IsFileName last := valid last (List.mem_append_right front List.mem_cons_self)
    obtain ⟨before, whole⟩ := Place.exists_toList_intercalate_concat front last
    rw [whole, dropEndParts, List.reverse_append, fromEnd_append isName, List.reverse_append,
      List.reverse_reverse, List.reverse_reverse]

/-- A path below a place, relative to that of the place, is that of the names down to it. -/
theorem relativeTo?_text (valid : ∀ name ∈ place ++ names, IsFileName name) :
    relativeTo? place.text (Place.text (place ++ names)) = some (ofNames names) := by
  obtain ⟨above, below⟩ := List.forall_mem_append.mp valid
  obtain ⟨after, starts, whole⟩ := parts_text (place ++ names)
  obtain ⟨_, -, root⟩ := parts_text place
  rw [relativeTo?, whole, root, afterRoot?, if_pos rfl, starts, afterRoot?_slashed above,
    Option.map_some, dropEmptyParts_slashed below, dropEndParts_intercalate below, ofNames]

end Path

namespace FileTree

/-- A file that was found below a place has the path of the file relative to that of the place. -/
theorem relativeTo?_path {tree : FileTree} {place : Place} {f : FoundFile}
    (valid : tree.HasFileNames []) (found : f ∈ tree.filesAt place) :
    Path.relativeTo? place.text (Place.text (place ++ f.names)) = some f.path := by
  have stands := (mem_filesAt_iff.mp found).1
  refine Path.relativeTo?_text fun name inside => ?_
  exact valid _ (Catalog.get?_eq_some_iff.mp stands) List.nil_prefix name inside

end FileTree

end TerraDeps
