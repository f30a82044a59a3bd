import TerraDeps.Path
import TerraDeps.Proofs.ModulePath

/-!
# Paths of files in directories

The path of a file is its directory's text and its own name with a slash between them, or the name
alone at the root. The names down to a file, joined in stored form, give this path
(`ofNames_concat`), and what stands before its last slash is the directory again (`parentDir_file`).
-/

set_option autoImplicit false

namespace TerraDeps

open Text

/-- The path of a file in a directory of the workspace. -/
def ModulePath.file (d : ModulePath) (name : String) : String :=
  if d.isRoot then name else d.text ++ "/" ++ name

/-- A segment has no slash. -/
theorem IsSegment.noSlash {name : String} (isName : IsSegment name) : '/' ∉ name.toList := by
  intro inside
  have notSeparator := isName.2.2.2 '/' inside
  contradiction

namespace Path

/-- A stored path has the characters of the path and slashes, and no backslash. -/
theorem mem_storedChars {s : List Char} {c : Char} (h : c ∈ storedChars s) :
    c ≠ '\\' ∧ (c = '/' ∨ c ∈ s) := by
  have cut (mark : String) (rest : List Char) (found : dropStart? mark s = some rest) :
      rest.Sublist s := by
    unfold dropStart? at found
    split at found
    · exact Option.some.inj found ▸ List.drop_sublist _ _
    · contradiction
  obtain ⟨d, inside, rfl⟩ := List.mem_map.mp h
  have plain : d = '/' ∨ d ∈ s := by
    split at inside
    · rename_i rest found
      simp only [List.mem_cons, or_self_left] at inside
      exact inside.imp_right fun inside => (cut _ rest found).subset inside
    · refine .inr ?_
      cases found : dropStart? "\\\\?\\" s with
      | none => rwa [found] at inside
      | some rest =>
        rw [found] at inside
        exact (cut _ rest found).subset inside
  split
  · exact ⟨by decide, .inl rfl⟩
  · rename_i notBackslash
    exact ⟨notBackslash, plain⟩

/-- The characters of names joined by slashes are slashes and those of the names. -/
theorem mem_intercalate_slash {names : List String} {c : Char}
    (h : c ∈ ("/".intercalate names).toList) : c = '/' ∨ ∃ name ∈ names, c ∈ name.toList := by
  rw [String.toList_intercalate] at h
  induction names with
  | nil => contradiction
  | cons name rest ih =>
    cases rest with
    | nil => exact .inr ⟨name, List.mem_singleton_self name, by simpa using h⟩
    | cons next rest =>
      rw [List.map_cons, List.map_cons, List.intercalate_cons_cons, ← List.map_cons] at h
      simp only [List.mem_append, or_assoc] at h
      rcases h with first | slash | later
      · exact .inr ⟨name, List.mem_cons_self, first⟩
      · exact .inl (by simpa using slash)
      · refine (ih later).imp_right ?_
        rintro ⟨other, listed, inside⟩
        exact ⟨other, List.mem_cons_of_mem name listed, inside⟩

/-- The characters of a path of names are slashes and those of the names, and never a backslash. -/
theorem mem_ofNames {names : List String} {c : Char} (h : c ∈ (ofNames names).toList) :
    c ≠ '\\' ∧ (c = '/' ∨ ∃ name ∈ names, c ∈ name.toList) := by
  rw [ofNames, String.toList_ofList] at h
  obtain ⟨notBackslash, slash | inside⟩ := mem_storedChars ((dropAround_sublist _ _).subset h)
  · exact ⟨notBackslash, .inl slash⟩
  · exact ⟨notBackslash, mem_intercalate_slash inside⟩

/-- A path of names does not start with a slash. -/
theorem head?_ofNames_ne (names : List String) : (ofNames names).toList.head? ≠ some '/' := by
  rw [ofNames, String.toList_ofList]
  intro first
  have kept := head?_dropAround first
  contradiction

end Path

namespace ModulePath

variable {d : ModulePath} {name other : String}

/-- Only the root has no names. -/
theorem names_eq_nil_iff : d.names = [] ↔ d.segments = [] :=
  List.map_eq_nil_iff

/-- Names that each stand for one directory lead down to a directory. -/
theorem exists_names {names : List String} (h : ∀ name ∈ names, IsSegment name) :
    ∃ p : ModulePath, p.names = names := by
  induction names with
  | nil => exact ⟨root, rfl⟩
  | cons name rest ih =>
    obtain ⟨p, rfl⟩ := ih fun other later => h other (List.mem_cons_of_mem name later)
    exact ⟨⟨⟨name, h name List.mem_cons_self⟩ :: p.segments⟩, rfl⟩

/-- Directories with the same text are the same. -/
theorem text_injective {p q : ModulePath} (same : p.text = q.text) : p = q := by
  have found := parse_text p
  rw [same, parse_text q] at found
  exact (Except.ok.inj found).symm

/-- Directories with the same names are the same. -/
theorem names_injective {p q : ModulePath} (same : p.names = q.names) : p = q :=
  text_injective (congrArg ("/".intercalate) same)

/-- The path of a file in a directory is its name behind those of the directory, joined by slashes.
-/
theorem file_eq (d : ModulePath) (name : String) :
    d.file name = "/".intercalate (d.names ++ [name]) := by
  unfold file isRoot text
  by_cases atRoot : d.segments = []
  · rw [names_eq_nil_iff.mpr atRoot, List.nil_append, String.intercalate_singleton, atRoot]
    rfl
  · rw [if_neg (by simp [atRoot]), String.intercalate_append_of_ne_nil
      (mt names_eq_nil_iff.mp atRoot) (List.cons_ne_nil name []), String.intercalate_singleton]

/-- Files in one directory have the same path if they have the same name. -/
theorem file_inj : d.file name = d.file other ↔ name = other := by
  unfold file
  split <;> simp [String.append_right_inj]

/-- What stands before the last slash of a file's path is its directory. -/
theorem parentDir_file (noSlash : '/' ∉ name.toList) : Path.parentDir (d.file name) = d.text := by
  unfold file Path.parentDir
  split
  · rename_i atRoot
    rw [beforeLast_of_not_mem noSlash, text_of_isRoot (List.isEmpty_iff.mp atRoot)]
  · have cut : (d.text ++ "/" ++ name).toList = d.text.toList ++ '/' :: name.toList := by simp
    rw [cut, beforeLast_append noSlash, String.ofList_toList]

/-- What stands after the last slash of a file's path is its name. -/
theorem afterLast_file (noSlash : '/' ∉ name.toList) :
    afterLast '/' (d.file name).toList = name.toList := by
  unfold file
  split
  · exact afterLast_of_not_mem noSlash
  · have cut : (d.text ++ "/" ++ name).toList = d.text.toList ++ '/' :: name.toList := by simp
    rw [cut, afterLast_append noSlash]

/-- The names down to a directory, joined in stored form, are its text. -/
theorem ofNames_names (p : ModulePath) : Path.ofNames p.names = p.text := by
  have canonical := isCanonical_text p
  have noEnds : dropAround (· == '/') p.text.toList = p.text.toList := by
    refine dropAround_eq_self_iff.mpr ⟨fun c first => ?_, fun c last => ?_⟩
    · rw [beq_eq_false_iff_ne]
      rintro rfl
      exact canonical.noSlashFirst first
    · rw [beq_eq_false_iff_ne]
      rintro rfl
      exact canonical.noSlashLast last
  rw [Path.ofNames, ← text, Path.storedChars_of_not_mem canonical.noBackslash, noEnds,
    String.ofList_toList]

/-- The names down to a file, joined in stored form, are its path. -/
theorem ofNames_concat (isName : IsSegment name) :
    Path.ofNames (d.names ++ [name]) = d.file name := by
  have whole : d.names ++ [name] = (⟨d.segments ++ [⟨name, isName⟩]⟩ : ModulePath).names := by
    simp [names]
  rw [file_eq, whole, ofNames_names, text]

end ModulePath

end TerraDeps
