import Mathlib.Data.List.Basic
import TerraDeps.FileTree.Files
import TerraDeps.Proofs.Path

/-!
# Files below a directory

The files found below a directory are said here of the tree's entries alone: a file is found exactly
where one stands (`mem_filesAt_iff`), and the files found in one directory are the regular files
that stand there (`filesIn_eq`). Whether the path to the directory names a link makes no difference
(`filesUnder_eq`). Where names stand for one file or directory each, every file found is in some
directory of the workspace (`exists_isIn`).
-/

set_option autoImplicit false

namespace TerraDeps

/-- The file is in a directory of the workspace, under a name that stands for one file. -/
structure FoundFile.IsIn (f : FoundFile) (d : ModulePath) : Prop where
  names : f.names = d.names ++ [f.name]
  isSegment : IsSegment f.name

namespace FoundFile.IsIn

variable {f : FoundFile} {d : ModulePath}

/-- The file was found in the directory. -/
theorem directory (h : f.IsIn d) : f.directory = d.names := by
  rw [FoundFile.directory, h.names, List.dropLast_concat]

/-- The path of the file is that of its name in the directory. -/
theorem path (h : f.IsIn d) : f.path = d.file f.name := by
  rw [FoundFile.path, h.names, ModulePath.ofNames_concat h.isSegment]

/-- A file is found in one directory only. -/
theorem directory_eq_iff (h : f.IsIn d) {e : ModulePath} : f.directory = e.names ↔ d = e := by
  rw [h.directory]
  exact ⟨ModulePath.names_injective, congrArg ModulePath.names⟩

end FoundFile.IsIn

namespace FileTree

variable {tree : FileTree} {place start : Place} {names : List String}

/-- The name is looked up in the directory at the place. -/
structure LooksUp (tree : FileTree) (place : Place) (name : String) : Prop where
  isDirectory : tree.isDirectory place = true
  notStay : ¬ (name = "" ∨ name = ".")
  notUp : name ≠ ".."
  short : ¬ nameLimit < name.utf8ByteSize

namespace LooksUp

variable {name target : String} {rest : List String} {followLast : Bool} {links : Nat}

/-- A walk fails at a name that nothing has. -/
theorem walk_missing (h : tree.LooksUp place name)
    (missing : tree.entry? (place ++ [name]) = none) :
    tree.walk followLast links place (name :: rest) = .error .noSuchFile := by
  rw [walk, if_pos h.isDirectory, if_neg h.notStay, if_neg h.notUp, if_neg h.short, missing]

/-- A walk goes on below a file or a directory that has the name. -/
theorem walk_entry {entry : Entry} (h : tree.LooksUp place name)
    (found : tree.entry? (place ++ [name]) = some entry)
    (notLink : ∀ target, entry ≠ .link target) :
    tree.walk followLast links place (name :: rest) =
      tree.walk followLast links (place ++ [name]) rest := by
  rw [walk, if_pos h.isDirectory, if_neg h.notStay, if_neg h.notUp, if_neg h.short, found]
  cases entry with
  | link target => exact absurd rfl (notLink target)
  | file bytes => rfl
  | directory => rfl

/-- A link named last is where a walk ends that does not follow it. -/
theorem walk_last (h : tree.LooksUp place name)
    (found : tree.entry? (place ++ [name]) = some (.link target)) :
    tree.walk false links place [name] = .ok (place ++ [name]) := by
  rw [walk, if_pos h.isDirectory, if_neg h.notStay, if_neg h.notUp, if_neg h.short, found]
  rfl

/-- A walk fails at a link when no more links may be followed. -/
theorem walk_tooManyLinks (h : tree.LooksUp place name)
    (found : tree.entry? (place ++ [name]) = some (.link target))
    (follows : (rest.isEmpty && !followLast) = false) :
    tree.walk followLast 0 place (name :: rest) = .error .tooManyLinks := by
  rw [walk, if_pos h.isDirectory, if_neg h.notStay, if_neg h.notUp, if_neg h.short, found]
  simp [follows]

/-- A link that is followed leads on from its target. -/
theorem walk_link (h : tree.LooksUp place name)
    (found : tree.entry? (place ++ [name]) = some (.link target))
    (follows : (rest.isEmpty && !followLast) = false) :
    tree.walk followLast (links + 1) place (name :: rest) =
      tree.walk followLast links (if isAbsolute target then [] else place)
        (namesOf target ++ rest) := by
  rw [walk, if_pos h.isDirectory, if_neg h.notStay, if_neg h.notUp, if_neg h.short, found]
  simp [follows]

end LooksUp

/-- A walk that does not follow a link named last ends where one that does ends, or at a link. -/
theorem walk_false_of_walk {links : Nat} (h : tree.walk true links start names = .ok place) :
    ∃ p, tree.walk false links start names = .ok p ∧
      (p = place ∨ ∃ target, tree.entry? p = some (.link target)) := by
  fun_induction walk tree true links start names with
  | case1 links here =>
    obtain rfl := Except.ok.inj h
    exact ⟨here, by rw [walk], .inl rfl⟩
  | case2 links here name rest inside stay ih =>
    rw [walk, if_pos inside, if_pos stay]
    exact ih h
  | case3 links here rest inside notStay ih =>
    rw [walk, if_pos inside, if_neg notStay, if_pos rfl]
    exact ih h
  | case4 | case5 | case7 | case10 => contradiction
  | case6 links here name rest inside notStay notUp short target found last =>
    simp at last
  | case8 here name rest inside notStay notUp short target found notLast links ih =>
    have looksUp : tree.LooksUp here name := ⟨inside, notStay, notUp, short⟩
    by_cases last : rest = []
    · subst last
      exact ⟨_, looksUp.walk_last found, .inr ⟨target, found⟩⟩
    · rw [looksUp.walk_link found (by simp [last])]
      exact ih h
  | case9 links here name rest inside notStay notUp short entry notLink found ih =>
    rw [LooksUp.walk_entry ⟨inside, notStay, notUp, short⟩ found notLink]
    exact ih h

/-- Without following a last link, a path that leads somewhere leads there too, or to a link. -/
theorem locate_false_of_locate {base : Place} {path : String}
    (h : tree.locate base path = .ok place) :
    ∃ p, tree.locate base path false = .ok p ∧
      (p = place ∨ ∃ target, tree.entry? p = some (.link target)) := by
  unfold locate at h ⊢
  split at h
  · contradiction
  · rename_i noNul
    split at h
    · contradiction
    · rename_i notEmpty
      rw [if_neg noNul, if_neg notEmpty]
      exact walk_false_of_walk h

/-- A place is that of a directory if its entry is one. -/
theorem isDirectory_iff : tree.isDirectory place = true ↔ tree.entry? place = some .directory := by
  unfold isDirectory
  split <;> simp_all

/-- A dot leads from a directory to the directory itself. -/
theorem locate_dot (isDirectory : tree.isDirectory place = true) :
    tree.locate place "." = .ok place := by
  simp [locate, walk, namesOf, isAbsolute, Text.pieces, isDirectory]

/-- The place at or below which the files below a path are searched, if there is one. -/
def searchStart? (tree : FileTree) (base : Place) (path : String) : Option Place :=
  match tree.locate base path false with
  | .error _ => none
  | .ok place => match tree.entry? place with
    | some (.link _) => match tree.locate base path with
      | .ok target => if tree.isDirectory target then some target else none
      | .error _ => none
    | _ => some place

/-- The files under a path are those at the place where their search starts, if there is one. -/
theorem filesUnder_eq_filesAt (tree : FileTree) (base : Place) (path : String) :
    tree.filesUnder base path = ((tree.searchStart? base path).map tree.filesAt).getD [] := by
  unfold filesUnder searchStart?
  cases found : tree.locate base path false with
  | error e => rfl
  | ok place =>
    simp only
    rcases tree.entry? place with _ | ⟨bytes | target | _⟩
    · rfl
    · rfl
    · -- the path names a link, which is followed to a directory only
      cases followed : tree.locate base path with
      | error e => rfl
      | ok target =>
        simp only
        split <;> rfl
    · rfl

/-- A path to a directory leads a search there, be it a link or not. -/
theorem searchStart?_of_locate {base : Place} {path : String}
    (located : tree.locate base path = .ok place) (isDirectory : tree.isDirectory place = true) :
    tree.searchStart? base path = some place := by
  obtain ⟨p, found, rfl | ⟨target, link⟩⟩ := locate_false_of_locate located
  · simp only [searchStart?, found, isDirectory_iff.mp isDirectory]
  · simp only [searchStart?, found, link, located, isDirectory, if_true]

/-- Below a path to a directory are the files below the place that it leads to. -/
theorem filesUnder_eq {base : Place} {path : String} (located : tree.locate base path = .ok place)
    (isDirectory : tree.isDirectory place = true) :
    tree.filesUnder base path = tree.filesAt place := by
  rw [filesUnder_eq_filesAt, searchStart?_of_locate located isDirectory]
  rfl

/-- The regular files that stand in a directory, each with its name. -/
def filesIn (tree : FileTree) (dir : Place) : List (String × ByteArray) :=
  tree.entries.entries.filterMap fun
    | (place, .file bytes) =>
      if place ≠ [] ∧ place.dropLast = dir then some (place.getLastD "", bytes) else none
    | _ => none

/-- The files in a directory are the entries of its names that are files. -/
theorem mem_filesIn_iff {dir : Place} {name : String} {bytes : ByteArray} :
    (name, bytes) ∈ tree.filesIn dir ↔ tree.entries.get? (dir ++ [name]) = some (.file bytes) := by
  rw [Catalog.get?_eq_some_iff, filesIn, List.mem_filterMap]
  constructor
  · rintro ⟨⟨stand, entry⟩, inside, h⟩
    cases entry with
    | file content =>
      simp only [Option.ite_none_right_eq_some, Option.some.injEq, Prod.mk.injEq] at h
      obtain ⟨⟨notTop, rfl⟩, rfl, rfl⟩ := h
      rwa [List.getLastD_eq_getLast?, List.getLast?_eq_some_getLast notTop, Option.getD_some,
        List.dropLast_concat_getLast]
    | link target => contradiction
    | directory => contradiction
  · intro inside
    exact ⟨_, inside, by simp⟩

/-- An entry is found as a file if it is one, under its names below the start and under its last
name. -/
theorem found?_eq_some_iff {entry : Place × Entry} {f : FoundFile} : found? start entry = some f ↔
    entry = (start ++ f.names, .file f.bytes) ∧ start ++ f.names ≠ [] ∧
      f.name = (start ++ f.names).getLastD "" := by
  obtain ⟨stand, bytes | _ | _⟩ := entry
  · simp only [found?, Option.ite_none_right_eq_some, Option.some.injEq, Bool.and_eq_true,
      Bool.not_eq_true', List.isEmpty_eq_false_iff, List.isPrefixOf_iff_prefix, Prod.mk.injEq,
      Entry.file.injEq]
    constructor
    · rintro ⟨⟨notTop, names, rfl⟩, rfl⟩
      simpa using notTop
    · rintro ⟨⟨rfl, rfl⟩, notTop, name⟩
      exact ⟨⟨notTop, List.prefix_append _ _⟩, by rw [List.drop_left, ← name]⟩
  · simp [found?]
  · simp [found?]

/-- The files at or below a place are the entries there that are files. -/
theorem mem_filesAt_iff {f : FoundFile} : f ∈ tree.filesAt start ↔
    tree.entries.get? (start ++ f.names) = some (.file f.bytes) ∧ start ++ f.names ≠ [] ∧
      f.name = (start ++ f.names).getLastD "" := by
  rw [Catalog.get?_eq_some_iff, filesAt, List.mem_filterMap]
  simp only [found?_eq_some_iff]
  constructor
  · rintro ⟨entry, inside, rfl, named⟩
    exact ⟨inside, named⟩
  · rintro ⟨inside, named⟩
    exact ⟨_, inside, rfl, named⟩

/-- No file stands where a directory does. -/
theorem ne_of_file {stand : Place} {bytes : ByteArray} (isDirectory : tree.isDirectory place = true)
    (inside : (stand, Entry.file bytes) ∈ tree.entries.entries) (notTop : stand ≠ []) :
    stand ≠ place := by
  rintro rfl
  have directory := isDirectory_iff.mp isDirectory
  rw [ entry?, if_neg notTop, Catalog.get?_eq_some_iff.mpr inside] at directory
  simp at directory

/-- The files in a directory are those found below one above it that are in that directory. -/
theorem filesIn_eq (isDirectory : tree.isDirectory place = true) (names : List String) :
    tree.filesIn (place ++ names) = ((tree.filesAt place).filter fun f => f.directory = names).map
      fun f => (f.name, f.bytes) := by
  rw [filesIn, filesAt, List.filter_filterMap, List.map_filterMap]
  refine List.filterMap_congr fun entry inside => ?_
  obtain ⟨stand, bytes | _ | _⟩ := entry
  · -- a file stands below the directory `names` down from `place` just when it stands below `place`
    -- and its other names are those
    by_cases top : stand = []
    · simp [top, found?]
    have below : stand.dropLast = place ++ names ↔
        place <+: stand ∧ (stand.drop place.length).dropLast = names := by
      constructor
      · intro same
        obtain ⟨last, whole⟩ : ∃ last, stand = place ++ (names ++ [last]) := by
          refine ⟨stand.getLast top, ?_⟩
          rw [← List.append_assoc, ← same, List.dropLast_concat_getLast]
        rw [whole, List.drop_left, List.dropLast_concat]
        exact ⟨List.prefix_append _ _, rfl⟩
      · rintro ⟨⟨down, rfl⟩, rfl⟩
        have notHere := ne_of_file isDirectory inside top
        rw [List.drop_left, List.dropLast_append_of_ne_nil]
        simpa using notHere
    by_cases start : place <+: stand
    · by_cases same : (stand.drop place.length).dropLast = names <;>
        simp [found?, FoundFile.directory, Option.filter, top, start, below, same]
    · simp [found?, top, start, below]
  · rfl
  · rfl

/-- No two files are found under the same names. -/
theorem pairwise_filesAt (tree : FileTree) (start : Place) :
    (tree.filesAt start).Pairwise fun f g => f.names ≠ g.names := by
  refine List.pairwise_filterMap.mpr (tree.entries.keysAscend.imp ?_)
  intro e e' less f first g later same
  obtain ⟨rfl, -⟩ := found?_eq_some_iff.mp first
  obtain ⟨rfl, -⟩ := found?_eq_some_iff.mp later
  rw [same] at less
  exact KeyOrder.lt_irrefl _ less

/-- Each name below the place stands for one file or directory. -/
def HasPlainNames (tree : FileTree) (place : Place) : Prop :=
  ∀ entry ∈ tree.entries.entries, place <+: entry.1 →
    ∀ name ∈ entry.1.drop place.length, IsSegment name

instance (tree : FileTree) (place : Place) : Decidable (tree.HasPlainNames place) :=
  inferInstanceAs (Decidable (∀ entry ∈ tree.entries.entries, _))

/-- In a tree of plain names, a file in a directory has a name that stands for one file. -/
theorem isSegment_of_mem_filesIn {name : String} {bytes : ByteArray}
    (plain : tree.HasPlainNames place) (h : (name, bytes) ∈ tree.filesIn (place ++ names)) :
    IsSegment name := by
  have inside := Catalog.get?_eq_some_iff.mp (mem_filesIn_iff.mp h)
  rw [List.append_assoc] at inside
  refine plain _ inside (List.prefix_append _ _) name ?_
  rw [List.drop_left]
  exact List.mem_append_right _ List.mem_cons_self

/-- The names down to a file end with its own. -/
theorem dropLast_concat_name {f : FoundFile} (isDirectory : tree.isDirectory place = true)
    (found : f ∈ tree.filesAt place) : f.names.dropLast ++ [f.name] = f.names := by
  obtain ⟨inside, notTop, named⟩ := mem_filesAt_iff.mp found
  rw [Catalog.get?_eq_some_iff] at inside
  have below : f.names ≠ [] := by
    simpa using ne_of_file isDirectory inside notTop
  rw [named, List.getLastD_eq_getLast?, List.getLast?_append_of_ne_nil _ below,
    List.getLast?_eq_some_getLast below, Option.getD_some, List.dropLast_concat_getLast]

/-- A file whose names below a directory stand for one file each is in a directory of the workspace.
-/
theorem exists_isIn_of_isSegment {f : FoundFile} (isDirectory : tree.isDirectory place = true)
    (found : f ∈ tree.filesAt place) (segments : ∀ name ∈ f.names, IsSegment name) :
    ∃ d : ModulePath, f.IsIn d := by
  have whole := dropLast_concat_name isDirectory found
  obtain ⟨d, names⟩ := ModulePath.exists_names fun name inside =>
    segments name (List.mem_of_mem_dropLast inside)
  refine ⟨d, ?_, segments f.name (whole ▸ List.mem_append_right _ List.mem_cons_self)⟩
  rw [names, whole]

/-- In a tree of plain names, every file found below a directory is in a directory of the workspace.
-/
theorem exists_isIn {f : FoundFile} (isDirectory : tree.isDirectory place = true)
    (plain : tree.HasPlainNames place) (found : f ∈ tree.filesAt place) :
    ∃ d : ModulePath, f.IsIn d := by
  have inside := Catalog.get?_eq_some_iff.mp (mem_filesAt_iff.mp found).1
  have segments : ∀ name ∈ f.names, IsSegment name := by
    simpa using plain _ inside (List.prefix_append _ _)
  exact exists_isIn_of_isSegment isDirectory found segments

end FileTree

end TerraDeps
