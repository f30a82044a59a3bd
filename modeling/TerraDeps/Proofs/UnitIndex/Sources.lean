import TerraDeps.Proofs.FileTree.Walk
import TerraDeps.Proofs.Traversal
import TerraDeps.Proofs.UnitIndex.Discovery
import TerraDeps.Proofs.UnitIndex.Markers
import TerraDeps.Snapshot.Capture

/-!
# The source files of units

Discovery lists the regular files that stand in the directory of a unit's marker and keeps their
paths in stored form, in which a backslash is a slash. A path without backslashes, joined to the
root, leads back to its file. A name with a backslash in it does not survive: its path leads to
another place or nowhere, unless a link happens to lead back.
-/

set_option autoImplicit false

namespace TerraDeps

open Text

/-- No name on the way to the file holds a backslash. -/
def FoundFile.HasNoBackslash (f : FoundFile) : Prop :=
  ∀ name ∈ f.names, '\\' ∉ name.toList

instance (f : FoundFile) : Decidable f.HasNoBackslash :=
  inferInstanceAs (Decidable (∀ name ∈ f.names, _))

section Specification

variable (tree : FileTree) (base place : Place) (root : String) (settings : WorkspaceSettings)
  (ignore : List Glob.Pattern)

/-- The file stands in the directory, ends as source files do and is not ignored. -/
def IsOwned (directory : List String) (f : FoundFile) : Prop :=
  f ∈ tree.filesAt place ∧ f.directory = directory ∧
    (∃ ending ∈ settings.sourceExtensions, ending.toList <:+ f.name.toList) ∧
    isIgnored ignore f.path = false

/-- What the sources of a unit, which were listed from `files`, lead to when they are joined to the
root. -/
structure SourcesLeadTo (unit : BuildUnit) (files : List FoundFile) : Prop where
  perm : unit.sources.Perm (files.map FoundFile.path)
  locate_path : ∀ f ∈ files, f.HasNoBackslash →
    tree.locate base (Path.join root f.path) = .ok (place ++ f.names)
  read_path : ∀ f ∈ files, f.HasNoBackslash →
    tree.read base (Path.join root f.path) = .ok f.bytes
  capture_iff : (∀ f ∈ files, f.HasNoBackslash) →
    ((∃ snapshot, Snapshot.capture tree base root unit.sources = .ok snapshot) ↔
      ∀ f ∈ files, ∃ text, Utf8.decode f.bytes = .ok text)
  hasNoBackslash : tree.HasNoLinks → ∀ f ∈ files,
    tree.locate base (Path.join root f.path) = .ok (place ++ f.names) → f.HasNoBackslash

end Specification

/-- The text of a directory other than the root is cut into its names. -/
theorem namesOf_text_of_ne_nil {p : ModulePath} (notRoot : p.names ≠ []) :
    namesOf p.text = p.names := by
  have cut : pieces (· == '/') p.text.toList = p.segments.map fun segment => segment.name.toList :=
    ModulePath.pieces_text (mt ModulePath.names_eq_nil_iff.mpr notRoot) (by decide)
      (by simp [isSeparator])
  rw [namesOf, cut, List.map_map, ModulePath.names]
  exact List.map_congr_left fun segment _ => String.ofList_toList

section Paths

variable {tree : FileTree} {base place : Place} {root : String} {f : FoundFile}

/-- A file that is found below a place stands there. -/
theorem isFile_of_mem_filesAt (found : f ∈ tree.filesAt place) :
    tree.entry? (place ++ f.names) = some (.file f.bytes) := by
  obtain ⟨inside, notTop, -⟩ := FileTree.mem_filesAt_iff.mp found
  rw [ FileTree.entry?, if_neg notTop, inside]

/-- In a tree of file names, the names down to a file are such names. -/
theorem isFileName_of_mem_names (valid : tree.HasFileNames place) (found : f ∈ tree.filesAt place) :
    ∀ name ∈ f.names, IsFileName name := by
  have inside := Catalog.get?_eq_some_iff.mp (FileTree.mem_filesAt_iff.mp found).1
  simpa using valid _ inside (List.prefix_append _ _)

/-- The path of a file below the root is walked along its names from the root. -/
theorem exists_locate_path (located : tree.locate base root = .ok place)
    (valid : tree.HasFileNames place) (found : f ∈ tree.filesAt place) :
    ∃ left, tree.locate base (Path.join root f.path) =
      tree.walk true left place (namesOf f.path) := by
  refine FileTree.exists_locate_join located (Path.head?_ofNames_ne f.names) fun inside => ?_
  rcases (Path.mem_ofNames inside).2 with slash | ⟨name, listed, inName⟩
  · exact absurd slash (by decide)
  · exact (isFileName_of_mem_names valid found name listed).noNul inName

/-- Without backslashes, the path of a file leads to the file. -/
theorem locate_path (located : tree.locate base root = .ok place)
    (isDirectory : tree.isDirectory place = true) (valid : tree.HasFileNames place)
    (found : f ∈ tree.filesAt place) (plain : f.HasNoBackslash) :
    tree.locate base (Path.join root f.path) = .ok (place ++ f.names) := by
  have fileNames := isFileName_of_mem_names valid found
  obtain ⟨p, names⟩ := ModulePath.exists_names fun name listed =>
    (fileNames name listed).isSegment (plain name listed)
  have notEmpty : f.names ≠ [] := by
    rw [← FileTree.dropLast_concat_name isDirectory found]
    exact List.concat_ne_nil _ _
  have along : namesOf f.path = f.names := by
    rw [FoundFile.path, ← names, ModulePath.ofNames_names,
      namesOf_text_of_ne_nil (names ▸ notEmpty)]
  obtain ⟨left, walks⟩ := exists_locate_path located valid found
  rw [walks, along]
  exact FileTree.walk_down isDirectory (isFile_of_mem_filesAt found) fileNames

/-- The path of a file without backslashes gives its bytes. -/
theorem read_path (located : tree.locate base root = .ok place)
    (isDirectory : tree.isDirectory place = true) (valid : tree.HasFileNames place)
    (found : f ∈ tree.filesAt place) (plain : f.HasNoBackslash) :
    tree.read base (Path.join root f.path) = .ok f.bytes := by
  simp only [FileTree.read, locate_path located isDirectory valid found plain,
    isFile_of_mem_filesAt found]

/-- Without links, the path of a file leads to the file only if no name on the way holds a
backslash. -/
theorem hasNoBackslash_of_locate (located : tree.locate base root = .ok place)
    (valid : tree.HasFileNames place) (noLinks : tree.HasNoLinks) (found : f ∈ tree.filesAt place)
    (leads : tree.locate base (Path.join root f.path) = .ok (place ++ f.names)) :
    f.HasNoBackslash := by
  obtain ⟨left, walks⟩ := exists_locate_path located valid found
  rw [leads] at walks
  have straight := FileTree.walk_eq_foldl noLinks walks.symm
  intro name listed inside
  have below : name ∈ (List.foldl FileTree.step place (namesOf f.path)).drop place.length := by
    rw [← straight, List.drop_left]
    exact listed
  rcases FileTree.mem_of_mem_drop_foldl below with before | walked
  · simp at before
  · -- the names that a stored path spells are free of backslashes
    obtain ⟨piece, isPiece, rfl⟩ := List.mem_map.mp walked
    rw [String.toList_ofList] at inside
    exact (Path.mem_ofNames (mem_of_mem_pieces isPiece inside)).1 rfl

/-- A file that a plain path leads to is captured exactly when it is a text. -/
theorem captureFile_path_iff (located : tree.locate base root = .ok place)
    (isDirectory : tree.isDirectory place = true) (valid : tree.HasFileNames place)
    (found : f ∈ tree.filesAt place) (plain : f.HasNoBackslash) :
    (∃ captured, captureFile tree base root f.path = .ok captured) ↔
      ∃ text, Utf8.decode f.bytes = .ok text := by
  rw [captureFile_of_read (read_path located isDirectory valid found plain)]
  cases decoded : Utf8.decode f.bytes with
  | ok text => simp
  | error e => simp

/-- Files can be captured if each of them can. -/
theorem exists_capture_iff {paths : List String} :
    (∃ snapshot, Snapshot.capture tree base root paths = .ok snapshot) ↔
      ∀ path ∈ paths, ∃ captured, captureFile tree base root path = .ok captured := by
  rw [← exists_forall₂_iff]
  simp only [Snapshot.capture, map_eq_ok_iff, mapM_eq_ok_iff]
  constructor
  · rintro ⟨snapshot, captured, all, -⟩
    exact ⟨captured, all⟩
  · rintro ⟨captured, all⟩
    exact ⟨_, captured, all, rfl⟩

end Paths

namespace UnitIndex

variable {tree : FileTree} {base place : Place} {root : String} {settings : WorkspaceSettings}
  {index : UnitIndex} {unit : BuildUnit}

/-- Every unit that is discovered is that of a marker. -/
theorem exists_marker_of_discover (located : tree.locate base root = .ok place)
    (isDirectory : tree.isDirectory place = true)
    (discovered : discover tree base root settings = .ok index) (listed : unit ∈ index.toList) :
    ∃ ignore, settings.ignore.mapM ignorePattern = .ok ignore ∧
      ∃ marker ∈ tree.filesAt place,
        IsUnitOf settings ignore (tree.filesAt place) marker unit := by
  rw [discover, FileTree.filesUnder_eq located isDirectory] at discovered
  obtain ⟨ignore, valid, mem⟩ := mem_toList_ofFiles discovered
  obtain ⟨marker, found, -, isUnit⟩ := (mem unit).mp listed
  exact ⟨ignore, valid, marker, found, isUnit.toIsUnitOf⟩

/-- The directory of a marker without backslashes is that of its unit. -/
theorem IsUnitOf.directory_eq {ignore : List Glob.Pattern} {marker : FoundFile}
    (isUnit : IsUnitOf settings ignore (tree.filesAt place) marker unit)
    (isDirectory : tree.isDirectory place = true) (valid : tree.HasFileNames place)
    (found : marker ∈ tree.filesAt place) (plain : marker.HasNoBackslash) :
    marker.directory = unit.directory.names := by
  obtain ⟨d, inside⟩ := FileTree.exists_isIn_of_isSegment isDirectory found fun name listed =>
    (isFileName_of_mem_names valid found name listed).isSegment (plain name listed)
  have own := isUnit.directory
  rw [markerDirectory_file inside] at own
  rw [inside.directory, Except.ok.inj own]

/-- The sources of a unit that was discovered are the paths of the files that its marker's directory
has for it. Joined to the root, the path of a file without backslashes leads to that very file and
gives its bytes, and capturing fails only for a file that is no text. With a backslash on the way, a
path leads to its file by a link at best. -/
theorem sources_spec (located : tree.locate base root = .ok place)
    (isDirectory : tree.isDirectory place = true) (valid : tree.HasFileNames place)
    (discovered : discover tree base root settings = .ok index) (listed : unit ∈ index.toList) :
    ∃ ignore marker files, settings.ignore.mapM ignorePattern = .ok ignore ∧
      marker ∈ tree.filesAt place ∧ unit.marker = marker.path ∧
      (marker.HasNoBackslash → marker.directory = unit.directory.names) ∧
      (∀ f, f ∈ files ↔ IsOwned tree place settings ignore marker.directory f) ∧
      SourcesLeadTo tree base place root unit files := by
  obtain ⟨ignore, patterns, marker, found, isUnit⟩ :=
    exists_marker_of_discover located isDirectory discovered listed
  let files := (tree.filesAt place).filter fun f => decide (f.directory = marker.directory) &&
    hasSourceExtension settings.sourceExtensions f.name && !isIgnored ignore f.path
  have inTree : ∀ f ∈ files, f ∈ tree.filesAt place := fun f owned => (List.mem_filter.mp owned).1
  have perm : unit.sources.Perm (files.map FoundFile.path) := by
    rw [isUnit.sources]
    exact List.mergeSort_perm _ _
  refine ⟨ignore, marker, files, patterns, found, isUnit.marker,
    isUnit.directory_eq isDirectory valid found, fun f => ?_, ?_⟩
  · simp [files, IsOwned, hasSourceExtension, and_assoc]
  · refine ⟨perm, fun f owned => locate_path located isDirectory valid (inTree f owned),
      fun f owned => read_path located isDirectory valid (inTree f owned), fun plain => ?_,
      fun noLinks f owned => hasNoBackslash_of_locate located valid noLinks (inTree f owned)⟩
    rw [exists_capture_iff]
    simp only [perm.mem_iff, List.forall_mem_map]
    refine forall₂_congr fun f owned => ?_
    exact captureFile_path_iff located isDirectory valid (inTree f owned) (plain f owned)

/-- Blanks and colons in names do no harm. -/
theorem sources_spec_blanks :
    let tree := (FileTree.empty.put ["w", "a b", "BUILD"] (.file "terraform_module()".toUTF8)).put
      ["w", "a b", "x: y.tf"] (.file "".toUTF8)
    let directory : ModulePath := ⟨[⟨"a b", by decide⟩]⟩
    let unit : BuildUnit := ⟨.ofPath "a b", directory, "a b/BUILD", ["a b/x: y.tf"]⟩
    ∃ index, discover tree ["w"] "." { ignore := [] } = .ok index ∧ unit ∈ index.toList ∧
      ∃ snapshot, Snapshot.capture tree ["w"] "." unit.sources = .ok snapshot := by
  intro tree directory unit
  have isDirectory : tree.isDirectory ["w"] = true := by decide +kernel
  have located := FileTree.locate_dot isDirectory
  have valid : tree.HasFileNames ["w"] := by decide +kernel
  have discovered : discover tree ["w"] "." { ignore := [] } =
      .ok (empty.add unit (by decide)) := by
    rw [discover_eq_foldlM located isDirectory rfl]
    decide +kernel
  have listed : unit ∈ (empty.add unit (by decide)).toList := by decide +kernel
  have plain : ∀ f ∈ tree.filesAt ["w"], f.HasNoBackslash := by decide +kernel
  have texts : (tree.filesAt ["w"]).all (fun f => (Utf8.decode f.bytes).isOk) = true := by
    decide +kernel
  obtain ⟨ignore, marker, files, -, -, -, -, owned, leads⟩ :=
    sources_spec located isDirectory valid discovered listed
  have inTree : ∀ f ∈ files, f ∈ tree.filesAt ["w"] := fun f inside => ((owned f).mp inside).1
  refine ⟨_, discovered, listed, (leads.capture_iff fun f inside => ?_).mpr fun f inside => ?_⟩
  · exact plain f (inTree f inside)
  · have isText := List.all_eq_true.mp texts f (inTree f inside)
    cases decoded : Utf8.decode f.bytes with
    | ok text => exact ⟨text, rfl⟩
    | error e => simp [decoded, Except.isOk, Except.toBool] at isText

/-- A file whose name has a backslash is listed under the path of a file in another directory, which
is read in its place. -/
theorem sources_spec_backslash :
    let other := "module m \x7b source = \"../../v\" \x7d".toUTF8
    let tree := ((FileTree.empty.put ["w", "u", "BUILD"] (.file "terraform_module()".toUTF8)).put
      ["w", "u", "a\\b.tf"] (.file "".toUTF8)).put ["w", "u", "a", "b.tf"] (.file other)
    let directory : ModulePath := ⟨[⟨"u", by decide⟩]⟩
    let unit : BuildUnit := ⟨.ofPath "u", directory, "u/BUILD", ["u/a/b.tf"]⟩
    ∃ index, discover tree ["w"] "." { ignore := [] } = .ok index ∧ unit ∈ index.toList ∧
      tree.filesIn ["w", "u"] = [("BUILD", "terraform_module()".toUTF8), ("a\\b.tf", "".toUTF8)] ∧
      tree.read ["w"] (Path.join "." "u/a/b.tf") = .ok other := by
  intro other tree directory unit
  have isDirectory : tree.isDirectory ["w"] = true := by decide +kernel
  have located := FileTree.locate_dot isDirectory
  refine ⟨empty.add unit (by decide), ?_, by decide +kernel, by decide +kernel, ?_⟩
  · rw [discover_eq_foldlM located isDirectory rfl]
    decide +kernel
  · have valid : tree.HasFileNames ["w"] := by decide +kernel
    let file : FoundFile := ⟨["u", "a", "b.tf"], "b.tf", other⟩
    have found : file ∈ tree.filesAt ["w"] :=
      FileTree.mem_filesAt_iff.mpr ⟨rfl, by decide, by decide⟩
    have path : file.path = "u/a/b.tf" := by decide +kernel
    rw [← path]
    exact read_path located isDirectory valid found (by decide)

end UnitIndex

end TerraDeps
