import TerraDeps.Proofs.FileTree.Contents
import TerraDeps.Proofs.UnitIndex.Discovery
import TerraDeps.Proofs.UnitIndex.Markers

/-!
# Ignoring paths

With more patterns to ignore there are fewer markers, so that fewer units are found, and each unit
has fewer sources. Of the files that are found, the bytes of the markers that count are read and no
others: an ignored marker may hold anything.
-/

set_option autoImplicit false

namespace TerraDeps

open UnitIndex

/-- The unit is the original but for sources that it lacks. -/
structure BuildUnit.IsPartOf (unit original : BuildUnit) : Prop where
  directory : unit.directory = original.directory
  address : unit.address = original.address
  marker : unit.marker = original.marker
  sources : unit.sources.Sublist original.sources

section Patterns

variable {settings : WorkspaceSettings} {ignore wider : List Glob.Pattern} {files : List FoundFile}
  {patterns : List String}

/-- What some pattern fits, it fits among more patterns. -/
theorem isIgnored_of_subset (valid : settings.ignore.mapM ignorePattern = .ok ignore)
    (validToo : patterns.mapM ignorePattern = .ok wider) (more : settings.ignore ⊆ patterns)
    {path : String} (h : isIgnored ignore path = true) : isIgnored wider path = true := by
  obtain ⟨p, listed, fits⟩ := List.any_eq_true.mp h
  obtain ⟨text, given, parsed⟩ := exists_of_mem_right (mapM_eq_ok_iff.mp valid) listed
  obtain ⟨q, listedToo, parsedToo⟩ :=
    exists_of_mem_right (mapM_eq_ok_iff.mp validToo).flip (more given)
  obtain rfl := Except.ok.inj (parsed.symm.trans parsedToo)
  exact List.any_eq_true.mpr ⟨p, listedToo, fits⟩

/-- What is a marker when more is ignored is one when less is. -/
theorem isMarker_of_isMarker
    (more : ∀ path, isIgnored ignore path = true → isIgnored wider path = true) {f : FoundFile}
    (h : isMarker { settings with ignore := patterns } wider f = true) :
    isMarker settings ignore f = true := by
  simp only [isMarker, Bool.and_eq_true, Bool.not_eq_true', Bool.eq_false_iff] at h ⊢
  exact ⟨h.1, fun ignored => h.2 (more f.path ignored)⟩

/-- What is ignored is taken out of the sources, and the others keep their order. -/
theorem ownedSources_sublist
    (more : ∀ path, isIgnored ignore path = true → isIgnored wider path = true)
    (directory : List String) :
    (ownedSources { settings with ignore := patterns } wider files directory).Sublist
      (ownedSources settings ignore files directory) := by
  refine mergeSort_sublist_mergeSort String.le_trans String.le_total String.le_antisymm
    (List.Sublist.map _ ?_)
  refine List.monotone_filter_right _ fun f owned => ?_
  simp only [Bool.and_eq_true, Bool.not_eq_true', Bool.eq_false_iff] at owned ⊢
  exact ⟨owned.1, fun ignored => owned.2 (more f.path ignored)⟩

/-- What is found with more patterns is found with fewer, and may have more sources then. -/
theorem exists_isPartOf_of_discover {tree : FileTree} {base : Place} {root : String}
    {index extended : UnitIndex} {unit : BuildUnit} (more : settings.ignore ⊆ patterns)
    (found : discover tree base root settings = .ok index)
    (foundToo : discover tree base root { settings with ignore := patterns } = .ok extended)
    (listed : unit ∈ extended.toList) : ∃ original ∈ index.toList, unit.IsPartOf original := by
  obtain ⟨ignore, valid, mem⟩ := mem_toList_ofFiles found
  obtain ⟨wider, validToo, memToo⟩ := mem_toList_ofFiles foundToo
  have keeps (path : String) : isIgnored ignore path = true → isIgnored wider path = true :=
    isIgnored_of_subset valid validToo more
  obtain ⟨f, isFile, counted, isUnit⟩ := (memToo unit).mp listed
  let original : BuildUnit := { unit with
    sources := ownedSources settings ignore (tree.filesUnder base root) f.directory }
  have isOriginal : IsDeclaredBy settings ignore (tree.filesUnder base root) f original :=
    ⟨⟨isUnit.marker, isUnit.directory, rfl⟩, isUnit.declares⟩
  have part : unit.sources.Sublist original.sources := by
    rw [isUnit.sources]
    exact ownedSources_sublist keeps f.directory
  exact ⟨original, (mem original).mpr ⟨f, isFile, isMarker_of_isMarker keeps counted, isOriginal⟩,
    rfl, rfl, rfl, part⟩

end Patterns

section Contents

variable {tree : FileTree} {base : Place} {root : String} {settings : WorkspaceSettings}
  {files : List FoundFile}

/-- The owned sources do not depend on what is in the files. -/
theorem ownedSources_withBytes (ignore : List Glob.Pattern) (bytes : FoundFile → ByteArray)
    (directory : List String) :
    ownedSources settings ignore (files.map fun f => { f with bytes := bytes f }) directory =
      ownedSources settings ignore files directory := by
  simp only [ownedSources, List.filter_map, List.map_map]
  rfl

/-- Of the files, the bytes of the markers that count are read and no others. -/
theorem ofFiles_withBytes (bytes : FoundFile → ByteArray)
    (kept : ∀ ignore, settings.ignore.mapM ignorePattern = .ok ignore →
      ∀ f ∈ files, isMarker settings ignore f = true → bytes f = f.bytes) :
    ofFiles settings (files.map fun f => { f with bytes := bytes f }) = ofFiles settings files := by
  unfold ofFiles
  cases valid : settings.ignore.mapM ignorePattern with
  | error e => rfl
  | ok ignore =>
    have markers : (files.map fun f => { f with bytes := bytes f }).filter
        (isMarker settings ignore) = files.filter (isMarker settings ignore) := by
      rw [List.filter_map]
      refine (List.map_congr_left fun f listed => ?_).trans (List.map_id _)
      obtain ⟨inside, counts⟩ := List.mem_filter.mp listed
      simp only [kept ignore valid f inside counts, id]
    have step : addMarker settings ignore (files.map fun f => { f with bytes := bytes f }) =
        addMarker settings ignore files := by
      funext index f
      simp only [addMarker, ownedSources_withBytes]
    simp only [markers, step]

/-- The place is that of a marker file that is not ignored, for a search that starts where the root
leads. -/
def IsCountedMarker (tree : FileTree) (base : Place) (root : String) (settings : WorkspaceSettings)
    (ignore : List Glob.Pattern) (place : Place) : Prop :=
  ∃ start names, tree.searchStart? base root = some start ∧ place = start ++ names ∧
    place.getLastD "" ∈ settings.markerFiles ∧ isIgnored ignore (Path.ofNames names) = false

/-- Discovery reads no file but the markers that count. -/
theorem discover_withContents (change : Place → ByteArray → ByteArray)
    (kept : ∀ ignore, settings.ignore.mapM ignorePattern = .ok ignore →
      ∀ place bytes, IsCountedMarker tree base root settings ignore place →
        tree.entry? place = some (.file bytes) → change place bytes = bytes) :
    discover (tree.withContents change) base root settings = discover tree base root settings := by
  unfold discover
  rw [FileTree.filesUnder_eq_filesAt, FileTree.filesUnder_eq_filesAt,
    FileTree.searchStart?_withContents]
  cases found : tree.searchStart? base root with
  | none => rfl
  | some start =>
    rw [Option.map_some, Option.map_some, Option.getD_some, Option.getD_some,
      FileTree.filesAt_withContents]
    refine ofFiles_withBytes _ fun ignore valid f listed counts => ?_
    obtain ⟨inside, notTop, named⟩ := FileTree.mem_filesAt_iff.mp listed
    simp only [isMarker, Bool.and_eq_true, Bool.not_eq_true', List.contains_iff_mem, named]
      at counts
    refine kept ignore valid _ f.bytes ⟨start, f.names, found, rfl, counts.1, counts.2⟩ ?_
    rw [FileTree.entry?, if_neg notTop, inside]

end Contents

namespace UnitIndex

/-- With more patterns to ignore, discovery that still succeeds finds no unit that it did not find
before, and no other sources for any. And what is in a file makes no difference to discovery, be it
a success or a failure, unless the file is a marker that is not ignored. -/
theorem discover_ignoring (tree : FileTree) (base : Place) (root : String)
    (settings : WorkspaceSettings) :
    (∀ patterns index extended, settings.ignore ⊆ patterns →
      discover tree base root settings = .ok index →
      discover tree base root { settings with ignore := patterns } = .ok extended →
      ∀ unit ∈ extended.toList, ∃ original ∈ index.toList, unit.IsPartOf original) ∧
    ∀ change : Place → ByteArray → ByteArray,
      (∀ ignore, settings.ignore.mapM ignorePattern = .ok ignore →
        ∀ place bytes, IsCountedMarker tree base root settings ignore place →
          tree.entry? place = some (.file bytes) → change place bytes = bytes) →
      discover (tree.withContents change) base root settings =
        discover tree base root settings :=
  ⟨fun _ _ _ more found foundToo _ listed => exists_isPartOf_of_discover more found foundToo listed,
    discover_withContents⟩

/-- To ignore `b` and the source files in `a` leaves the unit in `a` without any; what the marker in
`b` says makes no difference then, though it says too much. -/
theorem discover_ignoring_two_units :
    let tree := ((FileTree.empty.put ["w", "a", "BUILD"]
      (.file "terraform_module(name='core')".toUTF8)).put ["w", "a", "main.tf"] (.file .empty)).put
      ["w", "b", "BUILD"] (.file "terraform_module()".toUTF8)
    let change : Place → ByteArray → ByteArray := fun place bytes =>
      if place = ["w", "b", "BUILD"] then "terraform_module() terraform_module()".toUTF8 else bytes
    let unit : BuildUnit := ⟨.named "a" "core", ⟨[⟨"a", by decide⟩]⟩, "a/BUILD", []⟩
    (∃ index, discover tree ["w"] "." { ignore := [] } = .ok index ∧
      ∃ original ∈ index.toList, unit.IsPartOf original) ∧
    discover (tree.withContents change) ["w"] "." { ignore := ["b/*", "a/*.tf"] } =
      discover tree ["w"] "." { ignore := ["b/*", "a/*.tf"] } := by
  intro tree change unit
  let whole : BuildUnit := { unit with sources := ["a/main.tf"] }
  let other : BuildUnit := ⟨.ofPath "b", ⟨[⟨"b", by decide⟩]⟩, "b/BUILD", []⟩
  let ignore : List Glob.Pattern := [⟨"b/".toList.map Glob.Token.literal ++ [.run]⟩,
    ⟨"a/".toList.map Glob.Token.literal ++ .run :: ".tf".toList.map Glob.Token.literal⟩]
  have isDirectory : tree.isDirectory ["w"] = true := by decide +kernel
  have located := FileTree.locate_dot isDirectory
  have valid : ["b/*", "a/*.tf"].mapM ignorePattern = .ok ignore := by decide +kernel
  have found : discover tree ["w"] "." { ignore := [] } =
      .ok ((empty.add whole (by decide)).add other (by decide)) := by
    rw [discover_eq_foldlM located isDirectory rfl]
    decide +kernel
  have foundToo : discover tree ["w"] "." { ignore := ["b/*", "a/*.tf"] } =
      .ok (empty.add unit (by decide)) := by
    rw [discover_eq_foldlM located isDirectory valid]
    decide +kernel
  refine ⟨⟨_, found, ?_⟩, ?_⟩
  · exact (discover_ignoring tree ["w"] "." { ignore := [] }).1 ["b/*", "a/*.tf"] _ _
      (List.nil_subset _) found foundToo unit (by decide +kernel)
  · refine (discover_ignoring tree ["w"] "." { ignore := ["b/*", "a/*.tf"] }).2 change ?_
    rintro ignore' valid' place bytes ⟨start, names, starts, rfl, -, counts⟩ -
    obtain rfl := Except.ok.inj (valid.symm.trans valid')
    rw [FileTree.searchStart?_of_locate located isDirectory] at starts
    obtain rfl := Option.some.inj starts
    refine if_neg fun same => ?_
    obtain rfl : names = ["b", "BUILD"] := by simpa using same
    revert counts
    decide +kernel

end UnitIndex

end TerraDeps
