import TerraDeps.Proofs.Address
import TerraDeps.Proofs.FileTree
import TerraDeps.Proofs.UnitIndex.Lookup
import TerraDeps.Sorting

/-!
# Discovering units

Discovery goes through the markers of the whole tree one after the other and fails at the first that
declares too much. What it finds is said here of each directory alone: `declared` lists what the
markers of a directory declare, and discovery fails exactly when some directory has more than one
declaration. The step lemma is `addMarker_spec`: an index that `Describes` the markers so far
describes one more marker afterwards, unless its directory now has a second declaration.
-/

set_option autoImplicit false

namespace TerraDeps

open UnitIndex

/-- What a marker file with these bytes declares; one that is no text declares nothing. -/
def declarationsOf (bytes : ByteArray) : List Marker.Declaration :=
  match FileTree.textOf bytes with
  | .ok text => Marker.declarations text
  | .error _ => []

section Specification

variable (tree : FileTree) (place : Place) (settings : WorkspaceSettings)
  (ignore : List Glob.Pattern) (d : ModulePath)

/-- The markers in a directory below `place`, each with its name, without those that are ignored. -/
def markersIn : List (String × ByteArray) :=
  (tree.filesIn (place ++ d.names)).filter fun m =>
    decide (m.1 ∈ settings.markerFiles) && !isIgnored ignore (d.file m.1)

/-- What the markers in a directory declare, each declaration with the path of its marker. -/
def declared : List (String × Marker.Declaration) :=
  (markersIn tree place settings ignore d).flatMap fun m =>
    (declarationsOf m.2).map fun declaration => (d.file m.1, declaration)

/-- The path is that of a source file in the directory. -/
def IsSource (path : String) : Prop :=
  ∃ name bytes, (name, bytes) ∈ tree.filesIn (place ++ d.names) ∧
    (∃ ending ∈ settings.sourceExtensions, ending.toList <:+ name.toList) ∧
    isIgnored ignore (d.file name) = false ∧ path = d.file name

/-- The unit is the one that a marker declares for a directory. -/
structure IsDeclaredUnit (marker : String) (declaration : Marker.Declaration) (unit : BuildUnit) :
    Prop where
  directory : unit.directory = d
  address : unit.address = ⟨d.text, declaration.name.filter fun n => n ≠ d.names.getLastD ""⟩
  marker : unit.marker = marker
  mem_sources_iff : ∀ path, path ∈ unit.sources ↔ IsSource tree place settings ignore d path
  ascending : unit.sources.Pairwise (· < ·)

end Specification

section Markers

/-- What the markers among files declare for a directory. -/
def collected (markers : List FoundFile) (d : ModulePath) : List (String × Marker.Declaration) :=
  (markers.filter fun f => f.directory = d.names).flatMap fun f =>
    (declarationsOf f.bytes).map fun declaration => (f.path, declaration)

variable {markers later : List FoundFile} {f : FoundFile} {d e : ModulePath}

/-- Two lists of markers declare what the one does and then what the other does. -/
theorem collected_append (markers later : List FoundFile) (d : ModulePath) :
    collected (markers ++ later) d = collected markers d ++ collected later d := by
  rw [collected, List.filter_append, List.flatMap_append, collected, collected]

/-- One marker declares what it has, in its own directory only. -/
theorem collected_singleton (inside : f.IsIn d) : collected [f] e =
    if d = e then (declarationsOf f.bytes).map fun declaration => (d.file f.name, declaration)
    else [] := by
  by_cases same : d = e
  · rw [collected, List.filter_cons_of_pos (by simpa using inside.directory_eq_iff.mpr same),
      if_pos same, ← inside.path]
    simp
  · rw [collected, List.filter_cons_of_neg (by simpa using mt inside.directory_eq_iff.mp same),
      if_neg same]
    rfl

end Markers

/-- The directory of a marker is the one that it is in. -/
theorem markerDirectory_file {f : FoundFile} {d : ModulePath} (inside : f.IsIn d) :
    markerDirectory f.path = .ok d := by
  rw [markerDirectory, inside.path, ModulePath.parentDir_file inside.isSegment.noSlash,
    ModulePath.parse_text]

section Adding

variable (settings : WorkspaceSettings) (ignore : List Glob.Pattern) (files : List FoundFile)

/-- The unit that a marker declares for a directory whose files are among `files`. -/
def unitFor (d : ModulePath) (declared : String × Marker.Declaration) : BuildUnit where
  address := Address.ofParts d.text declared.2.name
  directory := d
  marker := declared.1
  sources := ownedSources settings ignore files d.names

/-- The index has in each directory the unit that the markers declare for it, which is at most
one. -/
def Describes (markers : List FoundFile) (index : UnitIndex) : Prop :=
  ∀ d, (collected markers d).length ≤ 1 ∧
    index.unitAt? d = (collected markers d).head?.map (unitFor settings ignore files d)

variable {settings ignore files} {done rest : List FoundFile} {index : UnitIndex} {f : FoundFile}
  {d : ModulePath}

/-- Without markers the index is empty. -/
theorem describes_empty : Describes settings ignore files [] UnitIndex.empty := by
  intro d
  exact ⟨Nat.zero_le 1, unitAt?_empty d⟩

/-- One more marker is described as well, or declares a unit too many for its directory. -/
theorem addMarker_spec (describes : Describes settings ignore files done index)
    (inside : f.IsIn d) (readable : ∃ text, FileTree.textOf f.bytes = .ok text) :
    (∃ next, addMarker settings ignore files index f = .ok next ∧
      Describes settings ignore files (done ++ [f]) next) ∨
    ((∃ message, addMarker settings ignore files index f = .error (.config message)) ∧
      1 < (collected (done ++ [f]) d).length) := by
  obtain ⟨text, read⟩ := readable
  have declarations : declarationsOf f.bytes = Marker.declarations text := by
    rw [declarationsOf, read]
  have added (e : ModulePath) : collected (done ++ [f]) e = collected done e ++
      if d = e then (Marker.declarations text).map fun declaration => (d.file f.name, declaration)
      else [] := by
    rw [collected_append, collected_singleton inside, declarations]
  unfold addMarker
  simp only [read, markerDirectory_file inside]
  -- Without declarations nothing is added; a single one is a unit, unless its directory has one.
  match found : Marker.declarations text with
  | [] =>
    refine .inl ⟨index, rfl, fun e => ?_⟩
    simpa [added, found] using describes e
  | [declaration] =>
    simp only [soleDeclaration?]
    cases existing : index.unitAt? d with
    | some unit =>
      refine .inr ⟨⟨_, rfl⟩, ?_⟩
      rw [(describes d).2] at existing
      obtain ⟨first, isFirst, -⟩ := Option.map_eq_some_iff.mp existing
      have oneBefore := List.length_pos_of_mem (List.mem_of_mem_head? isFirst)
      simpa [added, found] using oneBefore
    | none =>
      refine .inl ⟨_, rfl, fun e => ?_⟩
      have old := describes e
      rw [unitAt?_add, added, found]
      by_cases same : d = e
      · subst same
        rw [existing] at old
        have noneBefore : collected done d = [] := by simpa using old.2.symm
        simp [noneBefore, unitFor, inside.path, inside.directory]
      · simpa [same, Ne.symm same] using old
  | first :: second :: more =>
    refine .inr ⟨⟨_, rfl⟩, ?_⟩
    simp [added, found]
    omega

/-- Markers that are gone through to the end are all described; else some directory has more than
one declaration. -/
theorem foldlM_addMarker_spec (describes : Describes settings ignore files done index)
    (inside : ∀ f ∈ rest, ∃ d, f.IsIn d)
    (readable : ∀ f ∈ rest, ∃ text, FileTree.textOf f.bytes = .ok text) :
    (∃ last, rest.foldlM (addMarker settings ignore files) index = .ok last ∧
      Describes settings ignore files (done ++ rest) last) ∨
    ((∃ message, rest.foldlM (addMarker settings ignore files) index = .error (.config message)) ∧
      ∃ d, 1 < (collected (done ++ rest) d).length) := by
  induction rest generalizing done index with
  | nil =>
    rw [List.append_nil]
    exact .inl ⟨index, rfl, describes⟩
  | cons f rest ih =>
    obtain ⟨d, isIn⟩ := inside f List.mem_cons_self
    rw [List.foldlM_cons]
    have whole : done ++ f :: rest = done ++ [f] ++ rest := by simp
    obtain ⟨next, step, described⟩ | ⟨⟨message, step⟩, tooMany⟩ :=
      addMarker_spec describes isIn (readable f List.mem_cons_self)
    · rw [step, whole]
      exact ih described (fun g later => inside g (List.mem_cons_of_mem f later))
        fun g later => readable g (List.mem_cons_of_mem f later)
    · rw [step, whole]
      refine .inr ⟨⟨message, rfl⟩, d, ?_⟩
      rw [collected_append, List.length_append]
      omega

end Adding

section Directory

variable {tree : FileTree} {place : Place} {settings : WorkspaceSettings}
  {ignore : List Glob.Pattern}

/-- In a tree of plain names, a file found under a directory's names is in that directory. -/
theorem isIn_of_directory_eq {f : FoundFile} {d : ModulePath}
    (isDirectory : tree.isDirectory place = true) (plain : tree.HasPlainNames place)
    (found : f ∈ tree.filesAt place) (directory : f.directory = d.names) : f.IsIn d := by
  obtain ⟨e, inside⟩ := FileTree.exists_isIn isDirectory plain found
  obtain rfl := inside.directory_eq_iff.mp directory
  exact inside

/-- The owned sources of a directory are its source files. -/
theorem mem_ownedSources_iff (isDirectory : tree.isDirectory place = true)
    (plain : tree.HasPlainNames place) (d : ModulePath) (path : String) :
    path ∈ ownedSources settings ignore (tree.filesAt place) d.names ↔
      IsSource tree place settings ignore d path := by
  have extension (name : String) : hasSourceExtension settings.sourceExtensions name = true ↔
      ∃ ending ∈ settings.sourceExtensions, ending.toList <:+ name.toList := by
    simp [hasSourceExtension]
  simp only [ownedSources, List.mem_mergeSort, List.mem_map, List.mem_filter, Bool.and_eq_true,
    decide_eq_true_eq, Bool.not_eq_true', extension, IsSource, FileTree.filesIn_eq isDirectory]
  constructor
  · rintro ⟨f, ⟨found, ⟨directory, ending⟩, kept⟩, rfl⟩
    have inside := isIn_of_directory_eq isDirectory plain found directory
    rw [inside.path] at kept ⊢
    exact ⟨f.name, f.bytes, ⟨f, ⟨found, directory⟩, rfl⟩, ending, kept, rfl⟩
  · rintro ⟨name, bytes, ⟨f, ⟨found, directory⟩, same⟩, ending, kept, rfl⟩
    obtain ⟨rfl, rfl⟩ := Prod.mk.inj same
    have inside := isIn_of_directory_eq isDirectory plain found directory
    rw [← inside.path] at kept ⊢
    exact ⟨f, ⟨found, ⟨directory, ending⟩, kept⟩, rfl⟩

/-- The owned sources of a directory ascend. -/
theorem pairwise_ownedSources (isDirectory : tree.isDirectory place = true)
    (plain : tree.HasPlainNames place) (d : ModulePath) :
    (ownedSources settings ignore (tree.filesAt place) d.names).Pairwise (· < ·) := by
  have ascending : (ownedSources settings ignore (tree.filesAt place) d.names).Pairwise (· ≤ ·) :=
    pairwise_mergeSort_key String.le_trans String.le_total id _
  have distinct : (ownedSources settings ignore (tree.filesAt place) d.names).Nodup := by
    refine (List.mergeSort_perm _ _).nodup_iff.mpr (List.pairwise_map.mpr ?_)
    refine ((FileTree.pairwise_filesAt tree place).filter _).imp_of_mem ?_
    -- two files of one directory with one path have one name, and then the same names throughout
    intro f g owned ownedToo different same
    simp only [List.mem_filter, Bool.and_eq_true, decide_eq_true_eq] at owned ownedToo
    have inside := isIn_of_directory_eq isDirectory plain owned.1 owned.2.1.1
    have insideToo := isIn_of_directory_eq isDirectory plain ownedToo.1 ownedToo.2.1.1
    rw [inside.path, insideToo.path, ModulePath.file_inj] at same
    exact different (by rw [inside.names, insideToo.names, same])
  exact (ascending.and distinct).imp fun ⟨le, ne⟩ => Std.lt_of_le_of_ne le ne

/-- The unit that is made for a declaration is the declared one. -/
theorem isDeclaredUnit_unitFor (isDirectory : tree.isDirectory place = true)
    (plain : tree.HasPlainNames place) (d : ModulePath) (marker : String)
    (declaration : Marker.Declaration) :
    IsDeclaredUnit tree place settings ignore d marker declaration
      (unitFor settings ignore (tree.filesAt place) d (marker, declaration)) where
  directory := rfl
  address := Address.ofParts_text d declaration.name
  marker := rfl
  mem_sources_iff := mem_ownedSources_iff isDirectory plain d
  ascending := pairwise_ownedSources isDirectory plain d

/-- The markers in a directory are those among all markers that are found in it. -/
theorem markersIn_eq (isDirectory : tree.isDirectory place = true)
    (plain : tree.HasPlainNames place) (d : ModulePath) :
    markersIn tree place settings ignore d =
      (((tree.filesAt place).filter (isMarker settings ignore)).filter
        fun f => f.directory = d.names).map fun f => (f.name, f.bytes) := by
  rw [markersIn, FileTree.filesIn_eq isDirectory, List.filter_map, List.filter_filter,
    List.filter_filter]
  refine congrArg (List.map _) (List.filter_congr fun f found => ?_)
  by_cases directory : f.directory = d.names
  · have inside := isIn_of_directory_eq isDirectory plain found directory
    simp [isMarker, directory, inside.path]
  · simp [directory]

/-- What is declared in a directory is what its markers declare. -/
theorem declared_eq_collected (isDirectory : tree.isDirectory place = true)
    (plain : tree.HasPlainNames place) (d : ModulePath) :
    declared tree place settings ignore d =
      collected ((tree.filesAt place).filter (isMarker settings ignore)) d := by
  rw [declared, markersIn_eq isDirectory plain, collected, List.flatMap_map]
  refine List.flatMap_congr fun f listed => ?_
  simp only [List.mem_filter, decide_eq_true_eq] at listed
  rw [(isIn_of_directory_eq isDirectory plain listed.1.1 listed.2).path]

end Directory

namespace UnitIndex

section

variable {tree : FileTree} {base place : Place} {root : String} {settings : WorkspaceSettings}
  {ignore : List Glob.Pattern}

/-- Units are discovered marker by marker among the files below the root. -/
theorem discover_eq_foldlM (located : tree.locate base root = .ok place)
    (isDirectory : tree.isDirectory place = true)
    (valid : settings.ignore.mapM ignorePattern = .ok ignore) :
    discover tree base root settings =
      ((tree.filesAt place).filter (isMarker settings ignore)).foldlM
        (addMarker settings ignore (tree.filesAt place)) empty := by
  rw [discover, ofFiles, valid, FileTree.filesUnder_eq located isDirectory]

/-- Where all markers are texts, the index describes them all, unless some directory has more than
one declaration. -/
theorem discover_cases (located : tree.locate base root = .ok place)
    (isDirectory : tree.isDirectory place = true) (plain : tree.HasPlainNames place)
    (valid : settings.ignore.mapM ignorePattern = .ok ignore)
    (readable : ∀ f ∈ (tree.filesAt place).filter (isMarker settings ignore),
      ∃ text, FileTree.textOf f.bytes = .ok text) :
    (∃ index, discover tree base root settings = .ok index ∧
      Describes settings ignore (tree.filesAt place)
        ((tree.filesAt place).filter (isMarker settings ignore)) index) ∨
    ((∃ message, discover tree base root settings = .error (.config message)) ∧
      ∃ d, 1 < (collected ((tree.filesAt place).filter (isMarker settings ignore)) d).length) := by
  have start : Describes settings ignore (tree.filesAt place) [] empty := describes_empty
  have run := foldlM_addMarker_spec start
    (fun f listed => FileTree.exists_isIn isDirectory plain (List.mem_filter.mp listed).1) readable
  rwa [List.nil_append, ← discover_eq_foldlM located isDirectory valid] at run

/-- All markers that are added are texts. -/
theorem texts_of_foldlM {files markers : List FoundFile} {index last : UnitIndex}
    (h : markers.foldlM (addMarker settings ignore files) index = .ok last) :
    ∀ f ∈ markers, ∃ text, FileTree.textOf f.bytes = .ok text := by
  induction markers generalizing index with
  | nil => simp
  | cons f markers ih =>
    rw [List.foldlM_cons] at h
    cases step : addMarker settings ignore files index f with
    | error e => simp [step, bind, Except.bind] at h
    | ok next =>
      rw [step] at h
      refine List.forall_mem_cons.mpr ⟨?_, ih h⟩
      unfold addMarker at step
      split at step
      · contradiction
      · exact ⟨_, by assumption⟩

/-- An index that is found describes all markers. -/
theorem describes_of_discover {index : UnitIndex} (located : tree.locate base root = .ok place)
    (isDirectory : tree.isDirectory place = true) (plain : tree.HasPlainNames place)
    (h : discover tree base root settings = .ok index) :
    ∃ ignore, Describes settings ignore (tree.filesAt place)
      ((tree.filesAt place).filter (isMarker settings ignore)) index := by
  cases valid : settings.ignore.mapM ignorePattern with
  | error e => simp [discover, ofFiles, valid] at h
  | ok ignore =>
    have folded := discover_eq_foldlM located isDirectory valid
    obtain ⟨found, same, describes⟩ | ⟨⟨message, failed⟩, -⟩ :=
      discover_cases located isDirectory plain valid (texts_of_foldlM (folded.symm.trans h))
    · rw [h] at same
      exact ⟨ignore, Except.ok.inj same ▸ describes⟩
    · rw [h] at failed
      contradiction

/-- The source files of a unit are in its directory. -/
theorem parentDir_of_mem_sources {index : UnitIndex} {unit : BuildUnit} {source : String}
    (located : tree.locate base root = .ok place) (isDirectory : tree.isDirectory place = true)
    (plain : tree.HasPlainNames place) (h : discover tree base root settings = .ok index)
    (listed : unit ∈ index.toList) (owned : source ∈ unit.sources) :
    Path.parentDir source = unit.directory.text := by
  obtain ⟨ignore, describes⟩ := describes_of_discover located isDirectory plain h
  have found := mem_toList_iff.mp listed
  rw [(describes unit.directory).2] at found
  obtain ⟨⟨marker, declaration⟩, -, same⟩ := Option.map_eq_some_iff.mp found
  have declares : IsDeclaredUnit tree place settings ignore unit.directory marker declaration _ :=
    isDeclaredUnit_unitFor isDirectory plain unit.directory marker declaration
  rw [same] at declares
  obtain ⟨name, bytes, inside, -, -, rfl⟩ := (declares.mem_sources_iff source).mp owned
  exact ModulePath.parentDir_file (FileTree.isSegment_of_mem_filesIn plain inside).noSlash

/-- Discovery below a directory, where all markers that count are texts, fails exactly when some
directory has more than one declaration in its markers, and then for a fault in the configuration.
Otherwise the index has a unit in each directory that has a declaration and no others: the one
declared, with the source files that stand in the directory. The units are listed in the order of
their addresses. -/
theorem discover_spec (located : tree.locate base root = .ok place)
    (isDirectory : tree.isDirectory place = true) (plain : tree.HasPlainNames place)
    (valid : settings.ignore.mapM ignorePattern = .ok ignore)
    (readable : ∀ d, ∀ m ∈ markersIn tree place settings ignore d,
      ∃ text, FileTree.textOf m.2 = .ok text) :
    ((∃ message, discover tree base root settings = .error (.config message)) ↔
      ∃ d, 1 < (declared tree place settings ignore d).length) ∧
    ((∀ d, (declared tree place settings ignore d).length ≤ 1) →
      ∃ index, discover tree base root settings = .ok index ∧
        (∀ d, (declared tree place settings ignore d = [] ∧ index.unitAt? d = none) ∨
          ∃ marker declaration unit,
            declared tree place settings ignore d = [(marker, declaration)] ∧
            index.unitAt? d = some unit ∧
            IsDeclaredUnit tree place settings ignore d marker declaration unit) ∧
        (∀ unit, unit ∈ index.toList ↔ index.unitAt? unit.directory = some unit) ∧
        index.toList.Pairwise fun a b => a.address < b.address) := by
  have text : ∀ f ∈ (tree.filesAt place).filter (isMarker settings ignore),
      ∃ text, FileTree.textOf f.bytes = .ok text := by
    intro f listed
    obtain ⟨d, inside⟩ := FileTree.exists_isIn isDirectory plain (List.mem_filter.mp listed).1
    refine readable d (f.name, f.bytes) ?_
    rw [markersIn_eq isDirectory plain]
    exact List.mem_map_of_mem (List.mem_filter.mpr ⟨listed, by simpa using inside.directory⟩)
  simp only [declared_eq_collected isDirectory plain]
  obtain ⟨index, found, describes⟩ | ⟨⟨message, failed⟩, d, tooMany⟩ :=
    discover_cases located isDirectory plain valid text
  · refine ⟨⟨?_, ?_⟩, fun _ => ⟨index, found, fun d => ?_, fun unit => mem_toList_iff,
      pairwise_toList index⟩⟩
    · rintro ⟨message, failed⟩
      rw [found] at failed
      contradiction
    · rintro ⟨d, tooMany⟩
      have few := (describes d).1
      omega
    · obtain ⟨few, unit⟩ := describes d
      match listed : collected ((tree.filesAt place).filter (isMarker settings ignore)) d with
      | [] =>
        rw [listed] at unit
        exact .inl ⟨rfl, unit⟩
      | [(marker, declaration)] =>
        rw [listed] at unit
        exact .inr ⟨marker, declaration, _, rfl, unit,
          isDeclaredUnit_unitFor isDirectory plain d marker declaration⟩
      | _ :: _ :: _ => simp [listed] at few
  · refine ⟨⟨fun _ => ⟨d, tooMany⟩, fun _ => ⟨message, failed⟩⟩, fun few => ?_⟩
    have := few d
    omega

end

/-- Two markers in `net` declare one unit each, which is one too many; that the marker in `old`
declares two does not count. -/
theorem discover_spec_two_markers :
    let tree := ((FileTree.empty.put ["w", "net", "BUILD"] (.file "terraform_module()".toUTF8)).put
      ["w", "net", "UNIT"] (.file "terraform_module(name = \"core\")".toUTF8)).put
      ["w", "old", "BUILD"] (.file "terraform_module() terraform_module()".toUTF8)
    let settings : WorkspaceSettings := { markerFiles := ["BUILD", "UNIT"], ignore := ["old/*"] }
    ∃ message, discover tree ["w"] "." settings = .error (.config message) := by
  intro tree settings
  let ignore : List Glob.Pattern := [⟨"old/".toList.map Glob.Token.literal ++ [.run]⟩]
  have isDirectory : tree.isDirectory ["w"] = true := by decide +kernel
  have located := FileTree.locate_dot isDirectory
  have plain : tree.HasPlainNames ["w"] := by decide +kernel
  have valid : settings.ignore.mapM ignorePattern = .ok ignore := by decide +kernel
  have texts : ((tree.filesAt ["w"]).filter (isMarker settings ignore)).all
      (fun f => (FileTree.textOf f.bytes).isOk) = true := by decide +kernel
  have readable : ∀ d, ∀ m ∈ markersIn tree ["w"] settings ignore d,
      ∃ text, FileTree.textOf m.2 = .ok text := by
    intro d m listed
    rw [markersIn_eq isDirectory plain] at listed
    obtain ⟨f, inside, rfl⟩ := List.mem_map.mp listed
    have isText := List.all_eq_true.mp texts f (List.mem_of_mem_filter inside)
    cases read : FileTree.textOf f.bytes with
    | ok text => exact ⟨text, rfl⟩
    | error e => simp [read, Except.isOk, Except.toBool] at isText
  refine (discover_spec located isDirectory plain valid readable).1.mpr ⟨⟨[⟨"net", by decide⟩]⟩, ?_⟩
  decide +kernel

end UnitIndex

end TerraDeps
