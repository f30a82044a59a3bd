import TerraDeps.Proofs.FileTree
import TerraDeps.Proofs.Inference
import TerraDeps.Proofs.ModulePath
import TerraDeps.Proofs.ModuleSource
import TerraDeps.Proofs.Session.Start

/-!
# The lines of resolved paths

The command that resolves local sources prints each path on a line, as it is. Lines are read back by
cutting the output at its line feeds, so that a path with a line feed in it is read as several
(`linesOf_ofLines_iff`). Such paths occur: a source may write a line feed as an escape, and names on
the command line may hold one. The output is the list of paths exactly when no name on any of the
paths holds a line feed, which is so if none of the sources and directories does.
-/

set_option autoImplicit false

namespace TerraDeps

open Text

namespace Listing

/-- The lines of a text, each of which a line feed ends. -/
def linesOf (text : String) : List String :=
  (pieces (· == '\n') text.toList).dropLast.map String.ofList

/-- Each line is followed by a line end. -/
theorem toList_ofLines (lines : List String) :
    (ofLines lines).toList = lines.flatMap fun line => line.toList ++ ['\n'] := by
  rw [ofLines, String.toList_intercalate, List.map_map]
  induction lines with
  | nil => rfl
  | cons line lines ih =>
    rw [List.flatMap_cons, ← ih]
    cases lines with
    | nil => simp
    | cons next lines => simp [List.intercalate_cons_cons]

/-- A line without line feeds is the first that is read, and then come those that follow it. -/
theorem linesOf_ofLines {lines : List String} (h : ∀ line ∈ lines, '\n' ∉ line.toList) :
    linesOf (ofLines lines) = lines := by
  have cut : pieces (· == '\n') (ofLines lines).toList = lines.map String.toList ++ [[]] := by
    rw [toList_ofLines]
    induction lines with
    | nil => rfl
    | cons line lines ih =>
      have first : ∀ c ∈ line.toList, (c == '\n') = false := by
        intro c inside
        rw [beq_eq_false_iff_ne]
        rintro rfl
        exact h line List.mem_cons_self inside
      have later := ih fun other listed => h other (List.mem_cons_of_mem line listed)
      rw [List.flatMap_cons, List.append_assoc, List.singleton_append, pieces_append_cons rfl,
        pieces_of_not_sep first, later]
      rfl
  rw [linesOf, cut, List.dropLast_concat, List.map_map]
  simp [Function.comp_def]

/-- Lines are read back exactly when none of them holds a line feed itself. -/
theorem linesOf_ofLines_iff (lines : List String) :
    linesOf (ofLines lines) = lines ↔ ∀ line ∈ lines, '\n' ∉ line.toList := by
  refine ⟨fun same line listed inside => ?_, linesOf_ofLines⟩
  rw [← same, linesOf, List.mem_map] at listed
  obtain ⟨piece, isPiece, rfl⟩ := listed
  have apart := not_sep_of_mem_pieces (List.mem_of_mem_dropLast isPiece) '\n'
  rw [String.toList_ofList] at inside
  simpa using apart inside

end Listing

namespace ModulePath

/-- The names of a path are made of the path's characters. -/
theorem mem_of_mem_namesOf {path name : String} {c : Char} (listed : name ∈ namesOf path)
    (inside : c ∈ name.toList) : c ∈ path.toList := by
  obtain ⟨piece, isPiece, rfl⟩ := List.mem_map.mp (List.mem_filter.mp listed).1
  rw [String.toList_ofList] at inside
  exact mem_of_mem_pieces isPiece inside

/-- What stands in the text of a directory and is no slash stands in one of its names. -/
theorem mem_display_iff (p : ModulePath) {c : Char} (notSlash : c ≠ '/') (notDot : c ≠ '.') :
    c ∈ p.display.toList ↔ ∃ name ∈ p.names, c ∈ name.toList := by
  by_cases atRoot : p.segments = []
  · simp [display, isRoot, atRoot, names, notDot]
  have cut : pieces (· == '/') p.text.toList = p.segments.map fun segment => segment.name.toList :=
    pieces_text atRoot (by decide) (by simp [isSeparator])
  have shown : p.display = p.text := if_neg (by simp [isRoot, atRoot])
  rw [shown]
  constructor
  · intro inside
    obtain ⟨piece, isPiece, inPiece⟩ : ∃ piece ∈ pieces (· == '/') p.text.toList, c ∈ piece :=
      exists_mem_pieces inside (by simpa using notSlash)
    rw [cut] at isPiece
    obtain ⟨segment, listed, rfl⟩ := List.mem_map.mp isPiece
    exact ⟨segment.name, List.mem_map_of_mem listed, inPiece⟩
  · rintro ⟨name, listed, inName⟩
    rw [← namesOf_text p] at listed
    exact mem_of_mem_namesOf listed inName

/-- The survivors are some of the names, in their order. -/
theorem survivors_sublist (names : List String) : (survivors names).Sublist names := by
  induction names with
  | nil => exact List.Sublist.slnil
  | cons name rest ih =>
    rw [survivors]
    split
    · exact ih.cons_cons name
    · exact ih.cons name

/-- A path leads down through names that stand in the anchor or in the path itself. -/
theorem mem_namesOf_of_resolve {anchor relative name : String} {p : ModulePath}
    (h : resolve anchor relative = .ok p) (listed : name ∈ p.names) :
    name ∈ namesOf anchor ∨ name ∈ namesOf relative := by
  unfold resolve at h
  split at h
  · rename_i stack followed
    obtain rfl := Except.ok.inj h
    obtain ⟨-, escapes⟩ | ⟨-, found, same, names⟩ :=
      follow?_eq [] (pathSteps anchor ++ pathSteps relative)
    · rw [escapes] at followed
      contradiction
    · obtain rfl := Option.some.inj (same.symm.trans followed)
      rw [List.map_append, map_name_pathSteps, map_name_pathSteps] at names
      have kept : name ∈ namesDown found := listed
      rw [names] at kept
      simpa [namesDown] using (survivors_sublist _).subset kept
  · contradiction

end ModulePath

/-- A local reference leads along its trimmed source from the directory of its file. -/
theorem ModuleReference.resolve_of_localReference? {r : ModuleReference} {l : LocalReference}
    (h : r.localReference? Path.parentDir = some l) :
    ModulePath.resolve l.reference.directory (trim l.reference.source) = .ok l.path := by
  have own := reference_of_localReference? h
  unfold localReference? at h
  split at h
  · rename_i relative isLocal
    obtain ⟨path, leads, rfl⟩ := Option.map_eq_some_iff.mp h
    rw [(ModuleSource.classify_eq_localPath_iff.mp isLocal).1] at leads
    cases resolved : ModulePath.resolve (Path.parentDir r.file) (trim r.source) with
    | ok p =>
      rw [resolved] at leads
      obtain rfl := Option.some.inj leads
      exact resolved
    | error e => simp [resolved, Except.toOption] at leads
  · simp at h

namespace Session

/-- The references are the local ones of the files below the root, in the order of their extraction,
each with the directory that it leads to from that of its file. -/
def Resolves (s : Session) (root : String) (files : List String) (locals : List LocalReference) :
    Prop :=
  ∃ paths snapshot references, files.mapM workspaceFile = .ok paths ∧
    Snapshot.capture s.tree s.directory root paths = .ok snapshot ∧
    ModuleReference.extract snapshot paths = .ok references ∧
    locals = references.filterMap (ModuleReference.localReference? Path.parentDir)

variable {s : Session} {i : Invocation} {root text : String} {files : List String}
  {locals : List LocalReference}

/-- What is printed are the directories that the sources in the files resolve to. -/
theorem exists_resolves_of_parseOutput (h : s.parseOutput root files = .ok text) :
    ∃ locals, s.Resolves root files locals ∧
      text = Listing.ofLines (locals.map fun r => r.path.display) := by
  simp only [parseOutput, during, plainly, bind_eq_ok_iff, mapError_eq_ok_iff] at h
  obtain ⟨paths, named, snapshot, captured, references, extracted, locals, resolved, printed⟩ := h
  refine ⟨locals, ⟨paths, snapshot, references, named, captured, extracted, ?_⟩,
    (Except.ok.inj printed).symm⟩
  rw [localReferences_eq] at resolved
  split at resolved
  · contradiction
  · exact (Except.ok.inj resolved).symm

/-- The sources in the files resolve to one list of directories. -/
theorem Resolves.unique {others : List LocalReference} (resolves : s.Resolves root files locals)
    (resolvesToo : s.Resolves root files others) : locals = others := by
  obtain ⟨paths, snapshot, references, named, captured, extracted, rfl⟩ := resolves
  obtain ⟨paths', snapshot', references', named', captured', extracted', rfl⟩ := resolvesToo
  obtain rfl := Except.ok.inj (named.symm.trans named')
  obtain rfl := Except.ok.inj (captured.symm.trans captured')
  obtain rfl := Except.ok.inj (extracted.symm.trans extracted')
  rfl

/-- A command that succeeds has printed its output. -/
theorem output_of_exitCode (succeeds : (s.outcome i).exitCode = 0) :
    s.output i = .ok (s.outcome i).output := by
  unfold outcome at succeeds ⊢
  cases printed : s.output i with
  | ok text => rfl
  | error t => simp [printed] at succeeds

/-- What an invocation for files prints is what they give from the root. -/
theorem exists_root_of_output (command : i.command = .parse files)
    (printed : s.output i = .ok text) :
    ∃ root, s.root i = .ok root ∧ s.parseOutput root files = .ok text := by
  simp only [output, command, bind_eq_ok_iff] at printed
  obtain ⟨root, found, -, -, printed⟩ := printed
  exact ⟨root, found, printed⟩

/-- A name on the way of a local reference with a line feed in it stems from the directory of the
file or from the source. -/
theorem Resolves.newline_not_mem (resolves : s.Resolves root files locals) {r : LocalReference}
    (listed : r ∈ locals) (directory : '\n' ∉ r.reference.directory.toList)
    (source : '\n' ∉ (trim r.reference.source).toList) :
    ∀ name ∈ r.path.names, '\n' ∉ name.toList := by
  obtain ⟨paths, snapshot, references, -, -, -, rfl⟩ := resolves
  obtain ⟨reference, -, isLocal⟩ := List.mem_filterMap.mp listed
  intro name named inside
  rcases ModulePath.mem_namesOf_of_resolve
    (ModuleReference.resolve_of_localReference? isLocal) named with above | down
  · exact directory (ModulePath.mem_of_mem_namesOf above inside)
  · exact source (ModulePath.mem_of_mem_namesOf down inside)

/-- When the local sources of files are resolved with success, the lines of the output are the
displayed paths of the local references, one for each and in order, exactly when no name on any of
the paths holds a line feed; so they are if neither the files' directories nor the sources do. -/
theorem lines_outcome_iff (command : i.command = .parse files)
    (succeeds : (s.outcome i).exitCode = 0) :
    ∃ root locals, s.root i = .ok root ∧ s.Resolves root files locals ∧
      (Listing.linesOf (s.outcome i).output = locals.map (fun r => r.path.display) ↔
        ∀ r ∈ locals, ∀ name ∈ r.path.names, '\n' ∉ name.toList) ∧
      ((∀ r ∈ locals, '\n' ∉ r.reference.directory.toList ∧
          '\n' ∉ (trim r.reference.source).toList) →
        Listing.linesOf (s.outcome i).output = locals.map fun r => r.path.display) := by
  obtain ⟨root, found, printed⟩ := exists_root_of_output command (output_of_exitCode succeeds)
  obtain ⟨locals, resolves, text⟩ := exists_resolves_of_parseOutput printed
  have decodable : Listing.linesOf (s.outcome i).output = locals.map (fun r => r.path.display) ↔
      ∀ r ∈ locals, ∀ name ∈ r.path.names, '\n' ∉ name.toList := by
    rw [text, Listing.linesOf_ofLines_iff, List.forall_mem_map]
    simp only [ModulePath.mem_display_iff _ (show '\n' ≠ '/' by decide) (by decide), not_exists,
      not_and]
  refine ⟨root, locals, found, resolves, decodable, fun plain => decodable.mpr ?_⟩
  intro r listed
  exact resolves.newline_not_mem listed (plain r listed).1 (plain r listed).2

section Run

/-- A session in a directory with the one file `main.tf`. -/
def withMain (main : String) : Session :=
  ⟨FileTree.empty.put ["w", "main.tf"] (.file main.toUTF8), ["w"], false⟩

/-- The invocation that resolves the local sources of `main.tf`. -/
def parseMain : Invocation := ⟨.parse ["main.tf"], .warn, some ".", none⟩

/-- The root of the session is its directory. -/
theorem root_withMain (main : String) : (withMain main).root parseMain = .ok "/w" :=
  root_of_dot rfl rfl

/-- The session has no settings of its own. -/
theorem settings_withMain (main : String) :
    (withMain main).settings parseMain "/w" = .ok {} := by
  have isDirectory : (withMain main).tree.isDirectory ["w"] = true := rfl
  have located : (withMain main).tree.locate (withMain main).directory "/w" = .ok ["w"] :=
    FileTree.locate_top (by decide) isDirectory _
  exact settings_of_missing rfl located isDirectory rfl

/-- The file of the session can be read. -/
theorem read_withMain (main : String) :
    (withMain main).tree.read (withMain main).directory (Path.join "/w" "main.tf") =
      .ok main.toUTF8 := by
  have path : Path.join "/w" "main.tf" = Place.text ["w", "main.tf"] := by decide
  rw [path]
  exact FileTree.read_text rfl (by decide) _

variable {main : String} {references : List ModuleReference}

/-- The snapshot of the session has its one file. -/
theorem capture_withMain (decoded : Utf8.decode main.toUTF8 = .ok main) :
    Snapshot.capture (withMain main).tree (withMain main).directory "/w" ["main.tf"] =
      .ok (.ofFiles [("main.tf", main)]) :=
  Snapshot.capture_singleton (read_withMain main) decoded

/-- The sources in the file resolve to the directories of its local references. -/
theorem resolves_withMain (decoded : Utf8.decode main.toUTF8 = .ok main)
    (extracted : ModuleReference.extract (.ofFiles [("main.tf", main)]) ["main.tf"] =
      .ok references) :
    (withMain main).Resolves "/w" ["main.tf"]
      (references.filterMap (ModuleReference.localReference? Path.parentDir)) :=
  ⟨["main.tf"], _, references, by decide, capture_withMain decoded, extracted, rfl⟩

/-- The session prints the directories of the local references in its file. -/
theorem outcome_withMain (decoded : Utf8.decode main.toUTF8 = .ok main)
    (extracted : ModuleReference.extract (.ofFiles [("main.tf", main)]) ["main.tf"] =
      .ok references)
    (resolved : localReferences Path.parentDir references = .ok locals) :
    (withMain main).outcome parseMain =
      ⟨0, Listing.ofLines (locals.map fun r => r.path.display), ""⟩ := by
  have command : parseMain.command = .parse ["main.tf"] := rfl
  have named : ["main.tf"].mapM workspaceFile = .ok ["main.tf"] := by decide
  simp only [outcome, output, root_withMain, settings_withMain, command, parseOutput, named,
    capture_withMain decoded, extracted, resolved, during, plainly, Except.mapError, bind,
    Except.bind, pure, Except.pure]

end Run

/-- Two references to one directory are read back as two. -/
theorem lines_outcome_twice :
    let main := "module \"a\" \x7b source = \"./net\" \x7d\n" ++
      "module \"b\" \x7b source = \"./net\" \x7d"
    ∃ locals, (withMain main).Resolves "/w" ["main.tf"] locals ∧ locals.length = 2 ∧
      Listing.linesOf ((withMain main).outcome parseMain).output =
        locals.map fun r => r.path.display := by
  intro main
  let references : List ModuleReference :=
    [⟨"a", "./net", none, "main.tf", 1⟩, ⟨"b", "./net", none, "main.tf", 2⟩]
  let locals := references.map fun r => (⟨r, ⟨[⟨"net", by decide⟩]⟩⟩ : LocalReference)
  have decoded : Utf8.decode main.toUTF8 = .ok main := by decide +kernel
  have extracted : ModuleReference.extract (.ofFiles [("main.tf", main)]) ["main.tf"] =
      .ok references := by decide +kernel
  have resolved : localReferences Path.parentDir references = .ok locals := by decide +kernel
  have own : references.filterMap (ModuleReference.localReference? Path.parentDir) = locals := by
    decide +kernel
  have resolves := own ▸ resolves_withMain decoded extracted
  have succeeds : ((withMain main).outcome parseMain).exitCode = 0 := by
    rw [outcome_withMain decoded extracted resolved]
  obtain ⟨root, found, isRoot, same, -, decodable⟩ :=
    lines_outcome_iff (s := withMain main) (i := parseMain) rfl succeeds
  rw [root_withMain] at isRoot
  obtain rfl := Except.ok.inj isRoot
  obtain rfl := same.unique resolves
  exact ⟨locals, resolves, rfl, decodable (by decide)⟩

/-- A source with an escaped line feed is one reference and is read back as two lines. -/
theorem lines_outcome_newline :
    let main := "module \"a\" \x7b source = \"./a\\nb\" \x7d"
    ∃ locals, (withMain main).Resolves "/w" ["main.tf"] locals ∧ locals.length = 1 ∧
      (withMain main).outcome parseMain = ⟨0, "a\nb\n", ""⟩ ∧
      Listing.linesOf ((withMain main).outcome parseMain).output ≠
        locals.map fun r => r.path.display := by
  intro main
  let references : List ModuleReference := [⟨"a", "./a\nb", none, "main.tf", 1⟩]
  let locals : List LocalReference :=
    references.map fun r => ⟨r, ⟨[⟨"a\nb", by decide⟩]⟩⟩
  have decoded : Utf8.decode main.toUTF8 = .ok main := by decide +kernel
  have extracted : ModuleReference.extract (.ofFiles [("main.tf", main)]) ["main.tf"] =
      .ok references := by decide +kernel
  have resolved : localReferences Path.parentDir references = .ok locals := by decide +kernel
  have own : references.filterMap (ModuleReference.localReference? Path.parentDir) = locals := by
    decide +kernel
  refine ⟨locals, own ▸ resolves_withMain decoded extracted, rfl, ?_, ?_⟩
  · rw [outcome_withMain decoded extracted resolved]
    decide +kernel
  · rw [outcome_withMain decoded extracted resolved]
    decide +kernel

end Session

end TerraDeps
