import TerraDeps.Proofs.Session.Start
import TerraDeps.Proofs.UnitIndex.Discovery
import TerraDeps.Proofs.UnitIndex.Selection
import TerraDeps.Proofs.Workspace

/-!
# The units named on the command line

An inference is asked for units by texts, or for all units by none. The texts matter only for the
units that they find: each of these is inferred once, in the order of the addresses. So whatever
finds the same units gives the same output, be it in another order, repeated, or with a unit by its
directory alone in one place and with its name in another.
-/

set_option autoImplicit false

namespace TerraDeps

/-- The invocation with an inference for the units that texts name as its command. -/
def Invocation.inferring (i : Invocation) (texts : List String) (format : OutputFormat) :
    Invocation :=
  { i with command := .infer texts format }

/-- A text on the command line finds the unit. -/
def Workspace.Finds (w : Workspace) (text : String) (unit : BuildUnit) : Prop :=
  w.index.find (Address.parse text) = .ok unit

namespace Workspace

variable {w : Workspace} {text : String} {texts : List String}

/-- A text that finds no unit fails with the address that it is read as. -/
theorem find_eq_error_of_not_finds (notFound : ∀ unit, ¬ w.Finds text unit) :
    w.index.find (Address.parse text) = .error (.unitNotFound (Address.parse text).display) := by
  refine UnitIndex.find_eq_error fun unit listed => ?_
  by_contra fits
  exact notFound unit (UnitIndex.find_eq_ok_iff.mpr ⟨listed, by simpa using fits⟩)

/-- If each text finds a unit, each is found for the address that it is read as. -/
theorem exists_find_of_finds (found : ∀ text ∈ texts, ∃ unit, w.Finds text unit) :
    ∀ query ∈ texts.map Address.parse, ∃ unit, w.index.find query = .ok unit :=
  List.forall_mem_map.mpr found

/-- The units found for what texts are read as are those that the texts find. -/
theorem isFound_parse_iff {unit : BuildUnit} :
    w.index.IsFound (texts.map Address.parse) unit ↔ ∃ text ∈ texts, w.Finds text unit := by
  simp [UnitIndex.IsFound, Finds]

end Workspace

namespace Session

/-- The workspace that an inference or a graph is about. -/
def discovered (s : Session) (i : Invocation) : Except Trouble Workspace := do
  let root ← s.root i
  let settings ← s.settings i root
  s.workspace root settings

/-- What is printed of the dependencies of units. -/
def listing (s : Session) (format : OutputFormat) (inferred : List (Address × Dependencies)) :
    String :=
  match format with
  | .text => Listing.inferredText s.color inferred
  | .json => Listing.jsonText (Listing.inferredJson inferred)

variable {s : Session} {i : Invocation} {w : Workspace}

/-- An inference selects units, infers their dependencies in the order of the selection and prints
them. -/
theorem output_inferring (discovered : s.discovered i = .ok w) (texts : List String)
    (format : OutputFormat) :
    s.output (i.inferring texts format) =
      plainly (w.index.select (texts.map Address.parse)) >>= fun units =>
        (plainly (w.inferAll units)).map (s.listing format) := by
  simp only [Session.discovered, bind_eq_ok_iff] at discovered
  obtain ⟨root, found, settings, loaded, workspace⟩ := discovered
  have rootToo : s.root (i.inferring texts format) = .ok root := found
  have settingsToo : s.settings (i.inferring texts format) root = .ok settings := loaded
  have run : s.output (i.inferring texts format) = s.inferOutput w texts format := by
    simp only [output, rootToo, settingsToo, bind, Except.bind]
    simp only [Invocation.inferring, workspace]
  rw [run]
  cases format <;> rfl

/-- What is printed tells of an inference for the units: of each of them, in their order, the
address with the dependencies inferred for it, or else only of the first unit for which inference
fails. -/
structure Infers (s : Session) (w : Workspace) (format : OutputFormat) (units : List BuildUnit)
    (printed : Except Trouble String) : Prop where
  ok_iff : ∀ text, printed = .ok text ↔
    ∃ entries, w.AreInferred units entries ∧ s.listing format entries = text
  error_iff : ∀ t, printed = .error t ↔ ∃ f, w.FailsFirst units f ∧ ⟨.failure f, []⟩ = t

/-- Inference for units, with its result printed, tells of these units. -/
theorem infers_inferAll (s : Session) (w : Workspace) (format : OutputFormat)
    (units : List BuildUnit) :
    s.Infers w format units ((plainly (w.inferAll units)).map (s.listing format)) where
  ok_iff text := by
    simp only [map_eq_ok_iff, plainly, mapError_eq_ok_iff, Workspace.inferAll_eq_ok_iff]
  error_iff t := by
    simp only [map_eq_error_iff, plainly, mapError_eq_error_iff, Workspace.inferAll_eq_error_iff]

/-- An inference for texts on the command line fails for the first that finds no unit. If all find
one, it infers the dependencies of the units found, each once, in the order of their addresses. So
other texts that find the same units give the same output, and texts that find all units give what
none give: the dependencies of all units, in the order of their addresses. -/
theorem inferring_same_units (discovered : s.discovered i = .ok w) (format : OutputFormat) :
    (∀ before text after, (∀ other ∈ before, ∃ unit, w.Finds other unit) →
      (∀ unit, ¬ w.Finds text unit) →
      s.output (i.inferring (before ++ text :: after) format) =
        .error ⟨.failure (.unitNotFound (Address.parse text).display), []⟩) ∧
    (∀ texts, texts ≠ [] → (∀ text ∈ texts, ∃ unit, w.Finds text unit) →
      ∃ units, units.Pairwise (fun a b => a.address < b.address) ∧
        (∀ unit, unit ∈ units ↔ ∃ text ∈ texts, w.Finds text unit) ∧
        s.Infers w format units (s.output (i.inferring texts format))) ∧
    (∀ texts others, (∀ text ∈ texts, ∃ unit, w.Finds text unit) →
      (∀ text ∈ others, ∃ unit, w.Finds text unit) →
      (∀ unit, (∃ text ∈ texts, w.Finds text unit) ↔ ∃ text ∈ others, w.Finds text unit) →
      s.output (i.inferring others format) = s.output (i.inferring texts format)) ∧
    (∀ texts, (∀ text ∈ texts, ∃ unit, w.Finds text unit) →
      (∀ unit ∈ w.index.toList, ∃ text ∈ texts, w.Finds text unit) →
      s.output (i.inferring texts format) = s.output (i.inferring [] format)) ∧
    w.index.toList.Pairwise (fun a b => a.address < b.address) ∧
    s.Infers w format w.index.toList (s.output (i.inferring [] format)) := by
  have runs (texts : List String) := output_inferring discovered texts format
  -- Texts count only by the units they select, so the parts follow from what `select` gives.
  refine ⟨fun before text after found notFound => ?_, fun texts asked found => ?_,
    fun texts others found foundToo same => ?_, fun texts found all => ?_,
    w.index.pairwise_toList, ?_⟩
  · have fails : w.index.select ((before ++ text :: after).map Address.parse) =
        .error (.unitNotFound (Address.parse text).display) :=
      UnitIndex.select_eq_error_iff.mpr ⟨before.map Address.parse, Address.parse text,
        after.map Address.parse, by simp, Workspace.exists_find_of_finds found,
        Workspace.find_eq_error_of_not_finds notFound⟩
    rw [runs, fails]
    rfl
  · obtain ⟨units, selects, ascending, mem⟩ :=
      UnitIndex.select_of_found (by simpa using asked) (Workspace.exists_find_of_finds found)
    refine ⟨units, ascending, fun unit => ?_, ?_⟩
    · rw [mem, Workspace.isFound_parse_iff]
    · rw [runs, selects]
      exact infers_inferAll s w format units
  · rw [runs, runs, UnitIndex.select_congr (Workspace.exists_find_of_finds found)
      (Workspace.exists_find_of_finds foundToo)]
    simpa only [Workspace.isFound_parse_iff] using same
  · rw [runs, runs, UnitIndex.select_of_all_found (Workspace.exists_find_of_finds found)]
    · rfl
    · simpa only [Workspace.isFound_parse_iff] using all
  · rw [runs]
    exact infers_inferAll s w format w.index.toList

section Run

/-- The text of a source file with a reference to another unit. -/
def mainText : String := "module b \x7b\n  source = \"../b\"\n\x7d\n"

/-- A session in a directory with two units, of which the first has a name of its own and refers to
the second. -/
def withTwoUnits : Session where
  tree := ((FileTree.empty.put ["w", "a", "BUILD"]
    (.file "terraform_module(name='core')".toUTF8)).put
    ["w", "b", "BUILD"] (.file "terraform_module()".toUTF8)).put
    ["w", "a", "main.tf"] (.file mainText.toUTF8)
  directory := ["w"]
  color := false

/-- The first unit. -/
def firstUnit : BuildUnit := ⟨.named "a" "core", ⟨[⟨"a", by decide⟩]⟩, "a/BUILD", ["a/main.tf"]⟩

/-- The second unit. -/
def secondUnit : BuildUnit := ⟨.ofPath "b", ⟨[⟨"b", by decide⟩]⟩, "b/BUILD", []⟩

/-- The two units. -/
def twoUnits : UnitIndex :=
  (UnitIndex.empty.add firstUnit (by decide)).add secondUnit (by decide)

/-- An invocation at the working directory. -/
def here : Invocation := ⟨.graph .text, .warn, some ".", none⟩

/-- The workspace with the two units is discovered. -/
theorem discovered_withTwoUnits :
    withTwoUnits.discovered here = .ok ⟨withTwoUnits.tree, ["w"], "/w", twoUnits⟩ := by
  have isDirectory : withTwoUnits.tree.isDirectory ["w"] = true := rfl
  have located : withTwoUnits.tree.locate withTwoUnits.directory "/w" = .ok ["w"] :=
    FileTree.locate_top (by decide) isDirectory _
  have root : withTwoUnits.root here = .ok "/w" := root_of_dot rfl isDirectory
  have settings : withTwoUnits.settings here "/w" = .ok {} :=
    settings_of_missing rfl located isDirectory rfl
  let ignore : List Glob.Pattern := [
    ⟨".git/".toList.map Glob.Token.literal ++ [.run]⟩,
    ⟨.directories :: ".terraform/".toList.map Glob.Token.literal ++ [.run]⟩]
  have valid : ({} : WorkspaceSettings).ignore.mapM ignorePattern = .ok ignore := by
    decide +kernel
  have found : UnitIndex.discover withTwoUnits.tree withTwoUnits.directory "/w" {} =
      .ok twoUnits := by
    rw [UnitIndex.discover_eq_foldlM located isDirectory valid]
    decide +kernel
  simp only [Session.discovered, root, settings, workspace, Workspace.discover, found, bind,
    Except.bind]
  rfl

/-- The first of the two units depends on the second, which depends on none. -/
theorem areInferred_withTwoUnits :
    Workspace.AreInferred ⟨withTwoUnits.tree, ["w"], "/w", twoUnits⟩ [firstUnit, secondUnit]
      [(.named "a" "core", ⟨.ofList [.ofPath "b"], false⟩), (.ofPath "b", ⟨.empty, false⟩)] := by
  have captured : Snapshot.capture withTwoUnits.tree ["w"] "/w" ["a/main.tf"] =
      .ok (.ofFiles [("a/main.tf", mainText)]) := by
    have joined : Path.join "/w" "a/main.tf" = Place.text ["w", "a", "main.tf"] := by decide
    have read : withTwoUnits.tree.read ["w"] (Path.join "/w" "a/main.tf") =
        .ok mainText.toUTF8 :=
      joined ▸ FileTree.read_text rfl (by decide) ["w"]
    exact Snapshot.capture_singleton read (by decide +kernel)
  refine .cons ⟨rfl, ?_⟩ (.cons ⟨rfl, ?_⟩ .nil)
  · rw [Workspace.dependencies, firstUnit, captured]
    decide +kernel
  · decide +kernel

/-- The first unit may be named by its directory alone, and what names both is the same as nothing:
what both depend on is printed, in the order of their addresses. Of `a:b` and `c`, which name none,
the first is told. -/
theorem inferring_same_units_two_units :
    withTwoUnits.output (here.inferring ["a:core"] .text) =
      withTwoUnits.output (here.inferring ["a", "a"] .text) ∧
    withTwoUnits.output (here.inferring ["b", "a:core", "a"] .text) =
      withTwoUnits.output (here.inferring [] .text) ∧
    withTwoUnits.output (here.inferring [] .text) =
      .ok "a:core\n└── b\n\nb\n(no dependencies)\n" ∧
    withTwoUnits.output (here.inferring ["b", "a:b", "c"] .text) =
      .error ⟨.failure (.unitNotFound "a:b"), []⟩ := by
  obtain ⟨fails, -, same, all, -, infers⟩ := inferring_same_units discovered_withTwoUnits .text
  have byName : twoUnits.find (Address.parse "a:core") = .ok firstUnit := by decide +kernel
  have byDirectory : twoUnits.find (Address.parse "a") = .ok firstUnit := by decide +kernel
  have other : twoUnits.find (Address.parse "b") = .ok secondUnit := by decide +kernel
  have neither : twoUnits.find (Address.parse "a:b") = .error (.unitNotFound "a:b") := by
    decide +kernel
  have listed : twoUnits.toList = [firstUnit, secondUnit] := by decide +kernel
  rw [listed] at infers
  refine ⟨same ["a", "a"] ["a:core"] ?_ ?_ fun unit => ?_, all ["b", "a:core", "a"] ?_ ?_,
    (infers.ok_iff _).mpr ⟨_, areInferred_withTwoUnits, ?printed⟩,
    fails ["b"] "a:b" ["c"] ?_ fun unit => ?_⟩
  case printed => decide +kernel
  all_goals simp [Workspace.Finds, byName, byDirectory, other, neither, listed]

end Run

end Session

end TerraDeps
