import TerraDeps.Proofs.FileTree.Places
import TerraDeps.Settings.Load

/-!
# The root above a path

The search for the root goes through the place to which the path leads and the places above it, each
once and from the nearest to the top. So the root is the nearest of them that holds a settings file,
and where none does it is the place itself (`findRoot_nearest`). There is one such place
(`IsRootOf.unique`), which is its own root, so that the search from the root ends there.
-/

set_option autoImplicit false

namespace TerraDeps

variable {tree : FileTree} {base place other r : Place} {start name : String}

namespace FileTree

/-- Above what stands at a place something stands. -/
theorem Stands.above (stands : tree.Stands place) (above : other <+: place) :
    tree.Stands other := by
  obtain ⟨rest, rfl⟩ := above
  by_cases here : rest = []
  · rwa [here, List.append_nil] at stands
  · obtain ⟨entry, found, -⟩ := stands
    exact stands_of_isDirectory (isDirectory_above (by rw [found]; rfl) here)

/-- Unless it is that of a link, a name leads to a file exactly if one stands there. -/
theorem leadsToFile_iff {there : Option Entry} (isDirectory : tree.isDirectory place = true)
    (isName : IsFileName name) (found : tree.entry? (place ++ [name]) = there)
    (noLink : ∀ target, there ≠ some (.link target)) :
    tree.leadsToFile place name = true ↔ ∃ bytes, there = some (.file bytes) := by
  have looksUp := isName.looksUp isDirectory
  rw [leadsToFile, locate_name isName]
  match there with
  | none => simp [looksUp.walk_missing found]
  | some (.link target) => exact absurd rfl (noLink target)
  | some (.file bytes) => simp [looksUp.walk_entry found (by simp), walk, found]
  | some .directory => simp [looksUp.walk_entry found (by simp), walk, found]

end FileTree

/-- The name of the settings file leads from the place to a file. -/
def HoldsSettings (tree : FileTree) (place : Place) : Prop :=
  tree.leadsToFile place settingsFileName = true

/-- `r` is the nearest place at or above `place` that holds settings, or `place` itself where none
does. -/
def IsRootOf (tree : FileTree) (place r : Place) : Prop :=
  r <+: place ∧
    ((HoldsSettings tree r ∧
        ∀ below, r <+: below → below ≠ r → below <+: place → ¬ HoldsSettings tree below) ∨
      (r = place ∧ ∀ above, above <+: place → ¬ HoldsSettings tree above))

namespace IsRootOf

/-- The root is its own root. -/
theorem self (h : IsRootOf tree place r) : IsRootOf tree r r := by
  refine ⟨List.prefix_rfl, ?_⟩
  rcases h.2 with ⟨holds, -⟩ | ⟨rfl, holdsNowhere⟩
  · refine .inl ⟨holds, fun below atOrBelow different atOrAbove => ?_⟩
    exact absurd (atOrAbove.eq_of_length_le atOrBelow.length_le) different
  · exact .inr ⟨rfl, holdsNowhere⟩

/-- A place has one root. -/
theorem unique (h : IsRootOf tree place r) (h' : IsRootOf tree place other) : r = other := by
  obtain ⟨above, ⟨holds, nearest⟩ | ⟨rfl, holdsNowhere⟩⟩ := h <;>
    obtain ⟨above', ⟨holds', nearest'⟩ | ⟨rfl, holdsNowhere'⟩⟩ := h'
  · -- of two places above a third one is above the other
    by_contra different
    rcases List.prefix_or_prefix_of_prefix above above' with below | below
    · exact nearest other below (Ne.symm different) above' holds'
    · exact nearest' r below different above holds
  · exact absurd holds (holdsNowhere' r above)
  · exact absurd holds' (holdsNowhere other above')
  · rfl

end IsRootOf

/-- The starts of a list get longer. -/
theorem pairwise_inits {α : Type} (l : List α) :
    l.inits.Pairwise fun front longer => front.length < longer.length := by
  induction l with
  | nil => exact List.pairwise_singleton _ []
  | cons a l ih =>
    rw [List.inits_cons]
    refine List.pairwise_cons.mpr ⟨fun longer inside => ?_, ?_⟩
    · obtain ⟨rest, -, rfl⟩ := List.mem_map.mp inside
      simp
    · exact List.pairwise_map.mpr (ih.imp (by simp))

/-- The first place from the nearest to the top that holds settings is the root. -/
theorem isRootOf_find? (tree : FileTree) (place : Place) :
    IsRootOf tree place ((place.inits.reverse.find? fun above =>
      tree.leadsToFile above settingsFileName).getD place) := by
  cases found : place.inits.reverse.find? fun above =>
      tree.leadsToFile above settingsFileName with
  | none =>
    refine ⟨List.prefix_rfl, .inr ⟨rfl, fun above start => ?_⟩⟩
    exact List.find?_eq_none.mp found above (by simpa using start)
  | some r =>
    obtain ⟨holds, before, after, split, passed⟩ := List.find?_eq_some_iff_append.mp found
    have inside : r ∈ place.inits.reverse := by simp [split]
    refine ⟨by simpa using inside, .inl ⟨holds, fun below atOrBelow different atOrAbove => ?_⟩⟩
    have listed : below ∈ before ++ r :: after := by
      rw [← split]
      simpa using atOrAbove
    have shorter := List.pairwise_reverse.mpr (pairwise_inits place)
    rw [split] at shorter
    rcases List.mem_append.mp listed with first | later
    · simpa [HoldsSettings] using passed below first
    · rcases List.mem_cons.mp later with same | later
      · exact absurd same different
      · have less := List.rel_of_pairwise_cons (List.pairwise_append.mp shorter).2.1 later
        exact absurd atOrBelow.length_le (Nat.not_le.mpr less)

/-- The root that is found is the nearest place at or above the start with a settings file, or else
the start itself. -/
theorem findRoot_eq (valid : tree.HasFileNames []) (located : tree.locate base start = .ok place) :
    findRoot tree base start = Place.text ((place.inits.reverse.find? fun above =>
      tree.leadsToFile above settingsFileName).getD place) := by
  have stands := FileTree.stands_of_locate located
  have isName : IsFileName settingsFileName := by decide
  have looked : ∀ above ∈ place.inits.reverse,
      tree.leadsToFile base (Path.join (Place.text above) settingsFileName) =
        tree.leadsToFile above settingsFileName := by
    intro above inside
    have standsToo := stands.above (by simpa using inside)
    unfold FileTree.leadsToFile
    rw [FileTree.locate_join_text standsToo (valid.isFileName standsToo) isName]
  simp only [findRoot, canonical, located]
  rw [Path.ancestors_text (valid.isFileName stands), ← List.map_reverse, List.find?_map,
    Option.getD_map, ← List.head?_filter, ← List.head?_filter, Function.comp_def,
    List.filter_congr looked]

/-- The root of a path is the nearest place at or above where the path leads that has a settings
file, or where the path leads if there is none; from the root the same root is found, whatever the
working directory. The tree may be any whose names are names of files. -/
theorem findRoot_nearest (valid : tree.HasFileNames [])
    (located : tree.locate base start = .ok place) :
    ∃ r, findRoot tree base start = Place.text r ∧ IsRootOf tree place r ∧
      ∀ elsewhere, findRoot tree elsewhere (findRoot tree base start) =
        findRoot tree base start := by
  have nearest := isRootOf_find? tree place
  rw [findRoot_eq valid located]
  generalize (place.inits.reverse.find? fun above =>
    tree.leadsToFile above settingsFileName).getD place = r at nearest
  refine ⟨r, rfl, nearest, fun elsewhere => ?_⟩
  have stands := (FileTree.stands_of_locate located).above nearest.1
  have again := FileTree.locate_text stands (valid.isFileName stands) elsewhere
  rw [findRoot_eq valid again, (isRootOf_find? tree r).unique nearest.self]

/-- The settings are above a directory that has the name of the settings file. -/
theorem findRoot_nearest_above :
    let tree := (FileTree.empty.put ["w", "tfdep.toml"] (.file "".toUTF8)).put
      ["w", "a", "tfdep.toml"] .directory
    tree.HasFileNames [] ∧ tree.locate [] "/w/a" = .ok ["w", "a"] ∧
      findRoot tree [] "/w/a" = "/w" := by
  intro tree
  have valid : tree.HasFileNames [] := by decide +kernel
  have stands : tree.Stands ["w", "a"] := ⟨.directory, rfl, by simp⟩
  have located : tree.locate [] (Place.text ["w", "a"]) = .ok ["w", "a"] :=
    FileTree.locate_text stands (valid.isFileName stands) []
  have isName : IsFileName settingsFileName := by decide
  have file : tree.entry? (["w"] ++ [settingsFileName]) = some (.file "".toUTF8) := rfl
  have holds : HoldsSettings tree ["w"] :=
    (FileTree.leadsToFile_iff rfl isName file (by simp)).mpr ⟨_, rfl⟩
  have directory : tree.entry? (["w", "a"] ++ [settingsFileName]) = some .directory := rfl
  have misses : ¬ HoldsSettings tree ["w", "a"] := by
    rw [HoldsSettings, FileTree.leadsToFile_iff rfl isName directory (by simp)]
    simp
  have isRoot : IsRootOf tree ["w", "a"] ["w"] := by
    refine ⟨by simp, .inl ⟨holds, fun below atOrBelow different atOrAbove => ?_⟩⟩
    have listed : below ∈ [[], ["w"], ["w", "a"]] := (List.mem_inits below ["w", "a"]).mpr atOrAbove
    simp only [List.mem_cons, List.not_mem_nil, or_false] at listed
    rcases listed with rfl | rfl | rfl
    · simp at atOrBelow
    · contradiction
    · exact misses
  obtain ⟨r, found, nearest, -⟩ := findRoot_nearest valid located
  rw [nearest.unique isRoot] at found
  exact ⟨valid, located, found⟩

end TerraDeps
