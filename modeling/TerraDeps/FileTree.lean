import TerraDeps.Catalog

/-!
# File trees

A file tree says what stands at each place: a file, a symbolic link or a directory. A place is the
list of names that lead to it from the top. The type keeps two rules of file systems: a place has
one entry, and what an entry is below is a directory. `get?_put` and `get?_remove` say what a
change touches.
-/

set_option autoImplicit false

namespace TerraDeps

/-- What stands at a place. -/
inductive Entry where
  /-- A regular file with its bytes. -/
  | file (bytes : ByteArray)
  /-- A symbolic link to a path, which counts from the link's own directory unless absolute. -/
  | link (target : String)
  /-- A directory. -/
  | directory

/-- The names that lead to a place from the top. -/
abbrev Place := List String

/-- The directory that a place is in; the top is in itself. -/
def Place.parent (place : Place) : Place :=
  place.dropLast

/-- Whether `place` is above `other`, not at it. -/
def Place.isAbove (place other : Place) : Bool :=
  place.isPrefixOf other && decide (place ≠ other)

/-- The directories above a place, from the top down. -/
def Place.above (place : Place) : List Place :=
  (List.range place.length).map place.take

/-- The places listed above a place are those that are above it. -/
theorem Place.mem_above_iff {place other : Place} :
    other ∈ place.above ↔ other.isAbove place = true := by
  simp only [Place.above, List.mem_map, List.mem_range, Place.isAbove, Bool.and_eq_true,
    List.isPrefixOf_iff_prefix, decide_eq_true_eq]
  constructor
  · rintro ⟨n, hn, rfl⟩
    refine ⟨List.take_prefix n place, fun same => ?_⟩
    have := congrArg List.length same
    simp only [List.length_take] at this
    omega
  · rintro ⟨start, different⟩
    refine ⟨other.length, ?_, List.prefix_iff_eq_take.mp start |>.symm⟩
    exact Nat.lt_of_le_of_ne start.length_le fun same => different (start.eq_of_length same)

/-- No place is above itself. -/
theorem Place.not_isAbove_self (place : Place) : place.isAbove place = false := by
  simp [Place.isAbove]

/-- What is above a place above another is above the other. -/
theorem Place.isAbove_trans {a b c : Place} (ab : a.isAbove b = true) (bc : b.isAbove c = true) :
    a.isAbove c = true := by
  simp only [Place.isAbove, Bool.and_eq_true, List.isPrefixOf_iff_prefix, decide_eq_true_eq] at *
  refine ⟨ab.1.trans bc.1, ?_⟩
  rintro rfl
  exact ab.2 (ab.1.eq_of_length_le bc.1.length_le)

/-- What is above a child is the parent or above it. -/
theorem Place.isAbove_child_iff {place parent : Place} {name : String} :
    place.isAbove (parent ++ [name]) = true ↔ place = parent ∨ place.isAbove parent = true := by
  simp only [Place.isAbove, Bool.and_eq_true, List.isPrefixOf_iff_prefix, decide_eq_true_eq]
  constructor
  · rintro ⟨⟨rest, joined⟩, different⟩
    rcases List.eq_nil_or_concat rest with rfl | ⟨rest, last, rfl⟩
    · simp_all
    · rw [List.concat_eq_append, ← List.append_assoc] at joined
      have same := (List.append_inj' joined rfl).1
      by_cases equal : place = parent
      · exact .inl equal
      · exact .inr ⟨⟨rest, same⟩, equal⟩
  · rintro (rfl | ⟨start, -⟩)
    · exact ⟨List.prefix_append _ _, by simp⟩
    · refine ⟨start.trans (List.prefix_append _ _), fun same => ?_⟩
      have long := congrArg List.length same
      have short := start.length_le
      simp only [List.length_append, List.length_cons, List.length_nil] at long
      omega

/-- The entries of a file system. -/
structure FileTree where
  /-- What stands where. -/
  entries : Catalog Place Entry
  /-- An entry stands in a directory. -/
  parentIsDirectory : ∀ (place : Place) (name : String), place ≠ [] →
    (entries.get? (place ++ [name])).isSome → entries.get? place = some .directory

namespace FileTree

/-- The tree with nothing in it. -/
def empty : FileTree :=
  ⟨.empty, fun _ _ _ h => by simp [Catalog.get?_empty] at h⟩

/-- What stands at a place; the top is a directory. -/
def entry? (tree : FileTree) (place : Place) : Option Entry :=
  if place = [] then some .directory else tree.entries.get? place

/-- Whether a directory stands at a place. -/
def isDirectory (tree : FileTree) (place : Place) : Bool :=
  match tree.entry? place with
  | some .directory => true
  | _ => false

/-- The catalog with a directory at each of the places. -/
def withDirectories (places : List Place) (entries : Catalog Place Entry) : Catalog Place Entry :=
  places.foldl (fun c place => c.insert place .directory) entries

/-- The catalog with an entry at a place, directories above it and nothing below it. -/
def putEntry (entries : Catalog Place Entry) (place : Place) (entry : Entry) :
    Catalog Place Entry :=
  (withDirectories place.above
    (entries.restrict fun other => !place.isAbove other)).insert place entry

/-- Directories are at the given places, and what was there before is at the others. -/
theorem get?_withDirectories (places : List Place) (entries : Catalog Place Entry)
    (place : Place) :
    (withDirectories places entries).get? place =
      if place ∈ places then some .directory else entries.get? place := by
  induction places generalizing entries with
  | nil => simp [withDirectories]
  | cons first rest ih =>
    have step : withDirectories (first :: rest) entries =
      withDirectories rest (entries.insert first .directory) := rfl
    rw [step, ih, Catalog.get?_insert]
    by_cases isFirst : place = first
    · simp [isFirst]
    · simp [isFirst]

/-- An entry is put at its place with directories above it, in place of what was below it, and the
rest stays. -/
theorem get?_putEntry (entries : Catalog Place Entry) (place : Place) (entry : Entry)
    (other : Place) :
    (putEntry entries place entry).get? other =
      if other = place then some entry
      else if other.isAbove place then some .directory
      else if place.isAbove other then none
      else entries.get? other := by
  simp only [putEntry, Catalog.get?_insert, get?_withDirectories, Catalog.get?_restrict,
    Place.mem_above_iff]
  cases place.isAbove other <;> rfl

/-- The tree with an entry at a place, in the place of all that was at or below it; what is above
becomes directories. -/
def put (tree : FileTree) (place : Place) (entry : Entry) : FileTree where
  entries := putEntry tree.entries place entry
  parentIsDirectory parent name inside h := by
    have aboveChild : parent.isAbove (parent ++ [name]) = true :=
      Place.isAbove_child_iff.mpr (.inl rfl)
    rw [get?_putEntry] at h ⊢
    -- A parent above the place is made a directory; any other has a child that was there before.
    by_cases above : parent.isAbove place = true
    · have notPlace : parent ≠ place := by
        rintro rfl
        rw [Place.not_isAbove_self] at above
        contradiction
      rw [if_neg notPlace, if_pos above]
    · have childNotPlace : parent ++ [name] ≠ place := by
        rintro rfl
        exact above aboveChild
      have childNotAbove : ¬ (parent ++ [name]).isAbove place = true := fun childAbove =>
        above (Place.isAbove_trans aboveChild childAbove)
      rw [if_neg childNotPlace, if_neg childNotAbove] at h
      have notBelow : ¬ place.isAbove (parent ++ [name]) = true := by
        intro below
        rw [if_pos below] at h
        contradiction
      obtain ⟨notPlace, parentNotBelow⟩ := not_or.mp (mt Place.isAbove_child_iff.mpr notBelow)
      rw [if_neg notBelow] at h
      rw [if_neg (Ne.symm notPlace), if_neg above, if_neg parentNotBelow]
      exact tree.parentIsDirectory parent name inside h

/-- The tree without what is at or below a place. -/
def remove (tree : FileTree) (place : Place) : FileTree where
  entries := tree.entries.restrict fun other => !place.isPrefixOf other
  parentIsDirectory parent name inside h := by
    have kept : place.isPrefixOf parent = true → place.isPrefixOf (parent ++ [name]) = true := by
      simp only [List.isPrefixOf_iff_prefix]
      exact fun start => start.trans (List.prefix_append _ _)
    rw [Catalog.get?_restrict] at h ⊢
    cases below : place.isPrefixOf parent with
    | true =>
      rw [kept below] at h
      contradiction
    | false =>
      split at h
      · exact tree.parentIsDirectory parent name inside h
      · contradiction

/-- The tree with a directory at a place, which keeps what is in it. -/
def makeDirectory (tree : FileTree) (place : Place) : FileTree :=
  if tree.isDirectory place then tree else tree.put place .directory

end FileTree

end TerraDeps
