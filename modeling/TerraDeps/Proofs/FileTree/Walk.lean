import Mathlib.Data.List.Induction
import Mathlib.Data.List.TakeDrop
import TerraDeps.Proofs.FileTree

/-!
# Walking through a tree

A path that is joined to a root is looked up by walking to the root and on from there
(`exists_locate_join`). The names down to a file or a directory lead there, and a walk along more
names goes on from it (`walk_down_append`). A walk ends where something stands that is no link
(`stands_of_walk`), and in a tree without links it ends where its names say, whatever stands on the
way (`walk_eq_foldl`).
-/

set_option autoImplicit false

namespace TerraDeps

open Text

/-- A name that a file or directory can have. -/
def IsFileName (name : String) : Prop :=
  name ≠ "" ∧ name ≠ "." ∧ name ≠ ".." ∧ '/' ∉ name.toList ∧ '\x00' ∉ name.toList ∧
    name.utf8ByteSize ≤ FileTree.nameLimit

instance (name : String) : Decidable (IsFileName name) :=
  inferInstanceAs (Decidable (_ ∧ _))

/-- A file name has no slash. -/
theorem IsFileName.noSlash {name : String} (h : IsFileName name) : '/' ∉ name.toList :=
  h.2.2.2.1

/-- A file name has no zero character. -/
theorem IsFileName.noNul {name : String} (h : IsFileName name) : '\x00' ∉ name.toList :=
  h.2.2.2.2.1

/-- A name is no path from the top. -/
theorem IsFileName.head?_ne {name : String} (h : IsFileName name) :
    name.toList.head? ≠ some '/' :=
  fun first => h.noSlash (List.mem_of_mem_head? first)

/-- A file name without a backslash stands for one file. -/
theorem IsFileName.isSegment {name : String} (h : IsFileName name)
    (noBackslash : '\\' ∉ name.toList) : IsSegment name := by
  refine ⟨h.1, h.2.1, h.2.2.1, fun c inside => ?_⟩
  rw [isSeparator, Bool.or_eq_false_iff, beq_eq_false_iff_ne, beq_eq_false_iff_ne]
  constructor
  · rintro rfl
    exact h.noSlash inside
  · rintro rfl
    exact noBackslash inside

/-- A file name is looked up in a directory. -/
theorem IsFileName.looksUp {name : String} (h : IsFileName name) {tree : FileTree} {place : Place}
    (isDirectory : tree.isDirectory place = true) : tree.LooksUp place name :=
  ⟨isDirectory, not_or.mpr ⟨h.1, h.2.1⟩, h.2.2.1, Nat.not_lt.mpr h.2.2.2.2.2⟩

/-- A file name is one name. -/
theorem IsFileName.namesOf_eq {name : String} (h : IsFileName name) : namesOf name = [name] := by
  have whole : ∀ c ∈ name.toList, (c == '/') = false := by
    intro c inside
    rw [beq_eq_false_iff_ne]
    rintro rfl
    exact h.noSlash inside
  rw [namesOf, pieces_of_not_sep whole, List.map_singleton, String.ofList_toList]

/-- A slash cuts a path into the names before it and those behind it. -/
theorem namesOf_append_slash (front : List Char) (path : String) :
    namesOf (String.ofList (front ++ '/' :: path.toList)) =
      namesOf (String.ofList front) ++ namesOf path := by
  rw [namesOf, String.toList_ofList, pieces_append_cons (by decide), List.map_append, namesOf,
    String.toList_ofList, namesOf]

namespace FileTree

variable {tree : FileTree} {base place start : Place} {names more : List String} {links : Nat}

/-- Each name below the place is one that a file or directory can have. -/
def HasFileNames (tree : FileTree) (place : Place) : Prop :=
  ∀ entry ∈ tree.entries.entries, place <+: entry.1 →
    ∀ name ∈ entry.1.drop place.length, IsFileName name

instance (tree : FileTree) (place : Place) : Decidable (tree.HasFileNames place) :=
  inferInstanceAs (Decidable (∀ entry ∈ tree.entries.entries, _))

/-- No entry is a link. -/
def HasNoLinks (tree : FileTree) : Prop :=
  ∀ entry ∈ tree.entries.entries, ∀ target, entry.2 ≠ .link target

section Parts

/-- A walk along more names fails as the walk along the first of them does, or goes on from where
they lead. -/
theorem walk_append (tree : FileTree) (links : Nat) (start : Place) (names more : List String) :
    (∃ e, tree.walk true links start names = .error e ∧
      tree.walk true links start (names ++ more) = .error e) ∨
    ∃ place left, tree.walk true links start names = .ok place ∧
      tree.walk true links start (names ++ more) = tree.walk true left place more := by
  fun_induction walk tree true links start names with
  | case1 links here => exact .inr ⟨here, links, rfl, rfl⟩
  | case2 links here name rest inside stay ih =>
    rwa [List.cons_append, walk, if_pos inside, if_pos stay]
  | case3 links here rest inside notStay ih =>
    rwa [List.cons_append, walk, if_pos inside, if_neg notStay, if_pos rfl]
  | case4 links here name rest inside notStay notUp long =>
    refine .inl ⟨_, rfl, ?_⟩
    rw [List.cons_append, walk, if_pos inside, if_neg notStay, if_neg notUp, if_pos long]
  | case5 links here name rest inside notStay notUp short missing =>
    exact .inl ⟨_, rfl, LooksUp.walk_missing ⟨inside, notStay, notUp, short⟩ missing⟩
  | case6 links here name rest inside notStay notUp short target found last =>
    simp at last
  | case7 here name rest inside notStay notUp short target found notLast =>
    exact .inl ⟨_, rfl, LooksUp.walk_tooManyLinks ⟨inside, notStay, notUp, short⟩ found (by simp)⟩
  | case8 here name rest inside notStay notUp short target found notLast links ih =>
    rw [List.cons_append, LooksUp.walk_link ⟨inside, notStay, notUp, short⟩ found (by simp),
      ← List.append_assoc]
    exact ih
  | case9 links here name rest inside notStay notUp short entry notLink found ih =>
    rw [List.cons_append, LooksUp.walk_entry ⟨inside, notStay, notUp, short⟩ found notLink]
    exact ih
  | case10 links here name rest outside =>
    refine .inl ⟨_, rfl, ?_⟩
    rw [List.cons_append, walk, if_neg outside]

/-- A walk along more names goes on from where the walk along the first of them ends. -/
theorem exists_walk_append (h : tree.walk true links start names = .ok place) :
    ∃ left, tree.walk true links start (names ++ more) = tree.walk true left place more := by
  obtain ⟨e, failed, -⟩ | ⟨there, left, found, goesOn⟩ := walk_append tree links start names more
  · rw [failed] at h
    contradiction
  · obtain rfl := Except.ok.inj (found.symm.trans h)
    exact ⟨left, goesOn⟩

/-- An empty name at the end leads no further. -/
theorem walk_of_walk_concat_empty (h : tree.walk true links start (names ++ [""]) = .ok place) :
    tree.walk true links start names = .ok place := by
  obtain ⟨e, -, failed⟩ | ⟨there, left, found, goesOn⟩ := walk_append tree links start names [""]
  · rw [failed] at h
    contradiction
  · rw [goesOn, walk] at h
    split at h
    · rw [if_pos (.inl rfl), walk] at h
      rw [found, h]
    · contradiction

end Parts

section Join

variable {root path : String}

/-- A relative path follows a root that ends with a slash. -/
theorem join_eq_of_slash {front : List Char} (relative : path.toList.head? ≠ some '/')
    (whole : root.toList = front ++ ['/']) :
    Path.join root path = String.ofList (front ++ '/' :: path.toList) := by
  have notEmpty : root ≠ "" := by
    rintro rfl
    simp at whole
  have joined : Path.join root path = root ++ path := by
    simp [Path.join, relative, notEmpty, whole]
  rw [joined, ← String.toList_inj, String.toList_append, whole]
  simp

/-- A relative path follows any other root with a slash between them. -/
theorem join_eq_of_no_slash (relative : path.toList.head? ≠ some '/') (notEmpty : root ≠ "")
    (noSlash : root.toList.getLast? ≠ some '/') :
    Path.join root path = String.ofList (root.toList ++ '/' :: path.toList) := by
  have joined : Path.join root path = root ++ "/" ++ path := by
    simp [Path.join, relative, notEmpty, noSlash]
  rw [joined, ← String.toList_inj]
  simp

/-- A path joined to a root is looked up by walking on from where the root leads. -/
theorem exists_locate_join (located : tree.locate base root = .ok place)
    (relative : path.toList.head? ≠ some '/') (noNul : '\x00' ∉ path.toList) :
    ∃ left, tree.locate base (Path.join root path) = tree.walk true left place (namesOf path) := by
  unfold locate at located
  split at located
  · contradiction
  rename_i rootNoNul
  split at located
  · contradiction
  rename_i notEmpty
  rw [List.contains_iff_mem] at rootNoNul
  -- a slash at the end of the root gives an empty name, which leads nowhere
  obtain ⟨front, joined, walked, isRoot⟩ : ∃ front,
      Path.join root path = String.ofList (front ++ '/' :: path.toList) ∧
      tree.walk true linkLimit (if isAbsolute root then [] else base)
        (namesOf (String.ofList front)) = .ok place ∧
      (root.toList = front ++ ['/'] ∨ root.toList = front) := by
    by_cases slash : root.toList.getLast? = some '/'
    · obtain ⟨front, whole⟩ := List.getLast?_eq_some_iff.mp slash
      refine ⟨front, join_eq_of_slash relative whole, ?_, .inl whole⟩
      have cut := namesOf_append_slash front ""
      rw [String.toList_empty, ← whole, String.ofList_toList] at cut
      rw [cut] at located
      exact walk_of_walk_concat_empty located
    · refine ⟨root.toList, join_eq_of_no_slash relative notEmpty slash, ?_, .inr rfl⟩
      rwa [String.ofList_toList]
  have absolute : isAbsolute (Path.join root path) = isAbsolute root := by
    rw [isAbsolute, isAbsolute, joined, String.toList_ofList]
    rcases isRoot with whole | whole
    · cases front <;> simp [whole]
    · cases front with
      | nil => exact absurd (String.toList_eq_nil_iff.mp whole) notEmpty
      | cons c front => simp [whole]
  have safe : ¬ (Path.join root path).toList.contains '\x00' = true := by
    rw [joined, String.toList_ofList, List.contains_iff_mem]
    rcases isRoot with whole | whole <;> simp_all
  have notEmptyToo : Path.join root path ≠ "" := by
    intro empty
    rw [empty] at joined
    simpa using congrArg String.toList joined
  rw [locate, if_neg safe, if_neg notEmptyToo, absolute, joined, namesOf_append_slash]
  exact exists_walk_append walked

end Join

section Down

/-- What an entry is below is a directory. -/
theorem isDirectory_above (h : (tree.entry? (place ++ names)).isSome) (below : names ≠ []) :
    tree.isDirectory place = true := by
  induction names using List.reverseRecOn with
  | nil => contradiction
  | append_singleton above name ih =>
    rw [← List.append_assoc, entry?, if_neg (by simp)] at h
    have directory : tree.entry? (place ++ above) = some .directory := by
      by_cases top : place ++ above = []
      · rw [ entry?, if_pos top]
      · rw [ entry?, if_neg top]
        exact tree.parentIsDirectory _ name top h
    by_cases here : above = []
    · rw [here, List.append_nil] at directory
      exact isDirectory_iff.mpr directory
    · exact ih (by rw [directory]; rfl) here

/-- A walk along the names down to a file or a directory goes on from there. -/
theorem walk_down_append {entry : Entry} (isDirectory : tree.isDirectory place = true)
    (found : tree.entry? (place ++ names) = some entry) (notLink : ∀ target, entry ≠ .link target)
    (valid : ∀ name ∈ names, IsFileName name) (links : Nat) (more : List String) :
    tree.walk true links place (names ++ more) = tree.walk true links (place ++ names) more := by
  induction names generalizing place with
  | nil => rw [List.nil_append, List.append_nil]
  | cons name rest ih =>
    have looksUp := (valid name List.mem_cons_self).looksUp isDirectory
    have later : ∀ other ∈ rest, IsFileName other :=
      fun other listed => valid other (List.mem_cons_of_mem name listed)
    have whole : place ++ name :: rest = place ++ [name] ++ rest := by simp
    rw [whole] at found ⊢
    rw [List.cons_append]
    by_cases last : rest = []
    · subst last
      rw [List.append_nil] at found ⊢
      rw [looksUp.walk_entry found notLink, List.nil_append]
    · have directory := isDirectory_above (by rw [found]; rfl) last
      rw [looksUp.walk_entry (isDirectory_iff.mp directory) (by simp)]
      exact ih directory found later

/-- The names down to a file lead to it. -/
theorem walk_down {bytes : ByteArray} (isDirectory : tree.isDirectory place = true)
    (file : tree.entry? (place ++ names) = some (.file bytes))
    (valid : ∀ name ∈ names, IsFileName name) :
    tree.walk true links place names = .ok (place ++ names) := by
  have down := walk_down_append isDirectory file (by simp) valid links []
  rwa [List.append_nil, walk] at down

end Down

section Ends

/-- Something stands at the place, and it is no link. -/
def Stands (tree : FileTree) (place : Place) : Prop :=
  ∃ entry, tree.entry? place = some entry ∧ ∀ target, entry ≠ .link target

/-- A directory stands at its place. -/
theorem stands_of_isDirectory (isDirectory : tree.isDirectory place = true) : tree.Stands place :=
  ⟨.directory, isDirectory_iff.mp isDirectory, by simp⟩

/-- The place above a directory is a directory. -/
theorem isDirectory_parent (isDirectory : tree.isDirectory place = true) :
    tree.isDirectory place.parent = true := by
  rcases List.eq_nil_or_concat place with rfl | ⟨front, last, rfl⟩
  · exact isDirectory
  · rw [List.concat_eq_append] at isDirectory ⊢
    rw [Place.parent, List.dropLast_concat]
    refine isDirectory_above ?_ (List.cons_ne_nil last [])
    rw [isDirectory_iff.mp isDirectory]
    rfl

/-- Where a walk ends something stands, since links are followed to their ends. -/
theorem stands_of_walk (h : tree.walk true links start names = .ok place)
    (starts : names = [] → tree.Stands start) : tree.Stands place := by
  fun_induction walk tree true links start names with
  | case1 links here =>
    obtain rfl := Except.ok.inj h
    exact starts rfl
  | case2 links here name rest inside stay ih =>
    exact ih h fun _ => stands_of_isDirectory inside
  | case3 links here rest inside notStay ih =>
    exact ih h fun _ => stands_of_isDirectory (isDirectory_parent inside)
  | case4 | case5 | case7 | case10 => contradiction
  | case6 links here name rest inside notStay notUp short target found last =>
    simp at last
  | case8 here name rest inside notStay notUp short target found notLast links ih =>
    refine ih h fun noNames => ?_
    simp [namesOf, pieces_ne_nil] at noNames
  | case9 links here name rest inside notStay notUp short entry notLink found ih =>
    exact ih h fun _ => ⟨entry, found, notLink⟩

/-- Something stands where a path leads. -/
theorem stands_of_locate {path : String} (located : tree.locate base path = .ok place) :
    tree.Stands place := by
  unfold locate at located
  split at located
  · contradiction
  · split at located
    · contradiction
    · refine stands_of_walk located fun noNames => ?_
      simp [namesOf, pieces_ne_nil] at noNames

/-- In a tree of file names the names to what stands there are such names. -/
theorem HasFileNames.isFileName (valid : tree.HasFileNames []) (stands : tree.Stands place) :
    ∀ name ∈ place, IsFileName name := by
  obtain ⟨entry, found, -⟩ := stands
  intro name inside
  rw [ entry?, if_neg (List.ne_nil_of_mem inside)] at found
  exact valid _ (Catalog.get?_eq_some_iff.mp found) List.nil_prefix name inside

end Ends

section Straight

/-- Where a name leads from a place when nothing is a link. -/
def step (place : Place) (name : String) : Place :=
  if name = "" ∨ name = "." then place
  else if name = ".." then place.parent
  else place ++ [name]

/-- Without links the names alone say where a walk ends. -/
theorem walk_eq_foldl (noLinks : tree.HasNoLinks)
    (h : tree.walk true links start names = .ok place) : place = names.foldl step start := by
  fun_induction walk tree true links start names with
  | case1 links here => exact (Except.ok.inj h).symm
  | case2 links here name rest inside stay ih =>
    rw [List.foldl_cons, step, if_pos stay]
    exact ih h
  | case3 links here rest inside notStay ih =>
    rw [List.foldl_cons, step, if_neg notStay, if_pos rfl]
    exact ih h
  | case4 | case5 | case7 | case10 => contradiction
  | case6 links here name rest inside notStay notUp short target found last =>
    simp at last
  | case8 here name rest inside notStay notUp short target found notLast links ih =>
    rw [ entry?, if_neg (by simp)] at found
    exact absurd rfl (noLinks _ (Catalog.get?_eq_some_iff.mp found) target)
  | case9 links here name rest inside notStay notUp short entry notLink found ih =>
    rw [List.foldl_cons, step, if_neg notStay, if_neg notUp]
    exact ih h

/-- Below its first names, a walk ends at names that were walked along. -/
theorem mem_of_mem_drop_foldl {n : Nat} {name : String}
    (h : name ∈ (names.foldl step start).drop n) : name ∈ start.drop n ∨ name ∈ names := by
  induction names generalizing start with
  | nil => exact .inl h
  | cons first rest ih =>
    rcases ih h with before | later
    · have moved : name ∈ start.drop n ∨ name = first := by
        unfold step at before
        split at before
        · exact .inl before
        · split at before
          · rw [Place.parent, ← List.dropLast_drop_eq_drop_dropLast] at before
            exact .inl (List.mem_of_mem_dropLast before)
          · rw [List.drop_append] at before
            rcases List.mem_append.mp before with before | new
            · exact .inl before
            · exact .inr (List.mem_singleton.mp (List.mem_of_mem_drop new))
      rcases moved with before | rfl
      · exact .inl before
      · exact .inr List.mem_cons_self
    · exact .inr (List.mem_cons_of_mem first later)

end Straight

end FileTree

end TerraDeps
