import TerraDeps.ModuleReference
import TerraDeps.Proofs.Traversal

/-!
# References after overrides

Overrides are collected from all files and then applied one after the other, each to the first
reference it is meant for. What comes out is said here for each reference alone: it is the one that
its block makes, and only if it is the first of its name in its directory do overrides change it,
each argument to the last value that one of them gives. The order of regular files against override
files says nothing.
-/

set_option autoImplicit false

namespace TerraDeps

namespace ModuleReference

/-- A module block with the file where it stands. -/
structure PlacedBlock where
  path : String
  block : ModuleBlock

/-- The blocks of the files, in order; a file that cannot be read has none. -/
def blocksIn (snapshot : Snapshot) (paths : List String) : List PlacedBlock :=
  paths.flatMap fun path =>
    match (snapshot.get? path).map (blocksOf path) with
    | some (.ok blocks) => blocks.map fun block => ⟨path, block⟩
    | _ => []

/-- The blocks of the files that make references. -/
def bases (snapshot : Snapshot) (paths : List String) : List PlacedBlock :=
  blocksIn snapshot (paths.filter fun path => !isOverride path)

/-- The blocks of the override files. -/
def overrides (snapshot : Snapshot) (paths : List String) : List Override :=
  (blocksIn snapshot (paths.filter isOverride)).map fun b => ⟨Path.parentDir b.path, b.block⟩

/-- The last value that overrides for a name in a directory give an argument. -/
def lastGiven (argument : ModuleBlock → Option String) (overrides : List Override)
    (name directory : String) : Option String :=
  (overrides.filterMap fun o =>
    if o.block.name = name ∧ o.directory = directory then argument o.block else none).getLast?

/-- Before position `i` no reference has the name and the directory of `r`. -/
def IsFirst (references : List ModuleReference) (i : ℕ) (r : ModuleReference) : Prop :=
  ∀ other ∈ references.take i, ¬ (other.name = r.name ∧ other.directory = r.directory)

instance (references : List ModuleReference) (i : ℕ) (r : ModuleReference) :
    Decidable (IsFirst references i r) :=
  inferInstanceAs (Decidable (∀ other ∈ references.take i, _))

/-- The reference at position `i` is the one that a block makes, with the last values that the
overrides give if it is the first of its name in its directory. -/
structure IsMerged (references : List ModuleReference) (overrides : List Override) (i : ℕ)
    (b : PlacedBlock) (r : ModuleReference) : Prop where
  name : r.name = b.block.name
  file : r.file = b.path
  line : r.line = b.block.line
  source : some r.source =
    (if IsFirst references i r then lastGiven ModuleBlock.source overrides r.name r.directory
      else none).or b.block.source
  version : r.version =
    (if IsFirst references i r then lastGiven ModuleBlock.version overrides r.name r.directory
      else none).or b.block.version

section Overriding

variable {rs : List ModuleReference} {r : ModuleReference} {o : Override} {i : ℕ}

/-- An override is for the references of its name in its directory. -/
theorem isTarget_iff :
    isTarget o r = true ↔ o.block.name = r.name ∧ o.directory = r.directory := by
  simp only [isTarget, Bool.and_eq_true, decide_eq_true_eq]
  exact and_congr eq_comm eq_comm

/-- An override changes the reference that it is meant for, if no earlier one is. -/
theorem getElem?_applyOverride (o : Override) (rs : List ModuleReference) (i : ℕ) :
    (applyOverride o rs)[i]? = rs[i]?.map fun r =>
      if IsFirst rs i r ∧ isTarget o r then r.overriddenBy o.block else r := by
  have stepwise : (applyOverride o rs)[i]? = rs[i]?.map fun r =>
      if (∀ other ∈ rs.take i, isTarget o other = false) ∧ isTarget o r then
        r.overriddenBy o.block
      else r := by
    induction rs generalizing i with
    | nil => rfl
    | cons first rest ih =>
      rw [applyOverride]
      cases targeted : isTarget o first <;> cases i <;> simp [targeted, ih]
  have sameTarget (r other : ModuleReference) (meant : isTarget o r = true) :
      isTarget o other = false ↔ ¬ (other.name = r.name ∧ other.directory = r.directory) := by
    obtain ⟨name, directory⟩ := isTarget_iff.mp meant
    rw [← Bool.not_eq_true, isTarget_iff, name, directory]
    exact not_congr (and_congr eq_comm eq_comm)
  rw [stepwise]
  refine congrArg rs[i]?.map (funext fun r => if_congr ?_ rfl rfl)
  refine and_congr_left fun meant => forall₂_congr fun other _ => ?_
  exact sameTarget r other meant

/-- An override changes no name and no directory. -/
theorem map_applyOverride (o : Override) (rs : List ModuleReference) :
    (applyOverride o rs).map (fun r => (r.name, r.directory)) =
      rs.map fun r => (r.name, r.directory) := by
  induction rs with
  | nil => rfl
  | cons first rest ih =>
    rw [applyOverride]
    split
    · rfl
    · rw [List.map_cons, ih, List.map_cons]

/-- A reference is the first of its name in its directory if neither stands earlier together. -/
theorem isFirst_iff : IsFirst rs i r ↔
    (r.name, r.directory) ∉ (rs.map fun r => (r.name, r.directory)).take i := by
  rw [← List.map_take, List.mem_map]
  simp only [IsFirst, Prod.mk.injEq, not_exists, not_and]

/-- Overrides do not change which references are the first of their name. -/
theorem isFirst_applyOverride : IsFirst (applyOverride o rs) i r ↔ IsFirst rs i r := by
  rw [isFirst_iff, isFirst_iff, map_applyOverride]

/-- Overrides do not change which references are the first of their names. -/
theorem isFirst_foldl_applyOverride {os : List Override} :
    IsFirst (os.foldl (fun rs o => applyOverride o rs) rs) i r ↔ IsFirst rs i r := by
  induction os generalizing rs with
  | nil => rfl
  | cons o os ih => rw [List.foldl_cons, ih, isFirst_applyOverride]

/-- Overrides neither add references nor take any away. -/
theorem length_foldl_applyOverride (os : List Override) (rs : List ModuleReference) :
    (os.foldl (fun rs o => applyOverride o rs) rs).length = rs.length := by
  induction os generalizing rs with
  | nil => rfl
  | cons o os ih =>
    have same := congrArg List.length (map_applyOverride o rs)
    rw [List.length_map, List.length_map] at same
    rw [List.foldl_cons, ih, same]

/-- The first override gives the last value if no later one gives any. -/
theorem lastGiven_cons (argument : ModuleBlock → Option String) (o : Override)
    (os : List Override) (name directory : String) :
    lastGiven argument (o :: os) name directory = (lastGiven argument os name directory).or
      (if o.block.name = name ∧ o.directory = directory then argument o.block else none) := by
  rw [lastGiven, List.filterMap_cons]
  cases given : (if o.block.name = name ∧ o.directory = directory then argument o.block
    else none) with
  | none => rw [Option.or_none, lastGiven]
  | some value =>
    rw [List.getLast?_cons, lastGiven]
    cases List.getLast? _ <;> rfl

/-- The reference with the last values that the overrides give for its name and directory. -/
def withLast (overrides : List Override) (r : ModuleReference) : ModuleReference :=
  { r with
    source := (lastGiven ModuleBlock.source overrides r.name r.directory).getD r.source
    version := (lastGiven ModuleBlock.version overrides r.name r.directory).or r.version }

/-- Without overrides a reference stays as it is. -/
theorem withLast_nil (r : ModuleReference) : r.withLast [] = r := rfl

/-- The last values of overrides are those of the later ones over that of the first. -/
theorem withLast_cons (o : Override) (os : List Override) (r : ModuleReference) :
    r.withLast (o :: os) = (if isTarget o r then r.overriddenBy o.block else r).withLast os := by
  by_cases meant : isTarget o r = true
  · have given := isTarget_iff.mp meant
    simp [withLast, lastGiven_cons, given, meant, overriddenBy, directory, Option.or_assoc]
  · have notGiven : ¬ (o.block.name = r.name ∧ o.directory = r.directory) :=
      fun given => meant (isTarget_iff.mpr given)
    simp [withLast, lastGiven_cons, notGiven, meant]

/-- After all overrides, each reference that is the first of its name has the last values given. -/
theorem getElem?_foldl_applyOverride (os : List Override) (rs : List ModuleReference) (i : ℕ) :
    (os.foldl (fun rs o => applyOverride o rs) rs)[i]? = rs[i]?.map fun r =>
      if IsFirst rs i r then r.withLast os else r := by
  induction os generalizing rs with
  | nil => simp [withLast_nil]
  | cons o os ih =>
    rw [List.foldl_cons, ih, getElem?_applyOverride, Option.map_map]
    refine congrArg rs[i]?.map (funext fun r => ?_)
    simp only [Function.comp_apply, isFirst_applyOverride]
    by_cases first : IsFirst rs i r
    · -- an override keeps the name and the directory, so that the reference stays the first
      have still : IsFirst rs i (if isTarget o r then r.overriddenBy o.block else r) := by
        split <;> exact first
      simp only [first, true_and, still, if_true, withLast_cons]
    · simp only [first, false_and, if_false]

end Overriding

section Gathering

variable {snapshot : Snapshot} {path : String} {paths : List String} {c : Contribution}
  {contributions : List Contribution} {references : List ModuleReference}

/-- The reference is the one that the block makes. -/
def Makes (b : PlacedBlock) (r : ModuleReference) : Prop :=
  ofBlock b.path b.block = .ok r

/-- The blocks of files are those of the first file and then those of the others. -/
theorem blocksIn_cons {text : String} {blocks : List ModuleBlock}
    (stored : snapshot.get? path = some text) (read : blocksOf path text = .ok blocks) :
    blocksIn snapshot (path :: paths) =
      (blocks.map fun block => ⟨path, block⟩) ++ blocksIn snapshot paths := by
  simp only [blocksIn, List.flatMap_cons, stored, Option.map_some, read]

/-- A file that contributes was stored and read; then its name decides what its blocks are. -/
theorem exists_of_contribution (h : contribution snapshot path = .ok c) :
    ∃ text blocks, snapshot.get? path = some text ∧ blocksOf path text = .ok blocks ∧
      ((isOverride path = true ∧ c = ⟨[], blocks.map fun b => ⟨Path.parentDir path, b⟩⟩) ∨
        (isOverride path = false ∧ ∃ references, blocks.mapM (ofBlock path) = .ok references ∧
          c = ⟨references, []⟩)) := by
  unfold contribution at h
  split at h
  · contradiction
  rename_i text stored
  unfold contributionOf at h
  cases read : blocksOf path text with
  | error e => simp [read, Except.mapError] at h
  | ok blocks =>
    refine ⟨text, blocks, stored, read, ?_⟩
    simp only [read] at h
    cases kind : isOverride path with
    | true =>
      simp only [kind, if_true] at h
      exact .inl ⟨rfl, (Except.ok.inj h).symm⟩
    | false =>
      refine .inr ⟨rfl, ?_⟩
      simp only [kind, Bool.false_eq_true, if_false] at h
      cases made : blocks.mapM (ofBlock path) with
      | error e => simp [made, Except.map, Except.mapError] at h
      | ok references =>
        simp only [made, Except.map, Except.mapError, Except.ok.injEq] at h
        exact ⟨references, rfl, h.symm⟩

/-- What all files contribute, said of the regular files and of the override files apart. -/
theorem gathered
    (h : List.Forall₂ (fun path c => contribution snapshot path = .ok c) paths contributions) :
    List.Forall₂ Makes (bases snapshot paths) (contributions.flatMap Contribution.references) ∧
      contributions.flatMap Contribution.overrides = overrides snapshot paths := by
  -- each file adds to one of the two lists, by its name, and leaves the other as it is
  induction h with
  | nil => exact ⟨List.Forall₂.nil, rfl⟩
  | @cons path c paths contributions first _ ih =>
    obtain ⟨text, blocks, stored, read, kind⟩ := exists_of_contribution first
    obtain ⟨isOverride, rfl⟩ | ⟨isRegular, references, made, rfl⟩ := kind
    · have sameBases : bases snapshot (path :: paths) = bases snapshot paths := by
        rw [bases, List.filter_cons_of_neg (by simp [isOverride]), bases]
      have moreOverrides : overrides snapshot (path :: paths) =
          (blocks.map fun b => ⟨Path.parentDir path, b⟩) ++ overrides snapshot paths := by
        rw [overrides, List.filter_cons_of_pos isOverride, blocksIn_cons stored read,
          List.map_append, List.map_map, overrides]
        rfl
      rw [sameBases, moreOverrides, List.flatMap_cons, List.flatMap_cons, List.nil_append, ih.2]
      exact ⟨ih.1, rfl⟩
    · have moreBases : bases snapshot (path :: paths) =
          (blocks.map fun block => ⟨path, block⟩) ++ bases snapshot paths := by
        rw [bases, List.filter_cons_of_pos (by simp [isRegular]), blocksIn_cons stored read, bases]
      have sameOverrides : overrides snapshot (path :: paths) = overrides snapshot paths := by
        rw [overrides, List.filter_cons_of_neg (by simp [isRegular]), overrides]
      rw [moreBases, sameOverrides, List.flatMap_cons, List.flatMap_cons, List.nil_append, ih.2]
      refine ⟨List.rel_append ?_ ih.1, rfl⟩
      rw [List.forall₂_map_left_iff]
      exact mapM_eq_ok_iff.mp made

/-- Extraction succeeds when every file contributes something, and then merges the contributions. -/
theorem extract_eq_ok_iff : extract snapshot paths = .ok references ↔
    ∃ contributions,
      List.Forall₂ (fun path c => contribution snapshot path = .ok c) paths contributions ∧
        merge contributions = references := by
  simp only [← mapM_eq_ok_iff, extract]
  cases paths.mapM (contribution snapshot) <;> simp [Except.map]

/-- Every reference stands in one of the files. -/
theorem file_mem_of_extract {r : ModuleReference} (h : extract snapshot paths = .ok references)
    (found : r ∈ references) : r.file ∈ paths := by
  obtain ⟨contributions, contributed, rfl⟩ := extract_eq_ok_iff.mp h
  obtain ⟨made, -⟩ := gathered contributed
  -- overrides keep the file of a reference, which is that of the block it was made from
  obtain ⟨i, position⟩ := List.mem_iff_getElem?.mp found
  rw [merge, getElem?_foldl_applyOverride] at position
  obtain ⟨base, basic, overridden⟩ := Option.map_eq_some_iff.mp position
  have sameFile : r.file = base.file := by
    rw [← overridden]
    split <;> rfl
  obtain ⟨b, isBase, makes⟩ := exists_of_mem_right made (List.mem_of_getElem? basic)
  have inFile : base.file = b.path := by
    unfold Makes ofBlock at makes
    split at makes
    · rw [← Except.ok.inj makes]
    · contradiction
  obtain ⟨path, regular, inside⟩ := List.mem_flatMap.mp isBase
  rw [sameFile, inFile]
  split at inside
  · obtain ⟨block, -, rfl⟩ := List.mem_map.mp inside
    exact List.mem_of_mem_filter regular
  · contradiction

/-- A block makes one reference. -/
theorem makes_rightUnique : Relator.RightUnique Makes := by
  intro b r other made madeToo
  exact Except.ok.inj (made.symm.trans madeToo)

/-- Which references come out depends on the regular files and on the override files, each in their
order. -/
theorem extract_congr {others : List String} (h : extract snapshot paths = .ok references)
    (sameOverrides : others.filter isOverride = paths.filter isOverride)
    (sameRegular : others.filter (fun path => !isOverride path) =
      paths.filter fun path => !isOverride path) :
    extract snapshot others = .ok references := by
  obtain ⟨contributions, contributed, rfl⟩ := extract_eq_ok_iff.mp h
  -- the same files are listed, so that the other list succeeds too
  have listed : ∀ path ∈ others, path ∈ paths := by
    intro path isMember
    cases kind : isOverride path with
    | true =>
      have kept : path ∈ others.filter isOverride := List.mem_filter.mpr ⟨isMember, kind⟩
      rw [sameOverrides] at kept
      exact (List.mem_filter.mp kept).1
    | false =>
      have kept : path ∈ others.filter fun path => !isOverride path :=
        List.mem_filter.mpr ⟨isMember, by simp [kind]⟩
      rw [sameRegular] at kept
      exact (List.mem_filter.mp kept).1
  have succeeds := exists_forall₂_iff.mp ⟨contributions, contributed⟩
  obtain ⟨more, contributedToo⟩ := exists_forall₂_iff.mpr fun path isMember =>
    succeeds path (listed path isMember)
  obtain ⟨made, given⟩ := gathered contributed
  obtain ⟨madeToo, givenToo⟩ := gathered contributedToo
  rw [bases, sameRegular] at madeToo
  rw [overrides, sameOverrides] at givenToo
  refine extract_eq_ok_iff.mpr ⟨more, contributedToo, ?_⟩
  have sameReferences := List.right_unique_forall₂' makes_rightUnique madeToo made
  rw [merge, merge, givenToo, given, sameReferences, overrides]

/-- The reference that a block makes, with the last values that the overrides give, is as it should
be after all overrides. -/
theorem isMerged_foldl {b : PlacedBlock} {r : ModuleReference} {rs : List ModuleReference}
    {os : List Override} {i : ℕ} (made : Makes b r) (found : rs[i]? = some r) :
    ∃ merged, (os.foldl (fun rs o => applyOverride o rs) rs)[i]? = some merged ∧
      IsMerged (os.foldl (fun rs o => applyOverride o rs) rs) os i b merged := by
  have block : b.block.source = some r.source ∧ r.name = b.block.name ∧
      r.version = b.block.version ∧ r.file = b.path ∧ r.line = b.block.line := by
    unfold Makes ofBlock at made
    cases source : b.block.source with
    | none => simp [source] at made
    | some text =>
      simp only [source, Except.ok.injEq] at made
      simp [← made]
  obtain ⟨source, name, version, file, line⟩ := block
  refine ⟨if IsFirst rs i r then r.withLast os else r, ?_, ?_⟩
  · rw [getElem?_foldl_applyOverride, found, Option.map_some]
  -- Overrides keep names and directories, so being the first is the same before and after them.
  by_cases first : IsFirst rs i r
  · have still : IsFirst (os.foldl (fun rs o => applyOverride o rs) rs) i (r.withLast os) :=
      isFirst_foldl_applyOverride.mpr first
    rw [if_pos first]
    refine ⟨name, file, line, ?_, ?_⟩
    · rw [if_pos still, source, Option.or_some]
      rfl
    · rw [if_pos still, ← version]
      rfl
  · have stillNot : ¬ IsFirst (os.foldl (fun rs o => applyOverride o rs) rs) i r := fun later =>
      first (isFirst_foldl_applyOverride.mp later)
    rw [if_neg first]
    refine ⟨name, file, line, ?_, ?_⟩
    · rw [if_neg stillNot, source, Option.none_or]
    · rw [if_neg stillNot, ← version, Option.none_or]

end Gathering

/-- When extraction succeeds, every file was read, and there is one reference for each block of the
regular files, in order: the one that the block makes, with the last values that overrides give if
it is the first of its name in its directory. Any other list with the same regular files and the
same override files, each in their order, gives the same. -/
theorem extract_ok {snapshot : Snapshot} {paths : List String} {references : List ModuleReference}
    (h : extract snapshot paths = .ok references) :
    (∀ path ∈ paths, ∃ text blocks, snapshot.get? path = some text ∧
      blocksOf path text = .ok blocks) ∧
    references.length = (bases snapshot paths).length ∧
    (∀ i b, (bases snapshot paths)[i]? = some b → ∃ r, references[i]? = some r ∧
      IsMerged references (overrides snapshot paths) i b r) ∧
    ∀ others : List String, others.filter isOverride = paths.filter isOverride →
      (others.filter fun path => !isOverride path) = (paths.filter fun path => !isOverride path) →
      extract snapshot others = .ok references := by
  obtain ⟨contributions, contributed, rfl⟩ := extract_eq_ok_iff.mp h
  obtain ⟨made, given⟩ := gathered contributed
  refine ⟨?_, ?_, ?_, fun others => extract_congr h⟩
  · intro path isMember
    obtain ⟨c, contributes⟩ := exists_forall₂_iff.mp ⟨contributions, contributed⟩ path isMember
    obtain ⟨text, blocks, stored, read, -⟩ := exists_of_contribution contributes
    exact ⟨text, blocks, stored, read⟩
  · rw [merge, given, length_foldl_applyOverride, made.length_eq]
  · intro i b isBase
    obtain ⟨bound, rfl⟩ := List.getElem?_eq_some_iff.mp isBase
    have inBounds := made.length_eq ▸ bound
    rw [merge, given]
    exact isMerged_foldl (made.get bound inBounds) (List.getElem?_eq_getElem inBounds)

/-- The override file is listed first and gives a version only; its second block has no base. -/
theorem extract_ok_override :
    let snapshot := Snapshot.ofFiles [
      ("m/main.tf", "module \"net\" \x7b\n  source = \"../net\"\n  version = \"1\"\n\x7d\n"),
      ("m/override.tf", "module net \x7b\n version = \"2\"\n\x7d\nmodule gone \x7b\n\x7d\n")]
    let paths := ["m/override.tf", "m/main.tf"]
    let references : List ModuleReference := [⟨"net", "../net", some "2", "m/main.tf", 1⟩]
    extract snapshot paths = .ok references ∧
    (∀ path ∈ paths, ∃ text blocks, snapshot.get? path = some text ∧
      blocksOf path text = .ok blocks) ∧
    references.length = (bases snapshot paths).length ∧
    (∀ i b, (bases snapshot paths)[i]? = some b → ∃ r, references[i]? = some r ∧
      IsMerged references (overrides snapshot paths) i b r) ∧
    ∀ others : List String, others.filter isOverride = paths.filter isOverride →
      (others.filter fun path => !isOverride path) = (paths.filter fun path => !isOverride path) →
      extract snapshot others = .ok references := by
  intro snapshot paths references
  have extracted : extract snapshot paths = .ok references := by decide +kernel
  exact ⟨extracted, extract_ok extracted⟩

end ModuleReference

end TerraDeps
