import Mathlib.Data.List.Infix
import TerraDeps.ModuleSource

/-!
# The grammar of module sources

A source is classified by a row of tests, the first of which that holds decides. The tests overlap:
a relative path can hold `::`, and what a known host serves looks like registry coordinates. Here
local sources and registry sources are each said by one condition on the trimmed text, which no
order of tests enters into (`IsLocalText`, `IsRegistryText`), and the tests are shown to come to the
same.
-/

set_option autoImplicit false

namespace TerraDeps

open Text

/-- `front` is what stands in the text before the first occurrence of `a` and `b` in a row, or the
whole text if they do not occur. -/
def Text.IsBeforePair (a b : Char) (front s : List Char) : Prop :=
  (¬ [a, b] <:+: s ∧ front = s) ∨
    ∃ after, s = front ++ a :: b :: after ∧ ¬ [a, b] <:+: front ++ [a]

namespace ModuleSource

/-- A character that a segment of registry coordinates may hold. -/
def IsCoordinateChar (c : Char) : Prop :=
  ('A' ≤ c ∧ c ≤ 'Z') ∨ ('a' ≤ c ∧ c ≤ 'z') ∨ ('0' ≤ c ∧ c ≤ '9') ∨ c = '-' ∨ c = '_' ∨ c = '.'

/-- A segment of registry coordinates. -/
def IsCoordinateText (segment : List Char) : Prop :=
  segment ≠ [] ∧ ∀ c ∈ segment, IsCoordinateChar c

/-- Registry coordinates: `namespace/name/provider`, which a host with a dot in it may precede. -/
inductive IsCoordinates : List Char → Prop where
  | unhosted {ns name provider : List Char}
      (segments : ∀ segment ∈ [ns, name, provider], IsCoordinateText segment) :
      IsCoordinates (['/'].intercalate [ns, name, provider])
  | hosted {host ns name provider : List Char}
      (segments : ∀ segment ∈ [host, ns, name, provider], IsCoordinateText segment)
      (dot : '.' ∈ host) :
      IsCoordinates (['/'].intercalate [host, ns, name, provider])

/-- The text starts as relative paths do. -/
def StartsRelative (s : List Char) : Prop :=
  "./".toList <+: s ∨ "../".toList <+: s

/-- The text of a local source. -/
structure IsLocalText (s : List Char) : Prop where
  relative : StartsRelative s
  noMethod : ¬ "::".toList <:+: s
  noScheme : ¬ "://".toList <:+: s
  noQuery : '?' ∉ s

/-- The text of a registry source. -/
structure IsRegistryText (s : List Char) : Prop where
  notRelative : ¬ StartsRelative s
  noMethod : ¬ "::".toList <:+: s
  noScheme : ¬ "://".toList <:+: s
  notGithub : ¬ "github.com/".toList <+: s
  notBitbucket : ¬ "bitbucket.org/".toList <+: s
  notGit : ¬ "git@".toList <+: s
  coordinates : ∃ front, IsBeforePair '/' '/' front s ∧ IsCoordinates front

/-! ## The tests of single forms -/

section Pairs

variable {a b c : Char} {front s : List Char}

/-- A text starts with two characters if it starts with the first and its rest with the second. -/
theorem pair_prefix_cons_iff : [a, b] <+: c :: s ↔ c = a ∧ s.head? = some b := by
  cases s with
  | nil => simp
  | cons d s => simp [eq_comm]

/-- Nothing stands before a pair in the empty text. -/
theorem isBeforePair_nil_iff : IsBeforePair a b front [] ↔ front = [] := by
  constructor
  · rintro (⟨-, whole⟩ | ⟨after, cut, -⟩)
    · exact whole
    · simp at cut
  · rintro rfl
    exact .inl ⟨by simp, rfl⟩

/-- Nothing stands before a pair at the start. -/
theorem isBeforePair_pair_iff : IsBeforePair a b front (a :: b :: s) ↔ front = [] := by
  constructor
  · rintro (⟨noPair, -⟩ | ⟨after, cut, first⟩)
    · exact absurd ⟨[], s, rfl⟩ noPair
    · cases front with
      | nil => rfl
      | cons d front =>
        obtain ⟨rfl, rest⟩ := List.cons.inj cut
        refine absurd (List.IsPrefix.isInfix ?_) first
        refine pair_prefix_cons_iff.mpr ⟨rfl, ?_⟩
        cases front with
        | nil => exact congrArg List.head? rest.symm
        | cons e front => exact congrArg List.head? rest.symm
  · rintro rfl
    exact .inr ⟨s, rfl, fun inside => by simpa using inside.length_le⟩

/-- A character at which no pair stands is before the first pair. -/
theorem isBeforePair_cons_iff (notHere : ¬ (c = a ∧ s.head? = some b)) :
    IsBeforePair a b front (c :: s) ↔
      ∃ before, front = c :: before ∧ IsBeforePair a b before s := by
  have later (l : List Char) (same : l.head? = s.head?) : [a, b] <:+: c :: l ↔ [a, b] <:+: l := by
    rw [List.infix_cons_iff, pair_prefix_cons_iff, same, or_iff_right notHere]
  constructor
  · rintro (⟨noPair, rfl⟩ | ⟨after, cut, first⟩)
    · exact ⟨s, rfl, .inl ⟨mt (later s rfl).mpr noPair, rfl⟩⟩
    · cases front with
      | nil =>
        obtain ⟨rfl, rfl⟩ := List.cons.inj cut
        exact absurd ⟨rfl, rfl⟩ notHere
      | cons d before =>
        obtain ⟨rfl, rfl⟩ := List.cons.inj cut
        refine ⟨before, rfl, .inr ⟨after, rfl, ?_⟩⟩
        exact mt (later (before ++ [a]) (by cases before <;> rfl)).mpr first
  · rintro ⟨before, rfl, ⟨noPair, rfl⟩ | ⟨after, rfl, first⟩⟩
    · exact .inl ⟨mt (later before rfl).mp noPair, rfl⟩
    · exact .inr ⟨after, rfl, mt (later (before ++ [a]) (by cases before <;> rfl)).mp first⟩

/-- The recursion stops exactly at the first occurrence of the pair. -/
theorem beforePair_eq_iff : beforePair a b s = front ↔ IsBeforePair a b front s := by
  induction s generalizing front with
  | nil => rw [isBeforePair_nil_iff, beforePair, eq_comm]
  | cons c rest ih =>
    rw [beforePair]
    split
    · rename_i here
      obtain ⟨rfl, next⟩ := here
      obtain ⟨after, rfl⟩ := List.head?_eq_some_iff.mp next
      rw [isBeforePair_pair_iff, eq_comm]
    · rename_i notHere
      rw [isBeforePair_cons_iff notHere]
      constructor
      · rintro rfl
        exact ⟨_, rfl, ih.mp rfl⟩
      · rintro ⟨before, rfl, isBefore⟩
        rw [ih.mpr isBefore]

end Pairs

/-- A text is taken for relative if it starts as relative paths do. -/
theorem isRelative_iff {s : List Char} : isRelative s = true ↔ StartsRelative s := by
  rw [isRelative, Bool.or_eq_true, List.isPrefixOf_iff_prefix, List.isPrefixOf_iff_prefix,
    StartsRelative]

/-- A segment is taken for one of coordinates if it is not empty and has their characters only. -/
theorem isCoordinate_iff {segment : List Char} :
    isCoordinate segment = true ↔ IsCoordinateText segment := by
  have chars (c : Char) : (c.isAlphanum || c == '-' || c == '_' || c == '.') = true ↔
      IsCoordinateChar c := by
    have classes : c.isAlphanum = ((decide (c.val ≥ 'A'.val ∧ c.val ≤ 'Z'.val) ||
        (decide (c.val ≥ 'a'.val) && decide (c.val ≤ 'z'.val))) ||
        (decide (c.val ≥ '0'.val) && decide (c.val ≤ '9'.val))) := rfl
    simp only [classes, Bool.or_eq_true, Bool.and_eq_true, decide_eq_true_eq, beq_iff_eq, or_assoc]
    rfl
  simp [isCoordinate, IsCoordinateText, List.all_eq_true, chars]

/-- A segment of coordinates has no slash. -/
theorem slash_not_mem {segment : List Char} (h : IsCoordinateText segment) :
    ∀ c ∈ segment, (c == '/') = false := by
  intro c inside
  rw [beq_eq_false_iff_ne]
  rintro rfl
  have isChar := h.2 '/' inside
  revert isChar
  unfold IsCoordinateChar
  decide

/-- Three or four segments between slashes are looked for in what stands before the first `//`. -/
theorem isRegistryAddress_iff {s : List Char} :
    isRegistryAddress s = true ↔ ∃ front, IsBeforePair '/' '/' front s ∧ IsCoordinates front := by
  have pieces_joined (segments : List (List Char)) (notEmpty : segments ≠ [])
      (texts : ∀ segment ∈ segments, IsCoordinateText segment) :
      pieces (· == '/') (['/'].intercalate segments) = segments :=
    pieces_intercalate rfl (fun p listed => slash_not_mem (texts p listed)) notEmpty
  constructor
  · intro h
    refine ⟨beforePair '/' '/' s, beforePair_eq_iff.mp rfl, ?_⟩
    rw [← intercalate_pieces '/' (beforePair '/' '/' s)]
    unfold isRegistryAddress at h
    split at h
    · rename_i ns name provider cut
      rw [cut]
      refine .unhosted fun segment listed => isCoordinate_iff.mp ?_
      exact List.all_eq_true.mp h segment listed
    · rename_i host ns name provider cut
      rw [cut]
      obtain ⟨all, dot⟩ := Bool.and_eq_true_iff.mp h
      refine .hosted (fun segment listed => isCoordinate_iff.mp ?_) (List.contains_iff_mem.mp dot)
      exact List.all_eq_true.mp all segment listed
    · contradiction
  · rintro ⟨front, isBefore, coordinates⟩
    rw [isRegistryAddress, beforePair_eq_iff.mpr isBefore]
    cases coordinates with
    | unhosted segments =>
      rw [pieces_joined _ (List.cons_ne_nil _ _) segments]
      exact List.all_eq_true.mpr fun segment listed =>
        isCoordinate_iff.mpr (segments segment listed)
    | hosted segments dot =>
      rw [pieces_joined _ (List.cons_ne_nil _ _) segments]
      refine Bool.and_eq_true_iff.mpr ⟨?_, List.contains_iff_mem.mpr dot⟩
      exact List.all_eq_true.mpr fun segment listed =>
        isCoordinate_iff.mpr (segments segment listed)

/-- The hosts that a text may start with are three. -/
theorem any_getterHosts_iff {s : List Char} :
    getterHosts.any (fun host => host.toList.isPrefixOf s) = true ↔
      "github.com/".toList <+: s ∨ "bitbucket.org/".toList <+: s ∨ "git@".toList <+: s := by
  simp only [getterHosts, List.any_cons, List.any_nil, Bool.or_false, Bool.or_eq_true,
    List.isPrefixOf_iff_prefix]

/-! ## The tests in a row -/

section Classify

variable {source : String} {version : Option String}

/-- A source is local if its trimmed text is that of a local source and no version is given. -/
theorem classify_eq_localPath_iff {path : String} : classify source version = .localPath path ↔
    path = trim source ∧ IsLocalText (trim source).toList ∧ version = none := by
  simp only [classify]
  generalize trim source = text
  split
  · rename_i method
    exact iff_of_false nofun fun h => h.2.1.noMethod (occurs_iff.mp method)
  split
  · rename_i scheme
    exact iff_of_false nofun fun h => h.2.1.noScheme (occurs_iff.mp scheme)
  rename_i noMethod noScheme
  split
  · rename_i relative
    split
    · rename_i given
      refine iff_of_false nofun fun h => ?_
      rw [h.2.2] at given
      exact Bool.noConfusion given
    split
    · rename_i query
      exact iff_of_false nofun fun h => h.2.1.noQuery (List.contains_iff_mem.mp query)
    rename_i noVersion noQuery
    rw [localPath.injEq, eq_comm, and_iff_left]
    exact ⟨⟨isRelative_iff.mp relative, mt occurs_iff.mpr noMethod, mt occurs_iff.mpr noScheme,
      mt List.contains_iff_mem.mpr noQuery⟩, Option.not_isSome_iff_eq_none.mp noVersion⟩
  · rename_i notRelative
    refine iff_of_false ?_ fun h => notRelative (isRelative_iff.mpr h.2.1.relative)
    split
    · nofun
    split <;> nofun

/-- A source is one of a registry if its trimmed text is that of a registry source. -/
theorem classify_eq_registry_iff :
    classify source version = .remote .registry ↔ IsRegistryText (trim source).toList := by
  simp only [classify]
  generalize trim source = text
  -- The tests of `classify`, in its order; each that succeeds excludes a registry source.
  split
  · rename_i method
    refine iff_of_false ?_ fun h => h.noMethod (occurs_iff.mp method)
    split <;> nofun
  split
  · rename_i scheme
    exact iff_of_false nofun fun h => h.noScheme (occurs_iff.mp scheme)
  rename_i noMethod noScheme
  split
  · rename_i relative
    refine iff_of_false ?_ fun h => h.notRelative (isRelative_iff.mp relative)
    split
    · nofun
    split <;> nofun
  rename_i notRelative
  split
  · rename_i hosted
    refine iff_of_false nofun fun h => ?_
    rcases any_getterHosts_iff.mp hosted with github | bitbucket | git
    · exact h.notGithub github
    · exact h.notBitbucket bitbucket
    · exact h.notGit git
  rename_i notHosted
  obtain ⟨notGithub, notBitbucket, notGit⟩ := by
    simpa only [not_or] using mt any_getterHosts_iff.mpr notHosted
  split
  · rename_i registry
    refine iff_of_true rfl ⟨mt isRelative_iff.mpr notRelative, mt occurs_iff.mpr noMethod,
      mt occurs_iff.mpr noScheme, notGithub, notBitbucket, notGit, ?_⟩
    exact isRegistryAddress_iff.mp registry
  · rename_i other
    exact iff_of_false nofun fun h => other (isRegistryAddress_iff.mpr h.coordinates)

end Classify

/-- What a source refers to is read off its trimmed text: a relative path without a fetch method, a
scheme or a query is local where no version is given, and registry coordinates in front of the first
`//` are a registry source, unless the text starts as a relative path or with a known host, or names
a method or a scheme. With a version nothing is local, and a local path is classified as itself. -/
theorem classify_spec (source : String) (version : Option String) :
    (∀ path, classify source version = .localPath path ↔
      path = trim source ∧ IsLocalText (trim source).toList ∧ version = none) ∧
    (classify source version = .remote .registry ↔ IsRegistryText (trim source).toList) ∧
    (∀ given, (classify source (some given)).isLocal = false) ∧
    ∀ path, classify source version = .localPath path → classify path none = .localPath path := by
  refine ⟨fun _ => classify_eq_localPath_iff, classify_eq_registry_iff, fun given => ?_,
    fun path isLocal => ?_⟩
  · cases found : classify source (some given) with
    | localPath path =>
      have noVersion := (classify_eq_localPath_iff.mp found).2.2
      contradiction
    | remote kind => rfl
  · obtain ⟨rfl, isLocal, -⟩ := classify_eq_localPath_iff.mp isLocal
    rw [classify_eq_localPath_iff, trim_trim]
    exact ⟨rfl, isLocal, rfl⟩

end ModuleSource

end TerraDeps
