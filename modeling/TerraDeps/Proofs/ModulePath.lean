import Mathlib.Data.List.Infix
import TerraDeps.ModulePath

/-!
# Where a relative path leads

Resolution keeps a stack of the directories it is in. What it finds is said here of the names of
both paths in a row and of no stack: a stretch of names climbs when more of them are `..` than are
not. The path escapes exactly when a stretch at the very start climbs, and otherwise leads down
through the names that no climbing stretch follows directly. The text of the directory it leads to
gives back the same names.
-/

set_option autoImplicit false

namespace TerraDeps

open Text

/-- The name that a step is written as. -/
def PathStep.name : PathStep → String
  | up => ".."
  | down segment => segment.name

namespace ModulePath

/-- The names in a path: what stands between slashes of either kind and is neither empty nor `.`. -/
def namesOf (path : String) : List String :=
  ((pieces isSeparator path.toList).map String.ofList).filter fun name => name ≠ "" ∧ name ≠ "."

/-- More of the names are `..` than are not. -/
def Climbs (stretch : List String) : Prop :=
  stretch.countP (· ≠ "..") < stretch.count ".."

instance (stretch : List String) : Decidable (Climbs stretch) :=
  inferInstanceAs (Decidable (_ < _))

/-- Some stretch at the start of the names climbs. -/
def ClimbsOut (names : List String) : Prop :=
  ∃ start, start <+: names ∧ Climbs start

instance (names : List String) : Decidable (ClimbsOut names) :=
  decidable_of_iff (∃ start ∈ names.inits, Climbs start) (by simp [ClimbsOut])

/-- The names of directories that no stretch right after them climbs out of, in order. -/
def survivors : List String → List String
  | [] => []
  | name :: rest =>
    if name ≠ ".." ∧ ¬ ClimbsOut rest then name :: survivors rest else survivors rest

/-- The text is that of a directory: with `/` between names and nowhere else, no name being one that
stands for no directory. -/
structure IsCanonical (text : String) : Prop where
  names : text ≠ "" → ∀ name ∈ pieces (· == '/') text.toList,
    name ≠ [] ∧ name ≠ ['.'] ∧ name ≠ ['.', '.']
  noBackslash : '\\' ∉ text.toList
  noSlashFirst : text.toList.head? ≠ some '/'
  noSlashLast : text.toList.getLast? ≠ some '/'

section Climbing

variable {name : String} {front rest start names : List String}

/-- A directory that is entered and left again at once does not count. -/
theorem climbs_cancel (h : name ≠ "..") :
    Climbs (front ++ name :: ".." :: rest) ↔ Climbs (front ++ rest) := by
  simp only [Climbs, List.countP_append, List.count_append, List.countP_cons, List.count_cons,
    beq_iff_eq, decide_eq_true_eq, if_pos h, if_neg h]
  simp only [ne_eq, not_true_eq_false, if_true, if_false]
  omega

/-- A stretch that climbs still does so without a last name that is not `..`. -/
theorem climbs_of_climbs_concat (h : name ≠ "..") (climbs : Climbs (front ++ [name])) :
    Climbs front := by
  simp only [Climbs, List.countP_append, List.count_append, List.countP_singleton,
    List.count_singleton, beq_iff_eq, decide_eq_true_eq, if_pos h, if_neg h] at climbs ⊢
  omega

/-- Names other than `..` do not climb. -/
theorem not_climbs_of_forall_ne (h : ∀ name ∈ names, name ≠ "..") : ¬ Climbs names := by
  have noParent : names.count ".." = 0 := List.count_eq_zero.mpr fun isMember => h ".." isMember rfl
  rw [Climbs, noParent]
  exact Nat.not_lt_zero _

/-- A stretch at the start of two lists is one of the first list, or goes on into the second. -/
theorem prefix_append_cases (h : start <+: front ++ rest) :
    start <+: front ∨ ∃ more, more <+: rest ∧ start = front ++ more := by
  obtain within | ⟨more, rfl⟩ := List.prefix_or_prefix_of_prefix h (List.prefix_append front rest)
  · exact .inl within
  · exact .inr ⟨more, (List.prefix_append_right_inj front).mp h, rfl⟩

/-- Names other than `..` do not climb out. -/
theorem not_climbsOut_of_forall_ne (h : ∀ name ∈ names, name ≠ "..") : ¬ ClimbsOut names := by
  rintro ⟨start, isPrefix, climbs⟩
  exact not_climbs_of_forall_ne (fun name isMember => h name (isPrefix.mem isMember)) climbs

/-- A name and the `..` right after it do not matter for whether the names climb out. -/
theorem climbsOut_cancel (h : name ≠ "..") :
    ClimbsOut (front ++ name :: ".." :: rest) ↔ ClimbsOut (front ++ rest) := by
  constructor
  · rintro ⟨start, isPrefix, climbs⟩
    -- the stretch ends before the directory, between its name and the `..`, or after both
    obtain within | ⟨more, pair, rfl⟩ := prefix_append_cases isPrefix
    · exact ⟨start, within.trans (List.prefix_append front rest), climbs⟩
    obtain rfl | ⟨more, rfl, parent⟩ := List.prefix_cons_iff.mp pair
    · rw [List.append_nil] at climbs
      exact ⟨front, List.prefix_append front rest, climbs⟩
    obtain rfl | ⟨more, rfl, after⟩ := List.prefix_cons_iff.mp parent
    · exact ⟨front, List.prefix_append front rest, climbs_of_climbs_concat h climbs⟩
    · refine ⟨front ++ more, ?_, (climbs_cancel h).mp climbs⟩
      exact (List.prefix_append_right_inj front).mpr after
  · rintro ⟨start, isPrefix, climbs⟩
    obtain within | ⟨more, after, rfl⟩ := prefix_append_cases isPrefix
    · exact ⟨start, within.trans (List.prefix_append front _), climbs⟩
    · refine ⟨front ++ name :: ".." :: more, ?_, (climbs_cancel h).mpr climbs⟩
      rw [List.prefix_append_right_inj, List.prefix_cons_inj, List.prefix_cons_inj]
      exact after

/-- A directory that is entered and left again at once takes nothing with it. -/
theorem survivors_cancel (h : name ≠ "..") :
    survivors (front ++ name :: ".." :: rest) = survivors (front ++ rest) := by
  induction front with
  | nil =>
    have cancelled : ClimbsOut (".." :: rest) :=
      ⟨[".."], List.prefix_append [".."] rest, by decide⟩
    rw [List.nil_append, List.nil_append, survivors, if_neg fun kept => kept.2 cancelled, survivors,
      if_neg fun kept => kept.1 rfl]
  | cons first front ih =>
    simp only [List.cons_append, survivors, climbsOut_cancel h, ih]

/-- Names other than `..` all survive. -/
theorem survivors_of_forall_ne (h : ∀ name ∈ names, name ≠ "..") : survivors names = names := by
  induction names with
  | nil => rfl
  | cons name rest ih =>
    have later : ∀ name ∈ rest, name ≠ ".." := fun other isMember =>
      h other (List.mem_cons_of_mem name isMember)
    rw [survivors, if_pos ⟨h name List.mem_cons_self, not_climbsOut_of_forall_ne later⟩,
      ih later]

end Climbing

section Stack

/-- The names that lead from the root to the directory with the segments, innermost first. -/
def namesDown (stack : List Segment) : List String :=
  stack.reverse.map Segment.name

/-- The names down to a directory are other than `..`. -/
theorem ne_parent_of_mem_namesDown (stack : List Segment) :
    ∀ name ∈ namesDown stack, name ≠ ".." := by
  intro name isMember
  obtain ⟨segment, -, rfl⟩ := List.mem_map.mp isMember
  exact segment.isSegment.2.2.1

/-- Steps that are followed from a directory are judged by the names down to it and their own. -/
theorem follow?_eq (stack : List Segment) (steps : List PathStep) :
    (ClimbsOut (namesDown stack ++ steps.map PathStep.name) ∧ follow? stack steps = none) ∨
    (¬ ClimbsOut (namesDown stack ++ steps.map PathStep.name) ∧ ∃ found,
      follow? stack steps = some found ∧
        namesDown found = survivors (namesDown stack ++ steps.map PathStep.name)) := by
  -- a step down moves a name from the steps to the stack, and a step up takes a name from the stack
  -- that its own `..` cancels
  fun_induction follow? stack steps with
  | case1 stack =>
    have down := ne_parent_of_mem_namesDown stack
    rw [List.map_nil, List.append_nil]
    exact .inr ⟨not_climbsOut_of_forall_ne down, stack, rfl, (survivors_of_forall_ne down).symm⟩
  | case2 steps =>
    exact .inl ⟨⟨[".."], List.prefix_append [".."] _, by decide⟩, rfl⟩
  | case3 segment stack steps ih =>
    have isName : segment.name ≠ ".." := segment.isSegment.2.2.1
    have names : namesDown (segment :: stack) ++ (PathStep.up :: steps).map PathStep.name =
        namesDown stack ++ segment.name :: ".." :: steps.map PathStep.name := by
      simp [namesDown, PathStep.name]
    rw [names, climbsOut_cancel isName, survivors_cancel isName]
    exact ih
  | case4 stack segment steps ih =>
    have names : namesDown (segment :: stack) ++ steps.map PathStep.name =
        namesDown stack ++ (PathStep.down segment :: steps).map PathStep.name := by
      simp [namesDown, PathStep.name]
    rw [← names]
    exact ih

/-- Steps into directories put their segments on top of those that there are. -/
theorem follow?_map_down (stack segments : List Segment) :
    follow? stack (segments.map PathStep.down) = some (segments.reverse ++ stack) := by
  induction segments generalizing stack with
  | nil => rfl
  | cons segment segments ih =>
    rw [List.map_cons, follow?, ih, List.reverse_cons, List.append_assoc, List.singleton_append]

end Stack

section Text

variable {piece : List Char}

/-- What stands between slashes is a step exactly when it is a name. -/
theorem map_name_ofPiece? (h : ∀ c ∈ piece, isSeparator c = false) :
    (PathStep.ofPiece? piece).map PathStep.name =
      if String.ofList piece ≠ "" ∧ String.ofList piece ≠ "." then some (String.ofList piece)
      else none := by
  unfold PathStep.ofPiece?
  by_cases up : String.ofList piece = ".."
  · simp [up, PathStep.name]
  · by_cases isName : IsSegment (String.ofList piece)
    · simp [up, isName, PathStep.name, isName.1, isName.2.1]
    · have noName : ¬ (String.ofList piece ≠ "" ∧ String.ofList piece ≠ ".") := by
        rintro ⟨notEmpty, notDot⟩
        exact isName ⟨notEmpty, notDot, up, by simpa using h⟩
      rw [if_neg noName]
      simp [up, isName]

/-- The steps of a path are written as its names. -/
theorem map_name_pathSteps (path : String) :
    (pathSteps path).map PathStep.name = namesOf path := by
  have apart : ∀ piece ∈ pieces isSeparator path.toList, ∀ c ∈ piece, isSeparator c = false :=
    fun piece isMember => not_sep_of_mem_pieces isMember
  rw [pathSteps, namesOf]
  generalize pieces isSeparator path.toList = parts at apart
  induction parts with
  | nil => rfl
  | cons piece rest ih =>
    have first := map_name_ofPiece? (apart piece List.mem_cons_self)
    have later := ih fun other isMember => apart other (List.mem_cons_of_mem piece isMember)
    rw [List.map_cons, List.filter_cons, List.filterMap_cons]
    by_cases isName : String.ofList piece ≠ "" ∧ String.ofList piece ≠ "."
    · rw [if_pos isName, Option.map_eq_some_iff] at first
      obtain ⟨step, found, named⟩ := first
      rw [if_pos (by simpa using isName), found]
      simp only [List.map_cons, named, later]
    · rw [if_neg isName, Option.map_eq_none_iff] at first
      rw [if_neg (by simpa using isName), first]
      exact later

/-- The name of a segment stands for the step into its directory. -/
theorem ofPiece?_toList (segment : Segment) :
    PathStep.ofPiece? segment.name.toList = some (.down segment) := by
  have isName := segment.isSegment
  simp [PathStep.ofPiece?, isName.2.2.1, isName]

/-- The text of the root is empty. -/
theorem text_of_isRoot {p : ModulePath} (h : p.segments = []) : p.text = "" := by
  rw [text, names, h]
  rfl

/-- The text of a directory, cut at its slashes, gives its segments. -/
theorem pieces_text {p : ModulePath} {sep : Char → Bool} (notRoot : p.segments ≠ [])
    (slash : sep '/' = true) (separators : ∀ c, sep c = true → isSeparator c = true) :
    pieces sep p.text.toList = p.segments.map fun segment => segment.name.toList := by
  have joined : p.text.toList =
      ['/'].intercalate (p.segments.map fun segment => segment.name.toList) := by
    rw [text, names, String.toList_intercalate, List.map_map]
    rfl
  rw [joined]
  refine pieces_intercalate slash ?_ (by simpa using notRoot)
  intro piece isPiece c isMember
  obtain ⟨segment, -, rfl⟩ := List.mem_map.mp isPiece
  have noSeparator := segment.isSegment.2.2.2 c isMember
  cases cuts : sep c with
  | false => rfl
  | true => rw [separators c cuts] at noSeparator; contradiction

/-- The text of a directory stands for the steps into its segments. -/
theorem pathSteps_text (p : ModulePath) : pathSteps p.text = p.segments.map PathStep.down := by
  by_cases isRoot : p.segments = []
  · rw [text_of_isRoot isRoot, isRoot]
    decide
  · rw [pathSteps, pieces_text isRoot (by decide) fun c cuts => cuts, List.filterMap_map]
    have steps : PathStep.ofPiece? ∘ (fun segment : Segment => segment.name.toList) =
        some ∘ PathStep.down := funext ofPiece?_toList
    rw [steps, List.filterMap_eq_map]

/-- A directory is found again under its text. -/
theorem parse_text (p : ModulePath) : parse p.text = .ok p := by
  have noSteps : pathSteps "" = [] := by decide
  rw [parse, resolve, pathSteps_text, noSteps, List.nil_append, follow?_map_down, List.append_nil]
  simp only [List.reverse_reverse]

/-- The names in the text of a directory are its own. -/
theorem namesOf_text (p : ModulePath) : namesOf p.text = p.names := by
  rw [← map_name_pathSteps, pathSteps_text, List.map_map]
  rfl

/-- The text of a directory is canonical. -/
theorem isCanonical_text (p : ModulePath) : IsCanonical p.text := by
  by_cases isRoot : p.segments = []
  · rw [text_of_isRoot isRoot]
    exact ⟨by simp, by simp, by simp, by simp⟩
  have cut : pieces (· == '/') p.text.toList = p.segments.map fun segment => segment.name.toList :=
    pieces_text isRoot (by decide) (by simp [isSeparator])
  have isName : ∀ piece ∈ pieces (· == '/') p.text.toList,
      piece ≠ [] ∧ piece ≠ ['.'] ∧ piece ≠ ['.', '.'] := by
    rw [cut]
    intro piece isPiece
    obtain ⟨segment, -, rfl⟩ := List.mem_map.mp isPiece
    obtain ⟨notEmpty, notDot, notParent, -⟩ := segment.isSegment
    refine ⟨?_, ?_, ?_⟩
    · simpa using notEmpty
    · intro isDot
      exact notDot (String.toList_inj.mp isDot)
    · intro isParent
      exact notParent (String.toList_inj.mp isParent)
  have noEmptyPiece : [] ∉ pieces (· == '/') p.text.toList :=
    fun isPiece => (isName [] isPiece).1 rfl
  refine ⟨fun _ => isName, ?_, ?_, ?_⟩
  · intro isMember
    obtain ⟨piece, isPiece, inPiece⟩ : ∃ piece ∈ pieces (· == '/') p.text.toList, '\\' ∈ piece :=
      exists_mem_pieces isMember (by decide)
    rw [cut] at isPiece
    obtain ⟨segment, -, rfl⟩ := List.mem_map.mp isPiece
    have noSeparator := segment.isSegment.2.2.2 '\\' inPiece
    contradiction
  · intro first
    obtain ⟨rest, text⟩ := List.head?_eq_some_iff.mp first
    apply noEmptyPiece
    rw [text, ← List.nil_append ('/' :: rest), pieces_append_cons (by decide)]
    exact List.mem_append_left _ List.mem_cons_self
  · intro last
    obtain ⟨front, text⟩ := List.getLast?_eq_some_iff.mp last
    apply noEmptyPiece
    rw [text, pieces_append_cons (by decide)]
    exact List.mem_append_right _ List.mem_cons_self

end Text

/-- A relative path escapes from an anchor exactly when their names climb out, and both are told as
they were given. Otherwise it leads down through the survivors, to a directory whose text is
canonical and stands for that directory. -/
theorem resolve_eq (anchor relative : String) :
    (ClimbsOut (namesOf anchor ++ namesOf relative) ∧
      resolve anchor relative = .error ⟨anchor, relative⟩) ∨
    (¬ ClimbsOut (namesOf anchor ++ namesOf relative) ∧ ∃ p,
      resolve anchor relative = .ok p ∧
        p.names = survivors (namesOf anchor ++ namesOf relative) ∧
        namesOf p.text = p.names ∧ IsCanonical p.text ∧ parse p.text = .ok p) := by
  have followed := follow?_eq [] (pathSteps anchor ++ pathSteps relative)
  rw [List.map_append, map_name_pathSteps, map_name_pathSteps] at followed
  obtain ⟨climbs, fails⟩ | ⟨stays, stack, found, names⟩ := followed
  · refine .inl ⟨climbs, ?_⟩
    rw [resolve, fails]
  · refine .inr ⟨stays, ⟨stack.reverse⟩, ?_, names, namesOf_text _, isCanonical_text _,
      parse_text _⟩
    rw [resolve, found]

end ModulePath

end TerraDeps
