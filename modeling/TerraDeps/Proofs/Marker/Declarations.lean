import Mathlib.Data.List.Sort
import TerraDeps.Proofs.Marker.Calls

/-!
# The declarations of a marker file

What `declarations` reports are all calls in the text without comments, each with the first name
among its arguments, wherever calls and names stand. What the calls themselves declare leaves out a
call within quotes, and a name within quotes or in the parentheses of another call. The two readings
agree exactly on the texts in which no call is quoted and no such name comes first.
-/

set_option autoImplicit false

namespace TerraDeps.Marker

/-- The declaration says what the call at the position says, by the given reading of names. -/
def IsDeclarationAt (IsName : List Char → Option String → Prop) (s : List Char) (p : ℕ)
    (d : Declaration) : Prop :=
  ∃ rest args, OpensCall s p rest ∧ IsArguments rest args ∧ IsName args d.name ∧
    d.line = (s.take p).count '\n' + 1

/-- The declarations say what the calls at the positions that count say, in order. -/
def AreDeclarations (Counts : ℕ → Prop) (IsName : List Char → Option String → Prop)
    (s : List Char) (ds : List Declaration) : Prop :=
  ∃ positions : List ℕ, positions.Pairwise (· < ·) ∧
    (∀ p, p ∈ positions ↔ Counts p ∧ ∃ rest, OpensCall s p rest) ∧
    List.Forall₂ (IsDeclarationAt IsName s) positions ds

/-- The declarations are those of all calls, with any names. -/
def AreAllDeclarations (s : List Char) (ds : List Declaration) : Prop :=
  AreDeclarations (fun _ => True) IsAnyName s ds

/-- The declarations are those of the calls outside quotes, with their own names. -/
def AreOwnDeclarations (s : List Char) (ds : List Declaration) : Prop :=
  AreDeclarations (fun p => quoteAt s p = none) IsOwnName s ds

/-- Ascending positions that are as many as others and among them are the same. -/
theorem eq_of_subset_of_ascending {ps qs : List ℕ} (ascending : ps.Pairwise (· < ·))
    (ascendingToo : qs.Pairwise (· < ·)) (subset : qs ⊆ ps) (length : qs.length = ps.length) :
    qs = ps := by
  have nodup : qs.Nodup := ascendingToo.imp Nat.ne_of_lt
  have sublist := List.sublist_of_subperm_of_pairwise (List.subperm_of_subset nodup subset)
    ascendingToo ascending
  exact sublist.eq_of_length length

variable {s rest : List Char} {i line : ℕ} {ds : List Declaration}

/-- The calls read from a position on are all calls that start there or later. -/
theorem areDeclarations_calls {previousIsWord : Bool} (h : s.drop i = rest)
    (word : previousIsWord = false ↔ IsWordStart s i)
    (lines : line = (s.take i).count '\n' + 1) :
    AreDeclarations (i ≤ ·) IsAnyName s (calls line previousIsWord rest) := by
  induction rest generalizing i previousIsWord line with
  | nil =>
    refine ⟨[], .nil, fun p => iff_of_false List.not_mem_nil ?_, .nil⟩
    rintro ⟨later, after, -, starts⟩
    have atEnd := Nat.le_trans (List.drop_eq_nil_iff.mp h) later
    exact absurd starts.lt_length (Nat.not_lt_of_le atEnd)
  | cons c rest ih =>
    have here (after : List Char) :
        (if previousIsWord then none else afterCall? (c :: rest)) = some after ↔
          OpensCall s i after := by
      rw [Option.ite_none_left_eq_some, Bool.not_eq_true, word, ← h, afterCall?_eq_some_iff,
        OpensCall]
    have linesAfter : (if c = '\n' then line + 1 else line) = (s.take (i + 1)).count '\n' + 1 := by
      rw [take_succ_of_drop h, List.count_append, List.count_singleton, lines]
      split <;> simp_all
    obtain ⟨positions, ascending, isCall, areDeclarations⟩ :=
      ih (drop_succ_of_drop h) (isWordStart_succ h).symm linesAfter
    have goesOn {p : ℕ} : i ≤ p ↔ p = i ∨ i + 1 ≤ p := by omega
    rw [calls]
    -- A call at `i` comes before all that start later; without one, none starts at `i`.
    cases found : (if previousIsWord then none else afterCall? (c :: rest)) with
    | some after =>
      have opens := (here after).mp found
      refine ⟨i :: positions, List.pairwise_cons.mpr ⟨fun p listed => ((isCall p).mp listed).1,
        ascending⟩, fun p => ?_, .cons ?_ areDeclarations⟩
      · simp only [List.mem_cons, isCall, goesOn, or_and_right]
        exact or_congr_left ⟨fun same => ⟨same, after, same ▸ opens⟩, And.left⟩
      · exact ⟨after, _, opens, isArguments_arguments after, isAnyName_name? _, lines⟩
    | none =>
      refine ⟨positions, ascending, fun p => ?_, areDeclarations⟩
      simp only [isCall, goesOn, or_and_right]
      refine (or_iff_right ?_).symm
      rintro ⟨rfl, after, opens⟩
      rw [(here after).mpr opens] at found
      contradiction

/-- The calls that are read from the start of a text are all its calls. -/
theorem areAllDeclarations_calls (s : List Char) : AreAllDeclarations s (calls 1 false s) := by
  have all := areDeclarations_calls (s := s) (i := 0) rfl (iff_of_true rfl (isWordStart_zero s)) rfl
  simpa only [AreAllDeclarations, Nat.zero_le, List.drop_zero, List.take_zero, List.count_nil,
    Nat.zero_add] using all

/-- The reading of all calls is also the reading of some when all of them count and their names are
taken to be the same. -/
theorem AreAllDeclarations.areDeclarations_iff {Counts : ℕ → Prop}
    {IsName : List Char → Option String → Prop} (all : AreAllDeclarations s ds) :
    AreDeclarations Counts IsName s ds ↔
      ∀ p rest args, OpensCall s p rest → IsArguments rest args →
        Counts p ∧ ∀ name, IsAnyName args name → IsName args name := by
  obtain ⟨positions, ascending, isCall, areDeclarations⟩ := all
  constructor
  · rintro ⟨counted, ascendingToo, isCounted, areCounted⟩ p rest args opens isArguments
    have subset : counted ⊆ positions := fun q listed =>
      (isCall q).mpr ⟨trivial, ((isCounted q).mp listed).2⟩
    have length := areCounted.length_eq.trans areDeclarations.length_eq.symm
    obtain rfl := eq_of_subset_of_ascending ascending ascendingToo subset length
    have listed := (isCall p).mpr ⟨trivial, rest, opens⟩
    refine ⟨((isCounted p).mp listed).1, fun name isAny => ?_⟩
    -- both readings say of this call what the same declaration says
    obtain ⟨d, -, ⟨rest₁, args₁, opens₁, isArguments₁, isAny₁, -⟩,
        rest₂, args₂, opens₂, isArguments₂, isName, -⟩ :=
      exists_of_mem_right (areDeclarations.mp (fun _ _ => And.intro) areCounted).flip listed
    obtain rfl := opens.unique opens₁
    obtain rfl := opens.unique opens₂
    obtain rfl := isArguments.unique isArguments₁
    obtain rfl := isArguments.unique isArguments₂
    rw [isAny.unique isAny₁]
    exact isName
  · intro agrees
    refine ⟨positions, ascending, fun p => ?_, areDeclarations.imp ?_⟩
    · rw [isCall]
      constructor
      · rintro ⟨-, rest, opens⟩
        exact ⟨(agrees p rest _ opens (isArguments_arguments rest)).1, rest, opens⟩
      · exact fun call => ⟨trivial, call.2⟩
    · rintro p d ⟨rest, args, opens, isArguments, isAny, lines⟩
      have isName := (agrees p rest args opens isArguments).2 _ isAny
      exact ⟨rest, args, opens, isArguments, isName, lines⟩

/-- If the reading of all calls is their own, each is outside quotes and its first name is its
own. -/
theorem AreOwnDeclarations.of_opensCall {p : ℕ} (own : AreOwnDeclarations s (calls 1 false s))
    (opens : OpensCall s p rest) : quoteAt s p = none ∧
      IsOwnName (arguments 0 none rest) (name? false (arguments 0 none rest)) := by
  have agrees := (areAllDeclarations_calls s).areDeclarations_iff.mp own
  obtain ⟨unquoted, isOwn⟩ := agrees p rest _ opens (isArguments_arguments rest)
  exact ⟨unquoted, isOwn _ (isAnyName_name? _)⟩

/-- A marker file declares all calls that are left without its comments, with any names; these are
the calls' own declarations exactly when no call is within quotes and the first name among the
arguments of each is its own. -/
theorem declarations_spec (text : String) : ∃ visible, IsVisible text.toList visible ∧
    AreAllDeclarations visible (declarations text) ∧
    (AreOwnDeclarations visible (declarations text) ↔
      ∀ p rest args, OpensCall visible p rest → IsArguments rest args →
        quoteAt visible p = none ∧ ∀ name, IsAnyName args name → IsOwnName args name) := by
  have all := areAllDeclarations_calls (stripComments text.toList)
  exact ⟨_, isVisible_stripComments text.toList, all, all.areDeclarations_iff⟩

/-- A call in a string declares a unit, and the name of a nested call is taken for that of the unit;
neither is what the calls declare themselves. -/
theorem declarations_not_own :
    (let note := "note = \"terraform_module()\""
     declarations note = [⟨none, 1⟩] ∧
      ∀ visible, IsVisible note.toList visible → ¬ AreOwnDeclarations visible (declarations note)) ∧
    (let nested := "terraform_module(tags=f(name=\"other\"))"
     declarations nested = [⟨some "other", 1⟩] ∧
      ∀ visible, IsVisible nested.toList visible →
        ¬ AreOwnDeclarations visible (declarations nested)) := by
  constructor
  · intro note
    have isNote : stripComments note.toList = note.toList := by decide +kernel
    refine ⟨by decide +kernel, fun visible isVisible own => ?_⟩
    obtain rfl := isVisible.unique (isVisible_stripComments note.toList)
    rw [declarations, isNote] at own
    have quote : note.toList.drop 7 = '"' :: "terraform_module()\"".toList := by decide
    have isStart : IsWordStart note.toList 8 := (isWordStart_succ quote).mpr (by decide)
    have opens : OpensCall note.toList 8 ")\"".toList := ⟨isStart, [], by simp, by decide⟩
    exact absurd (own.of_opensCall opens).1 (by decide)
  · intro nested
    have isNested : stripComments nested.toList = nested.toList := by decide +kernel
    refine ⟨by decide +kernel, fun visible isVisible own => ?_⟩
    obtain rfl := isVisible.unique (isVisible_stripComments nested.toList)
    rw [declarations, isNested] at own
    let args := "tags=f(name=\"other\")".toList
    have opens : OpensCall nested.toList 0 (args ++ [')']) :=
      ⟨isWordStart_zero _, [], by simp, by decide⟩
    have isArguments : arguments 0 none (args ++ [')']) = args := by decide
    have isName : name? false args = some "other" := by decide
    have isOwn := (own.of_opensCall opens).2
    rw [isArguments, isName] at isOwn
    obtain ⟨i, ⟨-, direct⟩, ⟨-, after, starts, quoted⟩, -⟩ := isOwn
    have noName : ∀ i < args.length, depthAt args i = 0 →
        nameHere? (args.drop i) ≠ some "other" := by decide +kernel
    exact noName i starts.lt_length direct (nameHere?_eq_some_iff.mpr ⟨after, starts, quoted⟩)

end TerraDeps.Marker
