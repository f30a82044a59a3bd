import Mathlib.Data.Int.Notation
import TerraDeps.Proofs.Marker.Comments

/-!
# The calls of a marker file and their names

A call of the marker's function, the extent of its arguments and a name among them are said of
positions in the text, without a reader. Of several names, the first at a position that counts is
the name of the call. The readers of `Marker` agree with what is said here.
-/

set_option autoImplicit false

namespace TerraDeps.Marker

open Text

/-- The number of parentheses that are open before the position: those opened minus those closed
outside quotes. -/
def depthAt (s : List Char) (i : ℕ) : ℤ :=
  (List.range i).countP (fun j => StandsAt '(' s j) -
    (List.range i).countP fun j => StandsAt ')' s j

/-- A parenthesis closes at the position that was opened before the text. -/
def IsClosing (s : List Char) (i : ℕ) : Prop :=
  StandsAt ')' s i ∧ depthAt s i = 0

/-- The arguments of a call, when `rest` follows its opening parenthesis. -/
def IsArguments (rest args : List Char) : Prop :=
  IsUpTo (IsClosing rest) rest args

/-- The text starts with the word, blanks and the character, and goes on with `rest`. -/
def StartsWith (word : List Char) (c : Char) (s rest : List Char) : Prop :=
  ∃ blanks, (∀ b ∈ blanks, isBlank b = true) ∧ s = word ++ (blanks ++ c :: rest)

/-- No word character stands right before the position. -/
def IsWordStart (s : List Char) (i : ℕ) : Prop :=
  ∀ c ∈ (s.take i).getLast?, isWord c = false

/-- A call starts at the position, and `rest` follows its opening parenthesis. -/
def OpensCall (s : List Char) (p : ℕ) (rest : List Char) : Prop :=
  IsWordStart s p ∧ StartsWith callee '(' (s.drop p) rest

/-- The text starts with blanks and the value in quotes. -/
def StartsQuoted (s : List Char) (value : String) : Prop :=
  ∃ blanks q after, (∀ b ∈ blanks, isBlank b = true) ∧ isQuote q = true ∧ q ∉ value.toList ∧
    s = blanks ++ q :: (value.toList ++ q :: after)

/-- A `name = "…"` with the value starts at the position. -/
def NamesAt (s : List Char) (i : ℕ) (value : String) : Prop :=
  IsWordStart s i ∧ ∃ rest, StartsWith "name".toList '=' (s.drop i) rest ∧ StartsQuoted rest value

/-- The value of the first `name = "…"` at a position that counts. -/
def IsFirstName (Counts : ℕ → Prop) (s : List Char) : Option String → Prop
  | none => ∀ i, Counts i → ∀ value, ¬ NamesAt s i value
  | some value => ∃ i, Counts i ∧ NamesAt s i value ∧
      ∀ j < i, Counts j → ∀ other, ¬ NamesAt s j other

/-- The name of a call: the first among its arguments, wherever it stands. -/
def IsAnyName (args : List Char) (name : Option String) : Prop :=
  IsFirstName (fun _ => True) args name

/-- The name that a call gives itself: the first among its arguments that stands outside quotes and
not in the parentheses of another call. -/
def IsOwnName (args : List Char) (name : Option String) : Prop :=
  IsFirstName (fun i => quoteAt args i = none ∧ depthAt args i = 0) args name

section Depth

variable {s rest : List Char} {c : Char} {i : ℕ}

/-- One position later, the depth has changed by the parenthesis that stands in between outside
quotes, if any. -/
theorem depthAt_succ (s : List Char) (i : ℕ) : depthAt s (i + 1) = depthAt s i +
    (if StandsAt '(' s i then 1 else 0) - (if StandsAt ')' s i then 1 else 0) := by
  simp only [depthAt, List.range_succ, List.countP_append, List.countP_singleton,
    decide_eq_true_eq]
  split <;> split <;> push_cast <;> omega

/-- With as many parentheses open as the reader has counted, it goes on to the one that closes the
call. -/
theorem isUpTo_arguments {depth : ℕ} (h : s.drop i = rest) (opened : depthAt s i = depth) :
    IsUpTo (fun k => IsClosing s (i + k)) rest (arguments depth (quoteAt s i) rest) := by
  induction rest generalizing i depth with
  | nil => exact isUpTo_nil
  | cons c rest ih =>
    have drop := drop_succ_of_drop h
    have opens := standsAt_iff (d := '(') h
    have closes := standsAt_iff (d := ')') h
    have goesOn {depth : ℕ} (notClosing : ¬ IsClosing s i) (after : depthAt s (i + 1) = depth) :
        IsUpTo (fun k => IsClosing s (i + k)) (c :: rest)
          (c :: arguments depth (quoteAfter (quoteAt s i) c) rest) := by
      refine IsUpTo.cons notClosing ?_
      have later := ih drop after
      rw [quoteAt_succ h] at later
      simpa only [Nat.add_right_comm, Nat.add_assoc] using later
    -- One parenthesis more or less is open after `c`, unless it closes the call.
    unfold arguments
    simp only [Bool.and_eq_true, Option.isNone_iff_eq_none, beq_iff_eq, ← opens, ← closes]
    split
    · rename_i isOpening
      have other : ¬ StandsAt ')' s i := fun isClosing =>
        absurd ((opens.mp isOpening).2.symm.trans (closes.mp isClosing).2) (by decide)
      refine goesOn (fun closing => other closing.1) ?_
      rw [depthAt_succ, opened, if_pos isOpening, if_neg other]
      push_cast
      omega
    split
    · rename_i notOpening isClosing
      cases depth with
      | zero => exact isUpTo_of_stops ⟨isClosing, opened⟩
      | succ depth =>
        refine goesOn (fun closing => ?_) ?_
        · have top := closing.2
          omega
        · rw [depthAt_succ, opened, if_neg notOpening, if_pos isClosing]
          push_cast
          omega
    · rename_i notOpening notClosing
      refine goesOn (fun closing => notClosing closing.1) ?_
      rw [depthAt_succ, opened, if_neg notOpening, if_neg notClosing]
      omega

/-- The arguments that are read are the arguments of the call. -/
theorem isArguments_arguments (rest : List Char) : IsArguments rest (arguments 0 none rest) := by
  have closed : depthAt rest 0 = (0 : ℕ) := rfl
  have upTo := isUpTo_arguments (s := rest) (i := 0) rfl closed
  simpa only [IsArguments, Nat.zero_add, quoteAt_zero, List.drop_zero] using upTo

end Depth

section Words

variable {s rest : List Char} {c : Char} {i : ℕ}

/-- A word is read from the front of the text only. -/
theorem afterWord?_eq_some_iff {word : List Char} :
    afterWord? word s = some rest ↔ s = word ++ rest := by
  unfold afterWord?
  constructor
  · intro h
    split at h
    · rename_i starts
      rw [← Option.some.inj h]
      exact (List.prefix_iff_eq_append.mp (List.isPrefixOf_iff_prefix.mp starts)).symm
    · contradiction
  · rintro rfl
    rw [if_pos (List.isPrefixOf_iff_prefix.mpr (List.prefix_append _ _)), List.drop_left]

/-- Blanks before another character are dropped. -/
theorem dropWhile_isBlank_append {blanks : List Char} (all : ∀ b ∈ blanks, isBlank b = true)
    (stays : isBlank c = false) : (blanks ++ c :: rest).dropWhile isBlank = c :: rest := by
  rw [List.dropWhile_append_of_pos all, List.dropWhile_cons_of_neg (by simp [stays])]

/-- What is dropped at the front are blanks. -/
theorem exists_blanks (h : s.dropWhile isBlank = rest) :
    ∃ blanks, (∀ b ∈ blanks, isBlank b = true) ∧ s = blanks ++ rest :=
  ⟨s.takeWhile isBlank, List.all_eq_true.mp List.all_takeWhile,
    h ▸ List.takeWhile_append_dropWhile.symm⟩

/-- Blanks and a character are read from the front of the text only. -/
theorem afterBlanksAnd?_eq_some_iff (stays : isBlank c = false) :
    afterBlanksAnd? c s = some rest ↔
      ∃ blanks, (∀ b ∈ blanks, isBlank b = true) ∧ s = blanks ++ c :: rest := by
  constructor
  · intro h
    unfold afterBlanksAnd? at h
    split at h
    · rename_i d after dropped
      split at h
      · rename_i same
        obtain rfl := Option.some.inj h
        exact exists_blanks (same ▸ dropped)
      · contradiction
    · contradiction
  · rintro ⟨blanks, all, rfl⟩
    simp only [afterBlanksAnd?, dropWhile_isBlank_append all stays, if_pos]

/-- A word, blanks and a character are read where the text starts with them. -/
theorem afterWord?_bind_eq_some_iff {word : List Char} (stays : isBlank c = false) :
    (afterWord? word s).bind (afterBlanksAnd? c) = some rest ↔ StartsWith word c s rest := by
  simp only [Option.bind_eq_some_iff, afterWord?_eq_some_iff, afterBlanksAnd?_eq_some_iff stays]
  constructor
  · rintro ⟨after, rfl, blanks, all, rfl⟩
    exact ⟨blanks, all, rfl⟩
  · rintro ⟨blanks, all, rfl⟩
    exact ⟨_, rfl, blanks, all, rfl⟩

/-- A quote is no blank. -/
theorem not_isBlank_of_isQuote (quotes : isQuote c = true) : isBlank c = false := by
  simp only [isQuote, Bool.or_eq_true, beq_iff_eq] at quotes
  rcases quotes with rfl | rfl <;> decide

/-- A name is read where the text starts with `name`, an equals sign and the name in quotes. -/
theorem nameHere?_eq_some_iff {value : String} : nameHere? s = some value ↔
    ∃ rest, StartsWith "name".toList '=' s rest ∧ StartsQuoted rest value := by
  constructor
  · intro h
    unfold nameHere? at h
    split at h
    · rename_i q after found
      obtain ⟨rest, starts, dropped⟩ := Option.map_eq_some_iff.mp found
      obtain ⟨blanks, all, rfl⟩ := exists_blanks dropped
      split at h
      · rename_i quoted
        obtain ⟨quotes, inside⟩ := Bool.and_eq_true_iff.mp quoted
        obtain ⟨text, ending, rfl, fresh⟩ :=
          List.eq_append_cons_of_mem (List.contains_iff_mem.mp inside)
        rw [takeWhile_ne_append fresh] at h
        obtain rfl := Option.some.inj h
        have named := (afterWord?_bind_eq_some_iff (by decide)).mp starts
        refine ⟨_, named, blanks, q, ending, all, quotes, ?_⟩
        rw [String.toList_ofList]
        exact ⟨fresh, rfl⟩
      · contradiction
    · contradiction
  · rintro ⟨rest, starts, blanks, q, after, all, quotes, fresh, rfl⟩
    rw [nameHere?, (afterWord?_bind_eq_some_iff (by decide)).mpr starts, Option.map_some,
      dropWhile_isBlank_append all (not_isBlank_of_isQuote quotes)]
    simp [quotes, takeWhile_ne_append fresh]

/-- What starts with a character is inside the text. -/
theorem StartsWith.lt_length {word : List Char} (starts : StartsWith word c (s.drop i) rest) :
    i < s.length := by
  obtain ⟨blanks, -, whole⟩ := starts
  by_contra outside
  rw [List.drop_eq_nil_of_le (Nat.le_of_not_lt outside)] at whole
  simp at whole

/-- A word can start at the start of the text. -/
theorem isWordStart_zero (s : List Char) : IsWordStart s 0 := by
  simp [IsWordStart]

/-- A word can start right after a character that is none of a word. -/
theorem isWordStart_succ (h : s.drop i = c :: rest) :
    IsWordStart s (i + 1) ↔ isWord c = false := by
  simp [IsWordStart, take_succ_of_drop h]

end Words

section Names

variable {s rest : List Char} {c : Char} {i j : ℕ} {value other : String}
  {name name' : Option String} {Counts : ℕ → Prop}

/-- One name starts at a position. -/
theorem NamesAt.unique (h : NamesAt s i value) (h' : NamesAt s i other) : value = other :=
  Option.some.inj ((nameHere?_eq_some_iff.mpr h.2).symm.trans (nameHere?_eq_some_iff.mpr h'.2))

/-- There is one first name. -/
theorem IsFirstName.unique (h : IsFirstName Counts s name) (h' : IsFirstName Counts s name') :
    name = name' := by
  cases name with
  | none =>
    cases name' with
    | none => rfl
    | some other =>
      obtain ⟨i, counts, named, -⟩ := h'
      exact absurd named (h i counts other)
  | some value =>
    obtain ⟨i, counts, named, first⟩ := h
    cases name' with
    | none => exact absurd named (h' i counts value)
    | some other =>
      obtain ⟨j, countsOther, namedOther, firstOther⟩ := h'
      rcases Nat.lt_trichotomy i j with before | rfl | after
      · exact absurd named (firstOther i before counts value)
      · rw [named.unique namedOther]
      · exact absurd namedOther (first j after countsOther other)

/-- A name is looked for further on if there is none here. -/
theorem IsFirstName.of_succ (notHere : ∀ value, ¬ NamesAt s i value)
    (later : IsFirstName (i + 1 ≤ ·) s name) : IsFirstName (i ≤ ·) s name := by
  have goesOn {j : ℕ} (counts : i ≤ j) : (∀ value, ¬ NamesAt s j value) ∨ i + 1 ≤ j := by
    rcases Nat.eq_or_lt_of_le counts with rfl | after
    · exact .inl notHere
    · exact .inr after
  cases name with
  | none => exact fun j counts => (goesOn counts).elim id (later j)
  | some value =>
    obtain ⟨j, counts, named, first⟩ := later
    refine ⟨j, Nat.le_of_succ_le counts, named, fun k before countsHere => ?_⟩
    exact (goesOn countsHere).elim id (first k before)

/-- From a position on, the name that is read is the first one that starts there or later. -/
theorem isFirstName_name? {previousIsWord : Bool} (h : s.drop i = rest)
    (word : previousIsWord = false ↔ IsWordStart s i) :
    IsFirstName (i ≤ ·) s (name? previousIsWord rest) := by
  induction rest generalizing i previousIsWord with
  | nil =>
    rintro j after value ⟨-, rest, starts, -⟩
    have atEnd := Nat.le_trans (List.drop_eq_nil_iff.mp h) after
    exact absurd starts.lt_length (Nat.not_lt_of_le atEnd)
  | cons c rest ih =>
    have here (value : String) :
        (if previousIsWord then none else nameHere? (c :: rest)) = some value ↔
          NamesAt s i value := by
      rw [Option.ite_none_left_eq_some, Bool.not_eq_true, word, ← h, nameHere?_eq_some_iff, NamesAt]
    unfold name?
    split
    · rename_i value found
      refine ⟨i, Nat.le_refl i, (here value).mp found, fun j before after => ?_⟩
      exact absurd after (Nat.not_le_of_lt before)
    · rename_i unnamed
      refine IsFirstName.of_succ (fun value named => ?_)
        (ih (drop_succ_of_drop h) (isWordStart_succ h).symm)
      rw [(here value).mpr named] at unnamed
      contradiction

/-- The name that is read is the first among the arguments. -/
theorem isAnyName_name? (args : List Char) : IsAnyName args (name? false args) := by
  have first := isFirstName_name? (s := args) (i := 0) rfl (iff_of_true rfl (isWordStart_zero args))
  simpa only [IsAnyName, Nat.zero_le, List.drop_zero] using first

end Names

/-- A call is read where the text starts with the function's name and an opening parenthesis. -/
theorem afterCall?_eq_some_iff {s rest : List Char} :
    afterCall? s = some rest ↔ StartsWith callee '(' s rest :=
  afterWord?_bind_eq_some_iff (by decide)

/-- One text follows the parenthesis of a call. -/
theorem OpensCall.unique {s rest other : List Char} {p : ℕ} (h : OpensCall s p rest)
    (h' : OpensCall s p other) : rest = other :=
  Option.some.inj ((afterCall?_eq_some_iff.mpr h.2).symm.trans (afterCall?_eq_some_iff.mpr h'.2))

end TerraDeps.Marker
