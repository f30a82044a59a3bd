import TerraDeps.Marker
import TerraDeps.Proofs.Traversal

/-!
# Quotes and comments in marker files

A position of a text is within quotes if a quote is open before it. A quote is closed by the next
character that opened it and runs over line ends. A comment starts at a `#` outside quotes and takes
up the rest of its line; each line is read afresh to find it.
-/

set_option autoImplicit false

namespace TerraDeps.Marker

/-- The quote that is open before the position. -/
def quoteAt (s : List Char) (i : ℕ) : Option Char :=
  (s.take i).foldl quoteAfter none

/-- The character stands at the position, outside quotes. -/
def StandsAt (c : Char) (s : List Char) (i : ℕ) : Prop :=
  s[i]? = some c ∧ quoteAt s i = none

instance (c : Char) (s : List Char) (i : ℕ) : Decidable (StandsAt c s i) :=
  inferInstanceAs (Decidable (_ ∧ _))

/-- The text up to the first position that stops, or all of it if none does. -/
structure IsUpTo (Stops : ℕ → Prop) (s front : List Char) : Prop where
  isFront : front <+: s
  goesOn : ∀ i < front.length, ¬ Stops i
  ends : front = s ∨ Stops front.length

/-- The line without its comment. -/
def IsUncommented (line visible : List Char) : Prop :=
  IsUpTo (StandsAt '#' line) line visible

/-- The text without its comments, line by line. -/
def IsVisible (s visible : List Char) : Prop :=
  ∃ lines, List.Forall₂ IsUncommented (linesOf s) lines ∧ visible = ['\n'].intercalate lines

section UpTo

variable {Stops : ℕ → Prop} {s front other : List Char} {c : Char}

/-- The empty text goes up to its end. -/
theorem isUpTo_nil : IsUpTo Stops [] [] :=
  ⟨List.prefix_rfl, by simp, .inl rfl⟩

/-- Nothing stands before a stop at the first position. -/
theorem isUpTo_of_stops (stops : Stops 0) : IsUpTo Stops s [] :=
  ⟨List.nil_prefix, by simp, .inr stops⟩

/-- If the first position does not stop, its character goes before what stands up to the first stop
of the rest. -/
theorem IsUpTo.cons (goesOn : ¬ Stops 0) (later : IsUpTo (fun k => Stops (k + 1)) s front) :
    IsUpTo Stops (c :: s) (c :: front) where
  isFront := List.cons_prefix_cons.mpr ⟨rfl, later.isFront⟩
  goesOn i inside := by
    cases i with
    | zero => exact goesOn
    | succ i => exact later.goesOn i (Nat.lt_of_succ_lt_succ inside)
  ends := later.ends.imp_left (congrArg (c :: ·))

/-- Of two texts up to the first stop, neither is longer than the other. -/
theorem IsUpTo.length_le (upTo : IsUpTo Stops s front) (upToOther : IsUpTo Stops s other) :
    front.length ≤ other.length := by
  rcases upToOther.ends with rfl | stops
  · exact upTo.isFront.length_le
  · by_contra longer
    exact upTo.goesOn _ (Nat.lt_of_not_le longer) stops

/-- There is one text up to the first stop. -/
theorem IsUpTo.unique (upTo : IsUpTo Stops s front) (upToOther : IsUpTo Stops s other) :
    front = other := by
  have fits := List.prefix_of_prefix_length_le upTo.isFront upToOther.isFront
    (upTo.length_le upToOther)
  exact fits.eq_of_length (Nat.le_antisymm (upTo.length_le upToOther) (upToOther.length_le upTo))

end UpTo

section

variable {s rest : List Char} {c : Char} {i : ℕ}

/-- No quote is open at the start of a text. -/
theorem quoteAt_zero (s : List Char) : quoteAt s 0 = none :=
  rfl

/-- One position later, the open quote is the one after the character in between. -/
theorem quoteAt_succ (h : s.drop i = c :: rest) :
    quoteAt s (i + 1) = quoteAfter (quoteAt s i) c := by
  rw [quoteAt, take_succ_of_drop h, List.foldl_append, List.foldl_cons, List.foldl_nil, quoteAt]

/-- A character stands outside quotes where it is the next one and no quote is open. -/
theorem standsAt_iff {d : Char} (h : s.drop i = c :: rest) :
    StandsAt d s i ↔ quoteAt s i = none ∧ c = d := by
  rw [StandsAt, getElem?_of_drop h, Option.some_inj, and_comm]

/-- From a position on, the text before a comment goes up to the first `#` outside quotes. -/
theorem isUpTo_beforeComment (h : s.drop i = rest) :
    IsUpTo (fun k => StandsAt '#' s (i + k)) rest (beforeComment (quoteAt s i) rest) := by
  induction rest generalizing i with
  | nil => exact isUpTo_nil
  | cons c rest ih =>
    have comment := standsAt_iff (d := '#') h
    rw [beforeComment]
    split
    · rename_i starts
      refine isUpTo_of_stops (comment.mpr ?_)
      simpa using starts
    · rename_i goesOn
      refine IsUpTo.cons (fun starts => goesOn (by simpa using comment.mp starts)) ?_
      have later := ih (drop_succ_of_drop h)
      rw [quoteAt_succ h] at later
      simpa only [Nat.add_right_comm, Nat.add_assoc] using later

/-- What is read before a comment is the line without it. -/
theorem isUncommented_beforeComment (line : List Char) :
    IsUncommented line (beforeComment none line) := by
  have upTo := isUpTo_beforeComment (s := line) (i := 0) rfl
  simpa only [IsUncommented, Nat.zero_add, quoteAt_zero, List.drop_zero] using upTo

/-- What is left without comments is the visible text. -/
theorem isVisible_stripComments (s : List Char) : IsVisible s (stripComments s) :=
  ⟨_, List.forall₂_map_right_iff.mpr (List.forall₂_same.mpr fun line _ =>
    isUncommented_beforeComment line), rfl⟩

/-- A text has one visible text. -/
theorem IsVisible.unique {visible other : List Char} (h : IsVisible s visible)
    (h' : IsVisible s other) : visible = other := by
  obtain ⟨lines, uncommented, rfl⟩ := h
  obtain ⟨otherLines, uncommentedToo, rfl⟩ := h'
  have functional : Relator.RightUnique IsUncommented := fun _ _ _ => IsUpTo.unique
  rw [List.right_unique_forall₂' functional uncommented uncommentedToo]

end

end TerraDeps.Marker
