import Mathlib.Data.List.Infix
import TerraDeps.Proofs.Marker.Declarations

/-!
# Lines and comments of marker files

A comment may say anything: texts that differ only behind a `#` that starts a comment, on however
many lines, declare the same (`stripComments_eq_of_differsInComments`). What is left without the
comments keeps its place: whatever is shown stands in the text on the line of the same number and
behind the same characters of that line, be the line ends with carriage returns or without. So the
line of a declaration is the one in the text on which the call starts.
-/

set_option autoImplicit false

namespace TerraDeps.Marker

open Text

/-- The lines are the same but for what follows the `#` that starts a comment in both. -/
def IsSameButComment (line other : List Char) : Prop :=
  line = other ∨ ∃ front comment otherComment, IsUncommented line front ∧
    line = front ++ '#' :: comment ∧ other = front ++ '#' :: otherComment

/-- The texts are the same, line by line, but for what follows the `#` of comments. -/
def DiffersInComments (s other : List Char) : Prop :=
  List.Forall₂ IsSameButComment (pieces (· == '\n') s) (pieces (· == '\n') other)

/-- What stands before the position on its line. -/
def lineBefore (s : List Char) (i : ℕ) : List Char :=
  afterLast '\n' (s.take i)

/-- Position `q` of the text is shown at position `p` of the visible text: on the line of the same
number and behind the same characters of that line. -/
structure Shows (s visible : List Char) (q p : ℕ) : Prop where
  inText : q ≤ s.length
  inVisible : p ≤ visible.length
  sameLine : (s.take q).count '\n' = (visible.take p).count '\n'
  sameFront : lineBefore s q = lineBefore visible p

/-- The declaration is that of the call at position `q` of the text, and its line is the one
there. -/
structure IsDeclaredAt (s visible : List Char) (q : ℕ) (d : Declaration) : Prop where
  shown : ∃ p, Shows s visible q p ∧ IsDeclarationAt IsAnyName visible p d
  starts : callee <+: s.drop q
  line : d.line = (s.take q).count '\n' + 1

section Comments

variable {s other front comment otherComment line : List Char} {quote : Option Char}

/-- What follows the `#` of a comment does not decide where the comment starts. -/
theorem beforeComment_of_comment (h : beforeComment quote (front ++ '#' :: comment) = front)
    (otherComment : List Char) : beforeComment quote (front ++ '#' :: otherComment) = front := by
  induction front generalizing quote with
  | nil =>
    rw [List.nil_append, beforeComment] at h ⊢
    split at h
    · rename_i starts
      rw [if_pos starts]
    · contradiction
  | cons c front ih =>
    rw [List.cons_append, beforeComment] at h ⊢
    split at h
    · contradiction
    · rename_i goesOn
      rw [if_neg goesOn, ih (List.cons.inj h).2]

/-- A return that is dropped behind a `#` leaves the `#` and what stands before it. -/
theorem dropReturn_append_cons (front comment : List Char) :
    ∃ kept, dropReturn (front ++ '#' :: comment) = front ++ '#' :: kept := by
  unfold dropReturn
  split
  · rename_i returns
    have notEmpty : comment ≠ [] := by
      rintro rfl
      simp at returns
    refine ⟨comment.dropLast, ?_⟩
    rw [List.dropLast_append_cons, List.dropLast_cons_of_ne_nil notEmpty]
  · exact ⟨comment, rfl⟩

/-- Lines that differ in a comment show the same, with a return at their end and without. -/
theorem IsSameButComment.beforeComment_eq (same : IsSameButComment line other) :
    beforeComment none line = beforeComment none other ∧
      beforeComment none (dropReturn line) = beforeComment none (dropReturn other) ∧
      line.isEmpty = other.isEmpty := by
  rcases same with rfl | ⟨front, comment, otherComment, uncommented, rfl, rfl⟩
  · exact ⟨rfl, rfl, rfl⟩
  have visible := (isUncommented_beforeComment _).unique uncommented
  have shown := beforeComment_of_comment visible
  obtain ⟨kept, cut⟩ := dropReturn_append_cons front comment
  obtain ⟨otherKept, otherCut⟩ := dropReturn_append_cons front otherComment
  refine ⟨visible.trans (shown otherComment).symm, ?_, by cases front <;> rfl⟩
  rw [cut, otherCut, shown, shown]

/-- Lines that differ in comments only are the same without them. -/
theorem map_linesOf_eq {lines others : List (List Char)}
    (same : List.Forall₂ IsSameButComment lines others) :
    (lines.dropLast.map dropReturn ++
      lines.getLast?.toList.filter fun last => !last.isEmpty).map (beforeComment none) =
    (others.dropLast.map dropReturn ++
      others.getLast?.toList.filter fun last => !last.isEmpty).map (beforeComment none) := by
  induction same with
  | nil => rfl
  | cons first later ih =>
    obtain ⟨atEnd, ended, empty⟩ := first.beforeComment_eq
    cases later with
    | nil =>
      simp only [List.dropLast_singleton, List.getLast?_singleton, Option.toList_some,
        List.filter_cons, empty]
      split
      · simp [atEnd]
      · rfl
    | cons second later =>
      rw [List.dropLast_cons_cons, List.dropLast_cons_cons, List.getLast?_cons_cons,
        List.getLast?_cons_cons, List.map_cons, List.map_cons, List.cons_append, List.cons_append,
        List.map_cons, List.map_cons, ended, ih]

/-- Texts that differ in comments only show the same without them. -/
theorem stripComments_eq_of_differsInComments (h : DiffersInComments s other) :
    stripComments s = stripComments other :=
  congrArg (['\n'].intercalate ·) (map_linesOf_eq h)

end Comments

section Places

variable {s visible front after word : List Char} {i j p q p' q' : ℕ}

/-- Up to a later position there are no fewer line ends. -/
theorem count_take_le (h : i ≤ j) : (s.take i).count '\n' ≤ (s.take j).count '\n' :=
  (List.take_prefix_take_left h).sublist.count_le _

/-- On one line, what stands before a later position is longer by as much as it is later. -/
theorem length_lineBefore (le : i ≤ j) (inText : j ≤ s.length)
    (sameLine : (s.take i).count '\n' = (s.take j).count '\n') :
    (lineBefore s j).length = (lineBefore s i).length + (j - i) := by
  obtain ⟨between, whole⟩ := List.take_prefix_take_left (l := s) le
  have lengths := congrArg List.length whole
  rw [← whole, List.count_append] at sameLine
  have noLineEnd : '\n' ∉ between := List.count_eq_zero.mp (by omega)
  rw [lineBefore, ← whole, afterLast_append_of_not_mem noLineEnd, List.length_append, ← lineBefore]
  simp only [List.length_append, List.length_take] at lengths
  omega

/-- What is shown at a position is shown there for both texts. -/
theorem Shows.symm (h : Shows s visible q p) : Shows visible s p q :=
  ⟨h.inVisible, h.inText, h.sameLine.symm, h.sameFront.symm⟩

/-- Positions are shown in their order. -/
theorem Shows.lt (h : Shows s visible q p) (h' : Shows s visible q' p') (before : p < p') :
    q < q' := by
  by_contra notBefore
  have back := Nat.le_of_not_lt notBefore
  have lines := count_take_le (s := visible) (Nat.le_of_lt before)
  have linesBack := count_take_le (s := s) back
  have sameLine : (visible.take p).count '\n' = (visible.take p').count '\n' := by
    have := h.sameLine
    have := h'.sameLine
    omega
  have longer := length_lineBefore (Nat.le_of_lt before) h'.inVisible sameLine
  have longerBack := length_lineBefore back h.inText
    (h'.sameLine.trans (sameLine.symm.trans h.sameLine.symm))
  rw [← h.sameFront, ← h'.sameFront] at longer
  omega

/-- A position shows one position. -/
theorem Shows.eq_of_eq (h : Shows s visible q p) (h' : Shows s visible q' p) : q = q' := by
  rcases Nat.lt_trichotomy q q' with before | same | after
  · exact absurd (h.symm.lt h'.symm before) (Nat.lt_irrefl p)
  · exact same
  · exact absurd (h'.symm.lt h.symm after) (Nat.lt_irrefl p)

/-- What both texts start with is shown at its own place. -/
theorem shows_of_prefix (starts : front <+: s) (startsToo : front <+: visible)
    (within : p ≤ front.length) : Shows s visible p p := by
  obtain ⟨rest, rfl⟩ := starts
  obtain ⟨restToo, rfl⟩ := startsToo
  refine ⟨?_, ?_, ?_, ?_⟩
  · rw [List.length_append]
    omega
  · rw [List.length_append]
    omega
  · rw [List.take_append_of_le_length within, List.take_append_of_le_length within]
  · rw [lineBefore, lineBefore, List.take_append_of_le_length within,
      List.take_append_of_le_length within]

/-- What is shown on later lines stays so behind one more line on both sides. -/
theorem Shows.later (h : Shows s visible q p) (line shown : List Char)
    (noLineEnd : '\n' ∉ line) (noneShown : '\n' ∉ shown) :
    Shows (line ++ '\n' :: s) (shown ++ '\n' :: visible) (line.length + (q + 1))
      (shown.length + (p + 1)) := by
  have front (l t : List Char) (i : ℕ) :
      (l ++ '\n' :: t).take (l.length + (i + 1)) = l ++ '\n' :: t.take i := by
    rw [List.take_length_add_append, List.take_succ_cons]
  refine ⟨?_, ?_, ?_, ?_⟩
  · have := h.inText
    simp only [List.length_append, List.length_cons]
    omega
  · have := h.inVisible
    simp only [List.length_append, List.length_cons]
    omega
  · rw [front, front, List.count_append, List.count_append, List.count_cons_self,
      List.count_cons_self, h.sameLine, List.count_eq_zero.mpr noLineEnd,
      List.count_eq_zero.mpr noneShown]
  · rw [lineBefore, lineBefore, front, front, afterLast_append_cons, afterLast_append_cons]
    exact h.sameFront

/-- What holds no line end and starts on a line does not go beyond it. -/
theorem prefix_of_prefix_line {line : List Char} (noLineEnd : '\n' ∉ word)
    (h : word <+: line ++ '\n' :: after) : word <+: line := by
  rcases List.prefix_or_prefix_of_prefix h (List.prefix_append line _) with within | beyond
  · exact within
  · obtain ⟨more, rfl⟩ := beyond
    rcases List.prefix_cons_iff.mp ((List.prefix_append_right_inj line).mp h) with none | next
    · rw [none, List.append_nil]
    · obtain ⟨later, rfl, -⟩ := next
      simp at noLineEnd

/-- Joined lines start with the first of them. -/
theorem prefix_intercalate_cons (line : List Char) (lines : List (List Char)) :
    line <+: ['\n'].intercalate (line :: lines) := by
  cases lines with
  | nil => rw [List.intercalate_singleton]
  | cons next lines =>
    rw [List.intercalate_cons_cons, List.append_assoc]
    exact List.prefix_append line _

/-- Of lines that are shown in part, each from its start, every position that is shown stands in the
text, and so does what starts there. -/
theorem exists_shows_of_lines {shown lines : List (List Char)}
    (starts : List.Forall₂ (fun front line => front <+: line) shown lines)
    (noLineEnd : ∀ line ∈ lines, '\n' ∉ line) (more : List (List Char))
    (inVisible : p ≤ (['\n'].intercalate shown).length) :
    ∃ q, Shows (['\n'].intercalate (lines ++ more)) (['\n'].intercalate shown) q p ∧
      ∀ word, '\n' ∉ word → word <+: (['\n'].intercalate shown).drop p →
        word <+: (['\n'].intercalate (lines ++ more)).drop q := by
  induction starts generalizing p with
  | nil =>
    obtain rfl : p = 0 := Nat.le_zero.mp inVisible
    refine ⟨0, shows_of_prefix List.nil_prefix List.nil_prefix (Nat.le_refl 0), ?_⟩
    rintro word - starts
    rw [List.prefix_nil.mp starts]
    exact List.nil_prefix
  | @cons front line shown lines isPrefix later ih =>
    have inText := isPrefix.trans (prefix_intercalate_cons line (lines ++ more))
    -- The position stands on the first shown line or behind its line end.
    by_cases within : p ≤ front.length
    · refine ⟨p, shows_of_prefix inText (prefix_intercalate_cons front shown) within, ?_⟩
      intro word noLineEnd starts
      have onLine : word <+: front.drop p := by
        cases shown with
        | nil => rwa [List.intercalate_singleton] at starts
        | cons next shown =>
          rw [List.intercalate_cons_cons, List.append_assoc, List.singleton_append,
            List.drop_append_of_le_length within] at starts
          exact prefix_of_prefix_line noLineEnd starts
      exact onLine.trans (List.IsPrefix.drop inText p)
    · cases later with
      | nil =>
        rw [List.intercalate_singleton] at inVisible
        exact absurd inVisible within
      | @cons next nextLine shown lines _ _ =>
        obtain ⟨p, rfl⟩ : ∃ r, p = front.length + (r + 1) := ⟨p - front.length - 1, by omega⟩
        have noneIn : '\n' ∉ line := noLineEnd line List.mem_cons_self
        have noneShown : '\n' ∉ front := fun inside => noneIn (isPrefix.mem inside)
        have noneLater : ∀ l ∈ nextLine :: lines, '\n' ∉ l := fun l listed =>
          noLineEnd l (List.mem_cons_of_mem line listed)
        have first (l m : List Char) (ls : List (List Char)) : ['\n'].intercalate (l :: m :: ls) =
            l ++ '\n' :: ['\n'].intercalate (m :: ls) := by
          rw [List.intercalate_cons_cons, List.append_assoc, List.singleton_append]
        have drops (l t : List Char) (i : ℕ) :
            (l ++ '\n' :: t).drop (l.length + (i + 1)) = t.drop i := by
          rw [List.drop_length_add_append, List.drop_succ_cons]
        simp only [List.cons_append, first, List.length_append, List.length_cons] at inVisible ih ⊢
        obtain ⟨q, shows, words⟩ := ih noneLater (p := p) (by omega)
        refine ⟨line.length + (q + 1), shows.later line front noneIn noneShown, ?_⟩
        intro word onLine starts
        rw [drops] at starts ⊢
        exact words word onLine starts

/-- The lines without their comments are the start of lines of the text; the text has one more line
at most, which is empty. -/
theorem exists_lines (s : List Char) : ∃ lines more, pieces (· == '\n') s = lines ++ more ∧
    List.Forall₂ (fun front line => front <+: line) ((linesOf s).map (beforeComment none))
      lines := by
  have uncommented (line : List Char) : beforeComment none line <+: line :=
    (isUncommented_beforeComment line).isFront
  have withReturn (line : List Char) : beforeComment none (dropReturn line) <+: line := by
    refine (uncommented _).trans ?_
    unfold dropReturn
    split
    · exact List.dropLast_prefix line
    · exact List.prefix_rfl
  have ended (lines : List (List Char)) : List.Forall₂ (fun front line => front <+: line)
      ((lines.map dropReturn).map (beforeComment none)) lines := by
    rw [List.map_map, List.forall₂_map_left_iff]
    exact List.forall₂_same.mpr fun line _ => withReturn line
  rcases List.eq_nil_or_concat (pieces (· == '\n') s) with none | ⟨lines, last, whole⟩
  · exact absurd none (pieces_ne_nil _ s)
  · rw [linesOf, whole, List.concat_eq_append]
    simp only [List.dropLast_concat, List.getLast?_concat, Option.toList_some]
    cases last with
    | nil => exact ⟨lines, [[]], rfl, by simpa using ended lines⟩
    | cons c last =>
      refine ⟨lines ++ [c :: last], [], (List.append_nil _).symm, ?_⟩
      rw [List.map_append]
      exact List.rel_append (ended lines) (.cons (uncommented _) .nil)

/-- Every position of the visible text is shown by one of the text, where the same starts up to the
end of the line. -/
theorem exists_shows (s : List Char) (inVisible : p ≤ (stripComments s).length) :
    ∃ q, Shows s (stripComments s) q p ∧
      ∀ word, '\n' ∉ word → word <+: (stripComments s).drop p → word <+: s.drop q := by
  obtain ⟨lines, more, whole, starts⟩ := exists_lines s
  have noLineEnd : ∀ line ∈ lines, '\n' ∉ line := by
    intro line listed inside
    have isPiece : line ∈ pieces (· == '\n') s := whole ▸ List.mem_append_left more listed
    simpa using not_sep_of_mem_pieces isPiece '\n' inside
  have joined := intercalate_pieces '\n' s
  rw [whole] at joined
  have shown := exists_shows_of_lines starts noLineEnd more inVisible
  rwa [joined] at shown

/-- A call that is visible starts at a position of the text. -/
theorem exists_shows_of_opensCall (s : List Char) (p : ℕ) :
    ∃ q, ∀ rest, OpensCall (stripComments s) p rest →
      Shows s (stripComments s) q p ∧ callee <+: s.drop q := by
  by_cases inVisible : p ≤ (stripComments s).length
  · obtain ⟨q, shows, words⟩ := exists_shows s inVisible
    refine ⟨q, fun rest opens => ⟨shows, words callee (by decide) ?_⟩⟩
    obtain ⟨blanks, -, whole⟩ := opens.2
    rw [whole]
    exact List.prefix_append callee _
  · exact ⟨0, fun rest opens => absurd (Nat.le_of_lt opens.2.lt_length) inVisible⟩

end Places

/-- What follows the `#` of a comment, on any lines, does not change what a marker file declares.
Each declaration stands where its call starts in the text, comments and line ends included, and its
line is the number of the line there. -/
theorem declarations_in_place (text : String) :
    (∀ other : String, DiffersInComments text.toList other.toList →
      declarations other = declarations text) ∧
    ∃ visible places, IsVisible text.toList visible ∧ places.Pairwise (· < ·) ∧
      (∀ q, q ∈ places ↔ ∃ p rest, Shows text.toList visible q p ∧ OpensCall visible p rest) ∧
      List.Forall₂ (IsDeclaredAt text.toList visible) places (declarations text) := by
  constructor
  · intro other differs
    rw [declarations, declarations, stripComments_eq_of_differsInComments differs]
  obtain ⟨positions, ascending, isCall, declared⟩ :=
    areAllDeclarations_calls (stripComments text.toList)
  -- Each call in what is visible is mapped to the one place of the text that shows it.
  choose place shown using exists_shows_of_opensCall text.toList
  refine ⟨_, positions.map place, isVisible_stripComments text.toList, ?_, fun q => ?_, ?_⟩
  · rw [List.pairwise_map]
    refine ascending.imp_of_mem fun {p p'} listed listed' before => ?_
    obtain ⟨-, rest, opens⟩ := (isCall p).mp listed
    obtain ⟨-, rest', opens'⟩ := (isCall p').mp listed'
    exact (shown p rest opens).1.lt (shown p' rest' opens').1 before
  · rw [List.mem_map]
    constructor
    · rintro ⟨p, listed, rfl⟩
      obtain ⟨-, rest, opens⟩ := (isCall p).mp listed
      exact ⟨p, rest, (shown p rest opens).1, opens⟩
    · rintro ⟨p, rest, shows, opens⟩
      exact ⟨p, (isCall p).mpr ⟨trivial, rest, opens⟩, (shown p rest opens).1.eq_of_eq shows⟩
  · rw [List.forall₂_map_left_iff]
    refine declared.imp fun p d declaredAt => ?_
    obtain ⟨rest, args, opens, -, -, line⟩ := id declaredAt
    obtain ⟨shows, starts⟩ := shown p rest opens
    exact ⟨⟨p, shows, declaredAt⟩, starts, shows.sameLine ▸ line⟩

/-- A call after a `#` in quotes and after another call over several lines, with both line ends. -/
example : declarations ("f('#', # (\r\n  g()\n) # terraform_module()\n" ++
    "terraform_module # \"\r\n  (name = 'a')") = [⟨some "a", 4⟩] := by decide +kernel

end TerraDeps.Marker
