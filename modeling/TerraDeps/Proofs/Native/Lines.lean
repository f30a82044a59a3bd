import Mathlib.Data.List.TakeWhile
import TerraDeps.Native.Blocks
import TerraDeps.Proofs.Traversal

/-!
# Line ends and the readers of the native syntax

Whatever a reader passes over, it leaves an end of the text, and on the line that the line ends in
between make. Of a text in which every line is ended it leaves such a text again; so no reader that
looks some characters ahead can look past the end of one. What is wrong with a part of a quoted
string is reported on the line that the string starts on, or on that of the part (`line_of_part`).
-/

set_option autoImplicit false

namespace TerraDeps.Native

open Text

/-- The cursor stands further on in the text that begins on line `line`, on the line that the line
ends before it make. -/
structure Cursor.IsPast (c : Cursor) (line : ℕ) (s : List Char) : Prop where
  suffix : c.rest <:+ s
  lines : c.line + c.rest.count '\n' = line + s.count '\n'

namespace Cursor.IsPast

variable {c d : Cursor} {line : ℕ} {e : Char} {s : List Char}

/-- A text begins on its line. -/
theorem refl (line : ℕ) (s : List Char) : (⟨line, s⟩ : Cursor).IsPast line s :=
  ⟨List.suffix_refl s, rfl⟩

/-- What is past a place further on is past the first place. -/
theorem trans (later : d.IsPast c.line c.rest) (first : c.IsPast line s) : d.IsPast line s :=
  ⟨later.suffix.trans first.suffix, later.lines.trans first.lines⟩

/-- The line further on is no earlier. -/
theorem line_le (h : c.IsPast line s) : line ≤ c.line := by
  have lines := h.lines
  have fewer := h.suffix.sublist.count_le '\n'
  omega

/-- A line end is passed over by going to the next line. -/
theorem newline (h : c.IsPast (line + 1) s) : c.IsPast line ('\n' :: s) where
  suffix := h.suffix.trans (List.suffix_cons '\n' s)
  lines := by
    rw [h.lines, List.count_cons_self]
    omega

/-- What holds no line end is passed over on one line. -/
theorem append (passed : List Char) (noLineEnd : '\n' ∉ passed) (line : ℕ) (s : List Char) :
    (⟨line, s⟩ : Cursor).IsPast line (passed ++ s) where
  suffix := List.suffix_append passed s
  lines := by rw [List.count_append, List.count_eq_zero.mpr noLineEnd, Nat.zero_add]

/-- A character other than a line end is passed over on its line. -/
theorem cons (notNewline : e ≠ '\n') (h : c.IsPast line s) : c.IsPast line (e :: s) := by
  have first : (⟨line, s⟩ : Cursor).IsPast line ([e] ++ s) :=
    append _ (by simpa using notNewline.symm) line s
  exact trans (c := ⟨line, s⟩) h first

/-- Characters other than line ends are passed over on their line. -/
theorem dropWhile {p : Char → Bool} (notNewline : p '\n' = false) (line : ℕ) (s : List Char) :
    (⟨line, s.dropWhile p⟩ : Cursor).IsPast line s := by
  have passed : '\n' ∉ s.takeWhile p := fun isMember => by
    simpa [notNewline] using List.mem_takeWhile_imp isMember
  have whole := append _ passed line (s.dropWhile p)
  rwa [List.takeWhile_append_dropWhile] at whole

end Cursor.IsPast

section Reading

variable {start line count : ℕ} {c : Char} {s rest : List Char} {after : Cursor}

/-- Past a line end the next line begins. -/
theorem nextLine_add_count : (if c = '\n' then line + 1 else line) + s.count '\n' =
    line + (c :: s).count '\n' := by
  rw [List.count_cons]
  by_cases isNewline : c = '\n'
  · rw [if_pos isNewline, isNewline, if_pos (beq_self_eq_true '\n')]
    omega
  · rw [if_neg isNewline, if_neg (by simpa using isNewline)]
    rfl

/-- Digits that make a number hold no character that is no digit. -/
theorem not_mem_of_hexNumberFrom? {value n : ℕ} {digits : List Char}
    (h : hexNumberFrom? value digits = some n) (noDigit : hexValue? c = none) : c ∉ digits := by
  induction digits generalizing value with
  | nil => exact List.not_mem_nil
  | cons d digits ih =>
    obtain ⟨v, isDigit, later⟩ := Option.bind_eq_some_iff.mp h
    have different : c ≠ d := by
      rintro rfl
      rw [noDigit] at isDigit
      contradiction
    simp [different, ih later]

/-- Digits that write a number hold no other character than a plus sign. -/
theorem not_mem_of_hexNumber? {n : ℕ} {digits : List Char} (h : hexNumber? digits = some n)
    (noDigit : hexValue? c = none) (notSign : c ≠ '+') : c ∉ digits := by
  unfold hexNumber? at h
  split at h
  · simpa [notSign] using not_mem_of_hexNumberFrom? h noDigit
  · exact not_mem_of_hexNumberFrom? h noDigit
  · contradiction

/-- The digits of a unicode escape are all there. -/
theorem unicodeEscape_eq_ok (h : unicodeEscape line count s = .ok (c, rest)) :
    count ≤ s.length ∧ rest = s.drop count ∧
      (hexNumber? (s.take count)).bind charOfCode? = some c := by
  unfold unicodeEscape at h
  simp only at h
  split at h
  · rename_i found
    obtain ⟨rfl, rfl⟩ := Prod.mk.inj (Except.ok.inj h)
    split at found
    · rename_i long
      rw [List.length_take] at long
      exact ⟨by omega, rfl, found⟩
    · contradiction
  · contradiction

/-- An escape by a number stands on one line. -/
theorem isPast_unicodeEscape (h : unicodeEscape line count s = .ok (c, rest)) :
    (⟨line, rest⟩ : Cursor).IsPast line s := by
  obtain ⟨-, rfl, code⟩ := unicodeEscape_eq_ok h
  obtain ⟨n, number, -⟩ := Option.bind_eq_some_iff.mp code
  have noLineEnd : '\n' ∉ s.take count := not_mem_of_hexNumber? number rfl (by decide)
  have passed := Cursor.IsPast.append _ noLineEnd line (s.drop count)
  rwa [List.take_append_drop] at passed

/-- An escape sequence stands on one line. -/
theorem isPast_escape (h : escape line s = .ok (c, rest)) :
    (⟨line, rest⟩ : Cursor).IsPast line s := by
  cases s with
  | nil => contradiction
  | cons d s =>
    have notNewline : d ≠ '\n' := by
      rintro rfl
      contradiction
    refine .cons notNewline ?_
    obtain ⟨e, reads⟩ | ⟨count, reads⟩ | refuses := escape_cons_cases d
    · rw [reads] at h
      obtain ⟨-, rfl⟩ := Prod.mk.inj (Except.ok.inj h)
      exact .refl line _
    · rw [reads] at h
      exact isPast_unicodeEscape h
    · rw [refuses] at h
      contradiction

/-- A part of a string stands on one line. -/
theorem isPast_part {p : Part} (h : part start line s = .ok (p, rest)) :
    (⟨line, rest⟩ : Cursor).IsPast line s := by
  cases s with
  | nil => contradiction
  | cons d s =>
    simp only [part] at h
    split at h
    · contradiction
    rename_i notNewline
    refine .cons notNewline ?_
    split at h
    · obtain ⟨-, rfl⟩ := Prod.mk.inj (Except.ok.inj h)
      exact .refl line _
    split at h
    · obtain ⟨⟨e, middle⟩, read, same⟩ := map_eq_ok_iff.mp h
      exact (Prod.mk.inj same).2 ▸ isPast_escape read
    split at h
    · rename_i twice
      obtain ⟨-, rfl⟩ := Prod.mk.inj (Except.ok.inj h)
      obtain ⟨more, rfl⟩ := List.isPrefixOf_iff_prefix.mp (Bool.and_eq_true_iff.mp twice).2
      exact .append _ (by simp [Ne.symm notNewline]) line more
    split at h
    · rename_i once
      obtain ⟨-, rfl⟩ := Prod.mk.inj (Except.ok.inj h)
      obtain ⟨more, rfl⟩ := List.head?_eq_some_iff.mp
        (of_decide_eq_true (Bool.and_eq_true_iff.mp once).2)
      exact .append ['{'] (by simp) line more
    · obtain ⟨-, rfl⟩ := Prod.mk.inj (Except.ok.inj h)
      exact .refl line _

/-- An escape by a number that is refused is reported on its own line. -/
theorem line_of_unicodeEscape {e : ScanError} (h : unicodeEscape line count s = .error e) :
    e.line = line := by
  unfold unicodeEscape at h
  simp only at h
  split at h
  · contradiction
  · exact Except.error.inj h ▸ rfl

/-- An escape sequence that is refused is reported on its own line. -/
theorem line_of_escape {e : ScanError} (h : escape line s = .error e) :
    e.line = line := by
  cases s with
  | nil => exact Except.error.inj h ▸ rfl
  | cons d s =>
    obtain ⟨c, reads⟩ | ⟨count, reads⟩ | refuses := escape_cons_cases d
    · rw [reads] at h
      contradiction
    · rw [reads] at h
      exact line_of_unicodeEscape h
    · rw [refuses] at h
      exact Except.error.inj h ▸ rfl

/-- What is wrong with a part of a string is wrong on the line of the string's start or on that of
the part. -/
theorem line_of_part {e : ScanError} (h : part start line s = .error e) :
    e.line = start ∨ e.line = line := by
  cases s with
  | nil => exact .inl (Except.error.inj h ▸ rfl)
  | cons d s =>
    simp only [part] at h
    split at h
    · exact .inl (Except.error.inj h ▸ rfl)
    split at h
    · contradiction
    split at h
    · exact .inr (line_of_escape (map_eq_error_iff.mp h))
    split at h
    · contradiction
    split at h
    · contradiction
    · contradiction

/-- A template or string that is skipped counts its lines. -/
theorem isPast_skip {frames : List Frame} (h : skip frames line s = .ok after) :
    after.IsPast line s := by
  fun_induction skip frames line s with
  | case1 line s =>
    obtain rfl := Except.ok.inj h
    exact .refl line s
  | case2 => contradiction
  | case3 line start groups outer rest ih => exact .cons (by decide) (ih h)
  | case4 line start outer rest _ ih => exact .cons (by decide) (ih h)
  | case5 line start outer rest _ groups ih => exact .cons (by decide) (ih h)
  | case6 line start groups outer rest _ _ ih => exact .cons (by decide) (ih h)
  | case7 line start groups outer d rest _ _ _ ih =>
    have later := ih h
    split at later
    · rename_i isNewline
      exact isNewline ▸ later.newline
    · rename_i notNewline
      exact .cons notNewline later
  | case8 => contradiction
  | case9 line start outer s rest read ih => exact (ih h).trans (isPast_part read)
  | case10 line start outer s text rest read ih => exact (ih h).trans (isPast_part read)
  | case11 line start outer s rest read ih => exact (ih h).trans (isPast_part read)

/-- A string literal counts its lines. -/
theorem isPast_literal {l : Literal} (h : literal start line s = .ok (l, after)) :
    after.IsPast line s := by
  fun_induction literal start line s generalizing l after with
  | case1 => contradiction
  | case2 line s rest read =>
    obtain ⟨-, rfl⟩ := Prod.mk.inj (Except.ok.inj h)
    exact isPast_part read
  | case3 line s text rest read ih =>
    obtain ⟨⟨l', c⟩, later, same⟩ := map_eq_ok_iff.mp h
    exact (Prod.mk.inj same).2 ▸ (ih later).trans (isPast_part read)
  | case4 => contradiction
  | case5 line s rest read middle skipped ih =>
    obtain ⟨⟨l', c⟩, later, same⟩ := map_eq_ok_iff.mp h
    exact (Prod.mk.inj same).2 ▸
      ((ih later).trans (isPast_skip skipped)).trans (isPast_part read)

/-- A block comment counts its lines. -/
theorem isPast_afterComment (h : afterComment start line s = .ok after) : after.IsPast line s := by
  fun_induction afterComment start line s with
  | case1 => contradiction
  | case2 line rest =>
    obtain rfl := Except.ok.inj h
    exact .append ['*', '/'] (by decide) line rest
  | case3 line d rest _ ih =>
    have later := ih h
    split at later
    · rename_i isNewline
      exact isNewline ▸ later.newline
    · rename_i notNewline
      exact .cons notNewline later

/-- The rest of a line is passed over on the line. -/
theorem isPast_afterLine (line : ℕ) (s : List Char) :
    (⟨line, afterLine s⟩ : Cursor).IsPast line s :=
  .dropWhile (by decide) line s

/-- What follows a line starts with its line end. -/
theorem eq_newline_of_afterLine {next : List Char} (h : afterLine s = c :: next) : c = '\n' := by
  have stops := List.head?_dropWhile_not (· != '\n') s
  rw [← afterLine, h] at stops
  simpa using stops

/-- The body of a heredoc counts its lines. -/
theorem isPast_heredocBody {marker : List Char} (h : heredocBody start marker line s = .ok after) :
    after.IsPast line s := by
  fun_induction heredocBody start marker line s with
  | case1 => contradiction
  | case2 line d rest _ =>
    obtain rfl := Except.ok.inj h
    exact isPast_afterLine line (d :: rest)
  | case3 => contradiction
  | case4 line d rest _ e next following ih =>
    have line := isPast_afterLine line (d :: rest)
    rw [following, eq_newline_of_afterLine following] at line
    exact (ih h).newline.trans line

/-- A heredoc counts its lines. -/
theorem isPast_heredoc (h : heredoc line s = .ok after) : after.IsPast line s := by
  simp only [heredoc] at h
  split at h
  · rename_i body opened
    have marker := Cursor.IsPast.dropWhile (p := isIdentPart) (by decide) line s
    have blanks := Cursor.IsPast.dropWhile (p := fun c => c = ' ' || c = '\t' || c = '\r')
      (by decide) line (s.dropWhile isIdentPart)
    rw [opened] at blanks
    exact ((isPast_heredocBody h).newline.trans blanks).trans marker
  · contradiction

/-- The text without a dash at its start. -/
def afterDash (s : List Char) : List Char :=
  if s.head? = some '-' then s.drop 1 else s

/-- Behind its sign and a dash, if any, a heredoc starts with a character that starts a name. -/
theorem heredocMarker?_open (s : List Char) : heredocMarker? (['<', '<'] ++ s) =
    if (afterDash s).head?.any isIdentStart then some (afterDash s) else none := rfl

/-- The sign of a heredoc stands on one line. -/
theorem isPast_heredocMarker? {body : List Char} (h : heredocMarker? s = some body) (line : ℕ) :
    (⟨line, body⟩ : Cursor).IsPast line s := by
  unfold heredocMarker? at h
  split at h
  · rename_i rest
    obtain ⟨-, same⟩ := (Option.ite_none_right_eq_some ..).mp h
    obtain rfl := Option.some.inj same
    split
    · rename_i dash
      obtain ⟨more, rfl⟩ := List.head?_eq_some_iff.mp dash
      exact .append ['<', '<', '-'] (by decide) line more
    · exact .append ['<', '<'] (by decide) line rest
  · contradiction

/-- The end of an operator stands on the line of its start. -/
theorem isPast_operatorEnd (h : hasOperatorEnd s = true) (line : ℕ) :
    (⟨line, s.drop 1⟩ : Cursor).IsPast line s := by
  obtain ⟨d, more, rfl, notNewline⟩ : ∃ d more, s = d :: more ∧ d ≠ '\n' := by
    cases s with
    | nil => contradiction
    | cons d more =>
      refine ⟨d, more, rfl, ?_⟩
      rintro rfl
      contradiction
  exact .cons notNewline (.refl line more)

/-- A token counts its lines. -/
theorem isPast_lexeme {kind : TokenKind} (h : lexeme line c s = .ok (kind, after)) :
    after.IsPast line (c :: s) := by
  have cursor {k : TokenKind} {d : Cursor}
      (h : (.ok (k, d) : Except ScanError (TokenKind × Cursor)) = .ok (kind, after)) : d = after :=
    (Prod.mk.inj (Except.ok.inj h)).2
  unfold lexeme at h
  split at h
  · rename_i isNewline
    exact isNewline ▸ cursor h ▸ (Cursor.IsPast.refl (line + 1) s).newline
  rename_i notNewline
  split at h
  · obtain ⟨⟨l, middle⟩, read, same⟩ := map_eq_ok_iff.mp h
    exact (Prod.mk.inj same).2 ▸ .cons notNewline (isPast_literal read)
  split at h
  · exact cursor h ▸ .cons notNewline (.refl line s)
  split at h
  · exact cursor h ▸ .cons notNewline (.refl line s)
  split at h
  · exact cursor h ▸ .cons notNewline (.dropWhile (by decide) line s)
  split at h
  · exact cursor h ▸ .cons notNewline (.dropWhile (by decide) line s)
  split at h
  · rename_i body opened
    obtain ⟨middle, read, same⟩ := map_eq_ok_iff.mp h
    exact (Prod.mk.inj same).2 ▸ (isPast_heredoc read).trans (isPast_heredocMarker? opened line)
  split at h
  · rename_i operator
    exact cursor h ▸ .cons notNewline (isPast_operatorEnd (Bool.and_eq_true_iff.mp operator).2 line)
  split at h
  · exact cursor h ▸ .cons notNewline (.refl line s)
  · exact cursor h ▸ .cons notNewline (.refl line s)

/-- A token or a gap leaves an end of the text, on the line that the line ends before it make. -/
theorem isPast_step {kind : Option TokenKind} (h : step line c s = .ok (kind, after)) :
    after.IsPast line (c :: s) := by
  unfold step at h
  split at h
  · rename_i gap
    obtain ⟨-, rfl⟩ := Prod.mk.inj (Except.ok.inj h)
    refine .cons ?_ (.refl line s)
    rintro rfl
    contradiction
  split at h
  · rename_i comment
    obtain ⟨-, rfl⟩ := Prod.mk.inj (Except.ok.inj h)
    refine .cons ?_ (isPast_afterLine line s)
    rintro rfl
    contradiction
  split at h
  · rename_i comment
    obtain ⟨slash, star⟩ := Bool.and_eq_true_iff.mp comment
    obtain ⟨more, rfl⟩ := List.head?_eq_some_iff.mp (of_decide_eq_true star)
    obtain ⟨middle, read, same⟩ := map_eq_ok_iff.mp h
    obtain rfl := of_decide_eq_true slash
    exact (Prod.mk.inj same).2 ▸ (isPast_afterComment read).trans
      (.append ['/', '*'] (by decide) line more)
  · obtain ⟨⟨k, middle⟩, read, same⟩ := map_eq_ok_iff.mp h
    exact (Prod.mk.inj same).2 ▸ isPast_lexeme read

end Reading

end TerraDeps.Native
