import Mathlib.Tactic.SplitIfs
import TerraDeps.Proofs.Native.Lines

/-!
# Reading up to the end of a line

Of a text whose last line is ended, everything but the line end itself is read before the line ends:
a string, a template, a comment or a heredoc that was open there would have been refused. So what is
read does not change when more text follows, and the tokens of such a text are followed by those of
the text after it.
-/

set_option autoImplicit false

namespace TerraDeps.Native

open Text

/-- The last line of the text is ended. -/
def EndsLine (s : List Char) : Prop :=
  s.getLast? = some '\n'

namespace EndsLine

variable {c : Char} {s t : List Char}

/-- A text whose last line is ended is not empty. -/
theorem ne_nil (ends : EndsLine s) : s ≠ [] := by
  rintro rfl
  contradiction

/-- A text whose last line is ended has a line end. -/
theorem mem (ends : EndsLine s) : '\n' ∈ s :=
  List.mem_of_getLast? ends

/-- What is left at the end of the text ends its last line, if it is not empty. -/
theorem of_suffix (ends : EndsLine s) (suffix : t <:+ s) (notEmpty : t ≠ []) : EndsLine t := by
  obtain ⟨front, rfl⟩ := suffix
  rwa [EndsLine, List.getLast?_append_of_ne_nil _ notEmpty] at ends

/-- Behind a character that is no line end, the last line is ended. -/
theorem of_cons (ends : EndsLine (c :: s)) (notNewline : c ≠ '\n') : EndsLine s := by
  refine ends.of_suffix (List.suffix_cons c s) ?_
  rintro rfl
  exact notNewline (Option.some.inj ends)

/-- One more character in front leaves the last line ended. -/
theorem cons (ends : EndsLine s) (c : Char) : EndsLine (c :: s) := by
  rw [EndsLine, List.getLast?_cons, ends]
  rfl

/-- Where no line end has been passed over, the last one is still to come. -/
theorem of_isPast {line : ℕ} (ends : EndsLine s) (past : (⟨line, t⟩ : Cursor).IsPast line s) :
    EndsLine t := by
  refine ends.of_suffix past.suffix ?_
  rintro rfl
  have counted : line + 0 = line + s.count '\n' := past.lines
  have positive := List.count_pos_iff.mpr ends.mem
  omega

variable {p : Char → Bool}

/-- More text does not matter for what is dropped on a line. -/
theorem dropWhile_append (ends : EndsLine s) (notNewline : p '\n' = false) (more : List Char) :
    (s ++ more).dropWhile p = s.dropWhile p ++ more := by
  have stops : s.dropWhile p ≠ [] := fun nothing => by
    have all := List.dropWhile_eq_nil_iff.mp nothing '\n' ends.mem
    rw [notNewline] at all
    contradiction
  rw [List.dropWhile_append, if_neg (by simpa using stops)]

/-- More text does not matter for what is taken on a line. -/
theorem takeWhile_append (ends : EndsLine s) (notNewline : p '\n' = false) (more : List Char) :
    (s ++ more).takeWhile p = s.takeWhile p := by
  have whole : (s ++ more).takeWhile p ++ (s.dropWhile p ++ more) =
      s.takeWhile p ++ (s.dropWhile p ++ more) := by
    calc (s ++ more).takeWhile p ++ (s.dropWhile p ++ more)
        = (s ++ more).takeWhile p ++ (s ++ more).dropWhile p := by
          rw [ends.dropWhile_append notNewline]
      _ = s.takeWhile p ++ s.dropWhile p ++ more := by
          rw [List.takeWhile_append_dropWhile, List.takeWhile_append_dropWhile]
      _ = s.takeWhile p ++ (s.dropWhile p ++ more) := List.append_assoc ..
  exact List.append_cancel_right whole

/-- What is dropped on a line leaves the last line ended. -/
theorem dropWhile (ends : EndsLine s) (notNewline : p '\n' = false) : EndsLine (s.dropWhile p) :=
  ends.of_isPast (.dropWhile notNewline 0 s)

/-- More text does not matter for the first character. -/
theorem head?_append (ends : EndsLine s) (more : List Char) : (s ++ more).head? = s.head? :=
  List.head?_append_of_ne_nil s ends.ne_nil

/-- More text follows what is behind the first character. -/
theorem drop_one_append (ends : EndsLine s) (more : List Char) :
    (s ++ more).drop 1 = s.drop 1 ++ more :=
  List.drop_append_of_le_length (List.length_pos_iff.mpr ends.ne_nil)

/-- A pair of characters that is not found before the last line end is not found across it. -/
theorem isPrefixOf_append (ends : EndsLine s) {a b : Char} (notNewline : a ≠ '\n')
    (more : List Char) : [a, b].isPrefixOf (s ++ more) = [a, b].isPrefixOf s := by
  match s, ends with
  | [d], ends =>
    obtain rfl : d = '\n' := by simpa [EndsLine] using ends
    simp [List.isPrefixOf, notNewline]
  | d :: e :: s, _ => simp [List.isPrefixOf]

end EndsLine

/-- The cursor when more follows the text. -/
def Cursor.append (c : Cursor) (more : List Char) : Cursor :=
  ⟨c.line, c.rest ++ more⟩

section Reading

variable {start line count : ℕ} {c : Char} {s rest : List Char} {after : Cursor}

/-- More text follows an escape by a number. -/
theorem unicodeEscape_append (h : unicodeEscape line count s = .ok (c, rest)) (more : List Char) :
    unicodeEscape line count (s ++ more) = .ok (c, rest ++ more) := by
  obtain ⟨long, rfl, code⟩ := unicodeEscape_eq_ok h
  have digits : (s.take count).length = count := List.length_take_of_le long
  simp only [unicodeEscape, List.take_append_of_le_length long, digits, if_true, code,
    List.drop_append_of_le_length long]

/-- More text follows an escape sequence. -/
theorem escape_append (h : escape line s = .ok (c, rest)) (more : List Char) :
    escape line (s ++ more) = .ok (c, rest ++ more) := by
  cases s with
  | nil => contradiction
  | cons d s =>
    rw [List.cons_append]
    obtain ⟨e, reads⟩ | ⟨count, reads⟩ | refuses := escape_cons_cases d
    · rw [reads] at h ⊢
      obtain ⟨rfl, rfl⟩ := Prod.mk.inj (Except.ok.inj h)
      rfl
    · rw [reads] at h ⊢
      exact unicodeEscape_append h more
    · rw [refuses] at h
      contradiction

/-- More text follows a part of a string. -/
theorem part_append {p : Part} (ends : EndsLine s) (h : part start line s = .ok (p, rest))
    (more : List Char) : part start line (s ++ more) = .ok (p, rest ++ more) := by
  cases s with
  | nil => contradiction
  | cons d s =>
    simp only [List.cons_append, part] at h ⊢
    by_cases notNewline : d = '\n'
    · simp [notNewline] at h
    have ended := ends.of_cons notNewline
    rw [ended.isPrefixOf_append notNewline, ended.head?_append]
    split_ifs at h ⊢
    · obtain ⟨rfl, rfl⟩ := Prod.mk.inj (Except.ok.inj h)
      rfl
    · obtain ⟨⟨e, middle⟩, read, same⟩ := map_eq_ok_iff.mp h
      obtain ⟨rfl, rfl⟩ := Prod.mk.inj same
      rw [escape_append read]
      rfl
    · rename_i twice
      obtain ⟨rfl, rfl⟩ := Prod.mk.inj (Except.ok.inj h)
      have two : 2 ≤ s.length :=
        (List.isPrefixOf_iff_prefix.mp (Bool.and_eq_true_iff.mp twice).2).length_le
      rw [List.drop_append_of_le_length two]
    · obtain ⟨rfl, rfl⟩ := Prod.mk.inj (Except.ok.inj h)
      rw [ended.drop_one_append]
    · obtain ⟨rfl, rfl⟩ := Prod.mk.inj (Except.ok.inj h)
      rfl

/-- What is open is closed before the line ends, and by what stands before it. -/
theorem skip_append {frames : List Frame} (ends : EndsLine s) (h : skip frames line s = .ok after) :
    EndsLine after.rest ∧ ∀ more, skip frames line (s ++ more) = .ok (after.append more) := by
  fun_induction skip frames line s with
  | case1 line s =>
    obtain rfl := Except.ok.inj h
    exact ⟨ends, fun more => by rw [skip]; rfl⟩
  | case2 => contradiction
  | case3 line start groups outer rest ih =>
    obtain ⟨ended, reads⟩ := ih (ends.of_cons (by decide)) h
    exact ⟨ended, fun more => by rw [List.cons_append, skip_template]; exact reads more⟩
  | case4 line start outer rest _ ih =>
    obtain ⟨ended, reads⟩ := ih (ends.of_cons (by decide)) h
    exact ⟨ended, fun more => by rw [List.cons_append, skip_template]; exact reads more⟩
  | case5 line start outer rest _ groups ih =>
    obtain ⟨ended, reads⟩ := ih (ends.of_cons (by decide)) h
    exact ⟨ended, fun more => by rw [List.cons_append, skip_template]; exact reads more⟩
  | case6 line start groups outer rest _ _ ih =>
    obtain ⟨ended, reads⟩ := ih (ends.of_cons (by decide)) h
    exact ⟨ended, fun more => by rw [List.cons_append, skip_template]; exact reads more⟩
  | case7 line start groups outer d rest notOpen notClose notQuote ih =>
    -- the template is open, and so the line end is not the last that was read
    have notEmpty : rest ≠ [] := by
      rintro rfl
      simp [skip] at h
    obtain ⟨ended, reads⟩ := ih (ends.of_suffix (List.suffix_cons d rest) notEmpty) h
    refine ⟨ended, fun more => ?_⟩
    rw [List.cons_append, skip_template, if_neg notOpen, if_neg notClose, if_neg notQuote]
    exact reads more
  | case8 => contradiction
  | case9 line start outer s rest read ih =>
    obtain ⟨ended, reads⟩ := ih (ends.of_isPast (isPast_part read)) h
    refine ⟨ended, fun more => ?_⟩
    simp only [skip_quoted, part_append ends read, reads]
  | case10 line start outer s text rest read ih =>
    obtain ⟨ended, reads⟩ := ih (ends.of_isPast (isPast_part read)) h
    refine ⟨ended, fun more => ?_⟩
    rw [skip_quoted, part_append ends read]
    exact reads more
  | case11 line start outer s rest read ih =>
    obtain ⟨ended, reads⟩ := ih (ends.of_isPast (isPast_part read)) h
    refine ⟨ended, fun more => ?_⟩
    rw [skip_quoted, part_append ends read]
    exact reads more

/-- More text follows a string literal, and the last line stays ended behind it. -/
theorem literal_append {l : Literal} (ends : EndsLine s)
    (h : literal start line s = .ok (l, after)) :
    EndsLine after.rest ∧ ∀ more, literal start line (s ++ more) = .ok (l, after.append more) := by
  fun_induction literal start line s generalizing l after with
  | case1 => contradiction
  | case2 line s rest read =>
    obtain ⟨rfl, rfl⟩ := Prod.mk.inj (Except.ok.inj h)
    refine ⟨ends.of_isPast (isPast_part read), fun more => ?_⟩
    rw [literal_eq, part_append ends read]
    rfl
  | case3 line s text rest read ih =>
    obtain ⟨⟨l', c⟩, later, same⟩ := map_eq_ok_iff.mp h
    obtain ⟨rfl, rfl⟩ := Prod.mk.inj same
    obtain ⟨ended, reads⟩ := ih (ends.of_isPast (isPast_part read)) later
    refine ⟨ended, fun more => ?_⟩
    rw [literal_eq, part_append ends read]
    simp only [reads, Except.map]
  | case4 => contradiction
  | case5 line s rest read middle skipped ih =>
    obtain ⟨⟨l', c⟩, later, same⟩ := map_eq_ok_iff.mp h
    obtain ⟨rfl, rfl⟩ := Prod.mk.inj same
    obtain ⟨between, skips⟩ := skip_append (ends.of_isPast (isPast_part read)) skipped
    obtain ⟨ended, reads⟩ := ih between later
    refine ⟨ended, fun more => ?_⟩
    rw [literal_eq, part_append ends read]
    simp only [skips, Cursor.append, reads, Except.map]

/-- More text follows a block comment, and the last line stays ended behind it. -/
theorem afterComment_append (ends : EndsLine s) (h : afterComment start line s = .ok after) :
    EndsLine after.rest ∧
      ∀ more, afterComment start line (s ++ more) = .ok (after.append more) := by
  fun_induction afterComment start line s with
  | case1 => contradiction
  | case2 line rest =>
    obtain rfl := Except.ok.inj h
    refine ⟨ends.of_isPast (.append ['*', '/'] (by decide) line rest), fun more => ?_⟩
    rfl
  | case3 line d rest noEnd ih =>
    have notEmpty : rest ≠ [] := by
      rintro rfl
      contradiction
    obtain ⟨ended, reads⟩ := ih (ends.of_suffix (List.suffix_cons d rest) notEmpty) h
    refine ⟨ended, fun more => ?_⟩
    obtain ⟨e, rest, rfl⟩ := List.exists_cons_of_ne_nil notEmpty
    rw [List.cons_append, List.cons_append, afterComment]
    · exact reads more
    · intro after isStar isEnd
      obtain ⟨rfl, -⟩ := List.cons.inj isEnd
      exact noEnd rest isStar rfl

/-- More text follows what is behind a line. -/
theorem afterLine_append (ends : EndsLine s) (more : List Char) :
    afterLine (s ++ more) = afterLine s ++ more :=
  ends.dropWhile_append (by decide) more

/-- More text follows the body of a heredoc, and the last line stays ended behind it. -/
theorem heredocBody_append {marker : List Char} (ends : EndsLine s)
    (h : heredocBody start marker line s = .ok after) :
    EndsLine after.rest ∧
      ∀ more, heredocBody start marker line (s ++ more) = .ok (after.append more) := by
  fun_induction heredocBody start marker line s with
  | case1 => contradiction
  | case2 line d rest isMarker =>
    obtain rfl := Except.ok.inj h
    refine ⟨ends.of_isPast (isPast_afterLine line _), fun more => ?_⟩
    rw [List.cons_append, heredocBody_cons, ← List.cons_append,
      ends.takeWhile_append (by decide), if_pos isMarker, afterLine_append ends]
    rfl
  | case3 => contradiction
  | case4 line d rest notMarker e next following ih =>
    have notEmpty : next ≠ [] := by
      rintro rfl
      simp [heredocBody] at h
    have suffix : next <:+ d :: rest := by
      refine (List.suffix_cons e next).trans ?_
      exact following ▸ (isPast_afterLine line (d :: rest)).suffix
    obtain ⟨ended, reads⟩ := ih (ends.of_suffix suffix notEmpty) h
    refine ⟨ended, fun more => ?_⟩
    rw [List.cons_append, heredocBody_cons, ← List.cons_append, ends.takeWhile_append (by decide),
      if_neg notMarker, afterLine_append ends, following]
    exact reads more

/-- More text follows a heredoc, and the last line stays ended behind it. -/
theorem heredoc_append (ends : EndsLine s) (h : heredoc line s = .ok after) :
    EndsLine after.rest ∧ ∀ more, heredoc line (s ++ more) = .ok (after.append more) := by
  have ended := ends.dropWhile (p := isIdentPart) (by decide)
  simp only [heredoc] at h
  split at h
  · rename_i body opened
    have notEmpty : body ≠ [] := by
      rintro rfl
      simp [heredocBody] at h
    have suffix : body <:+ s.dropWhile isIdentPart := by
      refine (List.suffix_cons '\n' body).trans ?_
      exact opened ▸ List.dropWhile_suffix _
    obtain ⟨rest, reads⟩ := heredocBody_append (ended.of_suffix suffix notEmpty) h
    refine ⟨rest, fun more => ?_⟩
    simp only [heredoc]
    rw [ends.takeWhile_append (by decide), ends.dropWhile_append (by decide),
      ended.dropWhile_append (by decide), opened]
    exact reads more
  · contradiction

/-- More text does not matter for whether a heredoc starts. -/
theorem heredocMarker?_append (ends : EndsLine s) (more : List Char) :
    heredocMarker? (c :: (s ++ more)) = (heredocMarker? (c :: s)).map (· ++ more) := by
  obtain ⟨d, rest, rfl⟩ := List.exists_cons_of_ne_nil ends.ne_nil
  by_cases opens : c = '<' ∧ d = '<'
  · obtain ⟨rfl, rfl⟩ := opens
    have ended := ends.of_cons (by decide)
    by_cases dash : rest.head? = some '-'
    · obtain ⟨rest, rfl⟩ := List.head?_eq_some_iff.mp dash
      have afterDash := (ended.of_cons (by decide)).head?_append more
      simp only [heredocMarker?, List.cons_append, List.head?_cons, if_true, List.drop_one,
        List.tail_cons, afterDash]
      split <;> rfl
    · simp only [heredocMarker?, List.cons_append, ended.head?_append, if_neg dash]
      split <;> rfl
  · unfold heredocMarker?
    split <;> simp_all

/-- More text does not matter for whether an operator ends with the next character. -/
theorem hasOperatorEnd_append (ends : EndsLine s) (more : List Char) :
    hasOperatorEnd (s ++ more) = hasOperatorEnd s := by
  simp only [hasOperatorEnd, ends.head?_append]

/-- A heredoc starts with a less-than sign. -/
theorem eq_of_heredocMarker? {body : List Char} (h : heredocMarker? (c :: s) = some body) :
    c = '<' := by
  unfold heredocMarker? at h
  split at h <;> simp_all

/-- A less-than sign before a marker starts a heredoc. -/
theorem lexeme_of_marker {body : List Char} (h : heredocMarker? ('<' :: s) = some body) :
    lexeme line '<' s = (heredoc line body).map fun after => (.heredoc, after) := by
  rw [lexeme, if_neg (by decide), if_neg (by decide), if_neg (by decide), if_neg (by decide),
    if_neg (by decide), if_neg (by decide), h]

/-- A token other than a line end is read before the line ends, whatever follows the text. -/
theorem lexeme_append {kind : TokenKind} (ends : EndsLine s) (notNewline : c ≠ '\n')
    (h : lexeme line c s = .ok (kind, after)) :
    EndsLine after.rest ∧ ∀ more, lexeme line c (s ++ more) = .ok (kind, after.append more) := by
  by_cases quote : c = '"'
  · rw [lexeme, if_neg notNewline, if_pos quote] at h
    obtain ⟨⟨l, middle⟩, read, same⟩ := map_eq_ok_iff.mp h
    obtain ⟨rfl, rfl⟩ := Prod.mk.inj same
    obtain ⟨ended, reads⟩ := literal_append ends read
    refine ⟨ended, fun more => ?_⟩
    rw [lexeme, if_neg notNewline, if_pos quote, reads]
    rfl
  cases marker : heredocMarker? (c :: s) with
  | some body =>
    obtain rfl := eq_of_heredocMarker? marker
    have bodyEnds : EndsLine body := (ends.cons '<').of_isPast (isPast_heredocMarker? marker line)
    rw [lexeme_of_marker marker] at h
    obtain ⟨middle, read, same⟩ := map_eq_ok_iff.mp h
    obtain ⟨rfl, rfl⟩ := Prod.mk.inj same
    obtain ⟨ended, reads⟩ := heredoc_append bodyEnds read
    refine ⟨ended, fun more => ?_⟩
    have markerToo : heredocMarker? ('<' :: (s ++ more)) = some (body ++ more) := by
      rw [heredocMarker?_append ends, marker, Option.map_some]
    rw [lexeme_of_marker markerToo, reads]
    rfl
  | none =>
    refine ⟨?_, fun more => ?_⟩
    · have sameLine : after.line = line := by
        rw [lexeme, if_neg notNewline, if_neg quote, marker] at h
        split_ifs at h <;> exact (Prod.mk.inj (Except.ok.inj h)).2 ▸ rfl
      have past := isPast_lexeme h
      exact (ends.cons c).of_isPast ⟨past.suffix, sameLine ▸ past.lines⟩
    · rw [lexeme, if_neg notNewline, if_neg quote, heredocMarker?_append ends, marker,
        hasOperatorEnd_append ends, ends.dropWhile_append (by decide),
        ends.dropWhile_append (by decide), ends.takeWhile_append (by decide),
        ends.drop_one_append]
      rw [lexeme, if_neg notNewline, if_neg quote, marker] at h
      split_ifs at h ⊢ <;>
        (obtain ⟨rfl, rfl⟩ := Prod.mk.inj (Except.ok.inj h); rfl)

/-- A line end is read as such; any other token and any gap is read before the line ends, whatever
follows the text. -/
theorem step_append {kind : Option TokenKind} (ends : EndsLine (c :: s))
    (h : step line c s = .ok (kind, after)) :
    (kind = some .newline ∧ after.rest = s ∨ EndsLine after.rest) ∧
      ∀ more, step line c (s ++ more) = .ok (kind, after.append more) := by
  by_cases isNewline : c = '\n'
  · subst isNewline
    obtain ⟨rfl, rfl⟩ := Prod.mk.inj (Except.ok.inj h)
    exact ⟨.inl ⟨rfl, rfl⟩, fun more => rfl⟩
  have ended := ends.of_cons isNewline
  -- A gap, the two kinds of comment and a token, in the order of `step`.
  unfold step at h
  split at h
  · rename_i gap
    obtain ⟨rfl, rfl⟩ := Prod.mk.inj (Except.ok.inj h)
    exact ⟨.inr ended, fun more => by rw [step, if_pos gap]; rfl⟩
  rename_i noGap
  split at h
  · rename_i comment
    obtain ⟨rfl, rfl⟩ := Prod.mk.inj (Except.ok.inj h)
    refine ⟨.inr (ended.dropWhile (by decide)), fun more => ?_⟩
    rw [step, if_neg noGap, ended.head?_append, if_pos comment, afterLine_append ended]
    rfl
  rename_i noLineComment
  split at h
  · rename_i comment
    obtain ⟨slash, star⟩ := Bool.and_eq_true_iff.mp comment
    obtain ⟨middle, read, same⟩ := map_eq_ok_iff.mp h
    obtain ⟨rfl, rfl⟩ := Prod.mk.inj same
    obtain ⟨body, rfl⟩ := List.head?_eq_some_iff.mp (of_decide_eq_true star)
    obtain ⟨rest, reads⟩ := afterComment_append (ended.of_cons (by decide)) read
    refine ⟨.inr rest, fun more => ?_⟩
    rw [step, if_neg noGap, ended.head?_append, if_neg noLineComment, if_pos comment,
      ended.drop_one_append, List.drop_one, List.tail_cons, reads]
    rfl
  · rename_i noComment
    obtain ⟨⟨k, middle⟩, read, same⟩ := map_eq_ok_iff.mp h
    obtain ⟨rfl, rfl⟩ := Prod.mk.inj same
    obtain ⟨rest, reads⟩ := lexeme_append ended isNewline read
    refine ⟨.inr rest, fun more => ?_⟩
    rw [step, if_neg noGap, ended.head?_append, if_neg noLineComment, if_neg noComment, reads]
    rfl

end Reading

section Tokens

variable {line : ℕ} {s : List Char} {tokens : List Token}

/-- The last line of the tokens is ended. -/
def EndsTokenLine (tokens : List Token) : Prop :=
  tokens.getLast?.map Token.kind = some .newline

/-- One more token in front leaves the last line ended. -/
theorem EndsTokenLine.cons (ends : EndsTokenLine tokens) (t : Token) :
    EndsTokenLine (t :: tokens) := by
  obtain ⟨last, found, kind⟩ := Option.map_eq_some_iff.mp ends
  rw [EndsTokenLine, List.getLast?_cons, found, Option.getD_some, Option.map_some, kind]

/-- The tokens of lines that are all ended are followed by those of the text that follows. -/
theorem tokenizeFrom_append (ends : EndsLine s) (h : tokenizeFrom line s = .ok tokens) :
    EndsTokenLine tokens ∧ ∀ more, tokenizeFrom line (s ++ more) =
      (tokenizeFrom (line + s.count '\n') more).map fun later => tokens ++ later := by
  fun_induction tokenizeFrom line s generalizing tokens with
  | case1 => contradiction
  | case2 => contradiction
  | case3 line c rest after read ih =>
    obtain ⟨⟨isNewline, -⟩ | ended, reads⟩ := step_append ends read
    · contradiction
    obtain ⟨lastLine, follows⟩ := ih ended h
    refine ⟨lastLine, fun more => ?_⟩
    rw [List.cons_append, tokenizeFrom_cons, reads, ← (isPast_step read).lines]
    exact follows more
  | case4 line c rest kind after read ih =>
    obtain ⟨later, found, rfl⟩ := map_eq_ok_iff.mp h
    obtain ⟨isLast, reads⟩ := step_append ends read
    have follows (more : List Char) : tokenizeFrom line (c :: rest ++ more) = (tokenizeFrom
        after.line (after.rest ++ more)).map fun tokens => ⟨kind, line⟩ :: tokens := by
      rw [List.cons_append, tokenizeFrom_cons, reads]
      rfl
    rw [← (isPast_step read).lines]
    -- nothing follows the last token, which is then the line end of the text
    by_cases last : after.rest = []
    · obtain ⟨isNewline, -⟩ | ended := isLast
      · obtain rfl := Option.some.inj isNewline
        rw [last, tokenizeFrom] at found
        obtain rfl := Except.ok.inj found
        refine ⟨rfl, fun more => ?_⟩
        rw [follows, last]
        rfl
      · exact absurd last ended.ne_nil
    · obtain ⟨lastLine, reads⟩ := ih (ends.of_suffix (isPast_step read).suffix last) found
      refine ⟨lastLine.cons _, fun more => ?_⟩
      rw [follows, reads]
      cases tokenizeFrom (after.line + after.rest.count '\n') more <;> rfl

end Tokens

end TerraDeps.Native
