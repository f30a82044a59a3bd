import TerraDeps.Proofs.Native.CarriageReturns
import TerraDeps.Proofs.Native.Heredocs
import TerraDeps.Proofs.Native.Turns.Text

/-!
# Turns between tokens, and the run of the reader

Between tokens a turn begins what `step` reads there, and most often does all of it
(`turnsTo_once`). With what holds within comments, heredocs and strings, every turn keeps what the
tokens of the text are, so that the loop ends with them (`runsInRange_tokenize`); and in every state
that can be, the line is the one that the position is on (`IsValid.line_eq`).
-/

set_option autoImplicit false

namespace TerraDeps.Native

open Text

namespace Reading

/-- The tokens with one more, which started on line `line`, if one was read. -/
def withToken (tokens : List Token) (line : ℕ) : Option TokenKind → List Token
  | none => tokens
  | some kind => tokens ++ [⟨kind, line⟩]

/-- What a reader between tokens comes to by the step that begins with the next character. -/
def stepped (line : ℕ) (tokens : List Token) (c : Char) (rest : List Char) :
    Except ScanError (List Token × Cursor) :=
  (step line c rest).map fun (kind, after) => (withToken tokens line kind, after)

section Between

variable {s rest : List Char} {c : Char} {pos stop line line' : ℕ} {tokens : List Token}
  {kind : Option TokenKind}

/-- A turn that makes the whole step. -/
theorem turnsTo_once (found : s[pos]? = some c) (further : pos < stop) (inText : stop ≤ s.length)
    (read : step line c (s.drop (pos + 1)) = .ok (kind, ⟨line', s.drop stop⟩)) :
    TurnsTo s ⟨pos, line, .between, tokens⟩ (stepped line tokens c (s.drop (pos + 1)))
      (goesOn ⟨stop, line', .between, withToken tokens line kind⟩) := by
  have past := isPast_step read
  rw [← drop_of_getElem? found] at past
  rw [stepped, read]
  exact .goesOn _ ⟨further, inText, past, by simp [Mode.starts], by simp⟩ rfl

/-- A turn that makes the whole step as far as a test passes. -/
theorem turnsTo_while (test : Char → Bool) (found : s[pos]? = some c) (passes : test c = true)
    (read : step line c (s.drop (pos + 1)) =
      .ok (kind, ⟨line, (s.drop (pos + 1)).dropWhile test⟩)) :
    TurnsTo s ⟨pos, line, .between, tokens⟩ (stepped line tokens c (s.drop (pos + 1)))
      (goesOn ⟨passWhile test s pos, line, .between, withToken tokens line kind⟩) := by
  have inText := Nat.le_of_lt (List.getElem?_eq_some_iff.mp found).1
  refine turnsTo_once found (lt_passWhile found passes) (passWhile_le test inText) ?_
  rw [read, drop_passWhile_of_pos found passes]

/-- A heredoc starts at a position where its opening sign and a name do. -/
theorem heredocMarker?_drop (found : s[pos]? = some '<') : heredocMarker? (s.drop pos) =
    if heredocAhead s pos then some (s.drop (markerAt s pos)) else none := by
  by_cases twice : s[pos + 1]? = some '<'
  · have after : afterDash (s.drop (pos + 2)) = s.drop (markerAt s pos) := by
      simp only [afterDash, markerAt, List.head?_drop, List.drop_drop]
      split <;> rfl
    rw [drop_of_getElem? found, drop_of_getElem? twice]
    refine (heredocMarker?_open _).trans ?_
    simp [after, heredocAhead, twice]
  · have notAhead : heredocAhead s pos = false := by simp [heredocAhead, twice]
    rw [notAhead]
    refine heredocMarker?_eq_none ?_
    rintro ⟨more, whole⟩
    exact twice (getElem?_of_drop (drop_succ_of_drop whole.symm))

/-- The end of an operator is within the text. -/
theorem lt_of_operatorEndAt (ends : operatorEndAt s pos = true) : pos < s.length := by
  rw [operatorEndAt, Bool.or_eq_true] at ends
  rcases ends with sign | sign <;>
    exact (List.getElem?_eq_some_iff.mp (of_decide_eq_true sign)).1

/-- Where no gap and no comment begins, a token does. -/
theorem step_eq_lexeme (noGap : ¬ isGap c)
    (noComment : ¬ (c = '#' ∨ c = '/' ∧ rest.head? = some '/'))
    (noBlock : ¬ (c = '/' ∧ rest.head? = some '*')) :
    step line c rest = (lexeme line c rest).map fun (lexed, after) => (some lexed, after) := by
  rw [step, if_neg noGap, if_neg (by simpa using noComment), if_neg (by simpa using noBlock)]

/-- Characters other than line ends that pass are passed on their line. -/
theorem isPast_passWhile {test : Char → Bool} (notNewline : test '\n' = false) (line : ℕ)
    (s : List Char) (pos : ℕ) :
    (⟨line, s.drop (passWhile test s pos)⟩ : Cursor).IsPast line (s.drop pos) := by
  rw [drop_passWhile]
  exact .dropWhile notNewline line _

/-- The body of a heredoc begins where the line of its opening ends after the marker. -/
theorem heredoc_drop (line pos : ℕ) {stop : ℕ} (isStop : stop = passWhile isIdentPart s pos) :
    heredoc line (s.drop pos) =
      let marker := (s.drop pos).takeWhile isIdentPart
      if s[openingEnd s stop]? = some '\n' then
        heredocBody line marker (line + 1) (s.drop (openingEnd s stop + 1))
      else .error ⟨line, .heredocOpenerNotAlone (String.ofList marker)⟩ := by
  simp only [heredoc, ← drop_passWhile, ← isStop]
  rw [← openingEnd]
  split
  · rename_i body same
    rw [if_pos (getElem?_of_drop same), drop_succ_of_drop same]
  · rename_i other
    rw [if_neg]
    intro found
    exact other _ (drop_of_getElem? found)

/-- The marker of a heredoc stands behind its sign. -/
theorem lt_markerAt (s : List Char) (pos : ℕ) : pos + 1 < markerAt s pos := by
  unfold markerAt
  split <;> omega

/-- At the sign of a heredoc, a turn comes to what the whole heredoc does. -/
theorem turnsTo_opening (found : s[pos]? = some '<') (ahead : heredocAhead s pos = true) :
    TurnsTo s ⟨pos, line, .between, tokens⟩ (stepped line tokens '<' (s.drop (pos + 1)))
      (heredocTurn s ⟨pos, line, .between, tokens⟩) := by
  have marker := heredocMarker?_drop found
  rw [if_pos ahead, drop_of_getElem? found] at marker
  have read : step line '<' (s.drop (pos + 1)) =
      (heredoc line (s.drop (markerAt s pos))).map fun after => (some .heredoc, after) := by
    rw [step_eq_lexeme (by decide) (by simp) (by simp), lexeme_of_marker marker]
    cases heredoc line (s.drop (markerAt s pos)) <;> rfl
  obtain ⟨c, first, isStart⟩ := (Option.any_eq_true _ _).mp (Bool.and_eq_true_iff.mp ahead).2
  have inText := Nat.le_of_lt (List.getElem?_eq_some_iff.mp first).1
  have cut := slice?_passWhile isIdentPart inText
  have further := lt_markerAt s pos
  have toStop := le_passWhile isIdentPart s (markerAt s pos)
  rw [stepped, read]
  simp only [heredocTurn, cut]
  generalize isStop : passWhile isIdentPart s (markerAt s pos) = stop at *
  rw [heredoc_drop line (markerAt s pos) isStop.symm]
  have toLast : stop ≤ openingEnd s stop := le_passWhile _ s stop
  simp only
  by_cases ended : s[openingEnd s stop]? = some '\n'
  · rw [if_pos ended, if_pos ended]
    refine .goesOn _ ⟨?_, (List.getElem?_eq_some_iff.mp ended).1, ?_, by simp [Mode.starts], ?_⟩ ?_
    · show pos < openingEnd s stop + 1
      omega
    · have opened := isPast_heredocMarker? marker line
      have named : (⟨line, s.drop stop⟩ : Cursor).IsPast line (s.drop (markerAt s pos)) :=
        isStop ▸ isPast_passWhile (by decide) line s (markerAt s pos)
      have blanks : (⟨line, s.drop (openingEnd s stop)⟩ : Cursor).IsPast line (s.drop stop) :=
        isPast_passWhile (by decide) line s stop
      rw [drop_of_getElem? ended] at blanks
      rw [drop_of_getElem? found]
      exact (((Cursor.IsPast.refl (line + 1) _).newline.trans blanks).trans named).trans opened
    · intro start empty
      have passes := isIdentPart_of_isIdentStart isStart
      simp [drop_of_getElem? first, List.takeWhile_cons_of_pos passes] at empty
    · simp only [pending]
      cases heredocBody line ((s.drop (markerAt s pos)).takeWhile isIdentPart) (line + 1)
        (s.drop (openingEnd s stop + 1)) <;> rfl
  · rw [if_neg ended, if_neg ended]
    exact .fails _ (.inl rfl)

/-- At any other character that starts a token, a turn comes to what the token does. -/
theorem turnsTo_plain (found : s[pos]? = some c) (newline : c ≠ '\n') (quote : c ≠ '"')
    (marker : heredocMarker? (c :: s.drop (pos + 1)) = none)
    (lexed : step line c (s.drop (pos + 1)) =
      (lexeme line c (s.drop (pos + 1))).map fun (kind, after) => (some kind, after)) :
    TurnsTo s ⟨pos, line, .between, tokens⟩ (stepped line tokens c (s.drop (pos + 1)))
      (plainTurn s ⟨pos, line, .between, tokens⟩ c) := by
  have inside := (List.getElem?_eq_some_iff.mp found).1
  have further := Nat.lt_succ_self pos
  have operatorEnd : hasOperatorEnd (s.drop (pos + 1)) = operatorEndAt s (pos + 1) := by
    rw [hasOperatorEnd, operatorEndAt, List.head?_drop]
  simp only [plainTurn]
  -- The tests of `plainTurn`, one after the other, in the order in which `lexeme` makes them.
  by_cases opens : c = '{'
  · subst opens
    rw [if_pos rfl]
    exact turnsTo_once found further inside rfl
  by_cases closes : c = '}'
  · subst closes
    rw [if_neg opens, if_pos rfl]
    exact turnsTo_once found further inside rfl
  rw [if_neg opens, if_neg closes]
  rw [lexeme, if_neg newline, if_neg quote, if_neg opens, if_neg closes, marker, operatorEnd]
    at lexed
  simp only at lexed
  by_cases equals : c = '=' ∧ operatorEndAt s (pos + 1) = false
  · obtain ⟨rfl, alone⟩ := equals
    rw [if_pos (by simp [alone])]
    rw [if_neg (by decide), if_neg (by decide), if_neg (by simp [alone]), if_pos rfl] at lexed
    exact turnsTo_once found further inside lexed
  rw [if_neg (by simpa using equals)]
  by_cases isStart : isIdentStart c
  · rw [if_pos isStart] at lexed ⊢
    have passes := isIdentPart_of_isIdentStart isStart
    simp only [slice?_passWhile isIdentPart (Nat.le_of_lt inside), drop_of_getElem? found,
      List.takeWhile_cons_of_pos passes]
    exact turnsTo_while isIdentPart found passes lexed
  rw [if_neg isStart] at lexed ⊢
  by_cases digit : c.isDigit
  · rw [if_pos digit] at lexed ⊢
    exact turnsTo_while (fun d => isAlphanumeric d || d = '.') found
      (by simp [isAlphanumeric, isNumeric_of_isDigit digit]) lexed
  rw [if_neg digit] at lexed ⊢
  by_cases operator : operatorEndAt s (pos + 1) ∧ isOperatorStart c
  · obtain ⟨ends, starts⟩ := operator
    rw [if_pos (by simp [ends, starts]), List.drop_drop] at lexed
    rw [if_pos (by simp [ends, starts])]
    exact turnsTo_once found (by omega) (lt_of_operatorEndAt ends) lexed
  · rw [if_neg (by simpa [and_comm] using operator), if_neg ?_] at lexed
    · rw [if_neg (by simpa using operator)]
      exact turnsTo_once found further inside lexed
    · -- a single equals sign is a token of its own
      rintro rfl
      have single : operatorEndAt s (pos + 1) = false := by
        simpa [isOperatorStart] using operator
      exact equals ⟨rfl, single⟩

/-- At the start of a token, a turn comes to what the token does. -/
theorem turnsTo_token (found : s[pos]? = some c) (newline : c ≠ '\n')
    (lexed : step line c (s.drop (pos + 1)) =
      (lexeme line c (s.drop (pos + 1))).map fun (kind, after) => (some kind, after)) :
    TurnsTo s ⟨pos, line, .between, tokens⟩ (stepped line tokens c (s.drop (pos + 1)))
      (tokenTurn s ⟨pos, line, .between, tokens⟩ c) := by
  rw [tokenTurn]
  by_cases quote : c = '"'
  · subst quote
    rw [if_pos rfl]
    refine .goesOn _ (isFollowedBy_bump found (by simp [Mode.starts]) (by simp)) ?_
    rw [stepped, lexed, lexeme, if_neg newline, if_pos rfl]
    simp only [pending, skip, Except.bind]
    cases literal line line (s.drop (pos + 1)) <;> simp [Except.map, withToken]
  rw [if_neg quote]
  by_cases opening : c = '<' ∧ heredocAhead s pos
  · obtain ⟨rfl, ahead⟩ := opening
    rw [if_pos (by simpa using ahead)]
    exact turnsTo_opening found ahead
  rw [if_neg (by simpa using opening)]
  refine turnsTo_plain found newline quote ?_ lexed
  by_cases sign : c = '<'
  · subst sign
    rw [← drop_of_getElem? found, heredocMarker?_drop found, if_neg (by simpa using opening)]
  · refine heredocMarker?_eq_none ?_
    rintro ⟨more, whole⟩
    exact sign (List.cons.inj whole).1.symm

/-- Between tokens, a turn comes to what the step that begins there does. -/
theorem turnsTo_between (found : s[pos]? = some c) : TurnsTo s ⟨pos, line, .between, tokens⟩
    (stepped line tokens c (s.drop (pos + 1))) (betweenTurn s ⟨pos, line, .between, tokens⟩) := by
  have inside := (List.getElem?_eq_some_iff.mp found).1
  have further := Nat.lt_succ_self pos
  simp only [betweenTurn, found]
  by_cases gap : isGap c
  · rw [if_pos gap]
    exact turnsTo_once found further inside (by rw [step, if_pos gap])
  rw [if_neg gap]
  by_cases newline : c = '\n'
  · subst newline
    rw [if_pos rfl, bump_of_getElem? found]
    exact turnsTo_once found further inside rfl
  rw [if_neg newline]
  by_cases comment : c = '#' ∨ c = '/' ∧ s[pos + 1]? = some '/'
  · rw [if_pos (by simpa using comment)]
    have read : step line c (s.drop (pos + 1)) =
        .ok (none, ⟨line, afterLine (s.drop (pos + 1))⟩) := by
      rw [step, if_neg gap, if_pos (by simpa using comment)]
    exact turnsTo_while (· != '\n') found (by simpa using newline) read
  rw [if_neg (by simpa using comment)]
  by_cases block : c = '/' ∧ s[pos + 1]? = some '*'
  · rw [if_pos (by simpa using block)]
    obtain ⟨rfl, star⟩ := block
    refine .goesOn _ ⟨Nat.lt_add_of_pos_right (by decide), (List.getElem?_eq_some_iff.mp star).1,
      ?_, by simp [Mode.starts], by simp⟩ ?_
    · rw [drop_of_getElem? found, drop_of_getElem? star]
      exact .append ['/', '*'] (by decide) line _
    · rw [stepped, step, if_neg (by decide), if_neg (by simp [star]), if_pos (by simp [star]),
        drop_of_getElem? star]
      simp only [pending, List.drop_one, List.tail_cons]
      cases afterComment line line (s.drop (pos + 1 + 1)) <;> rfl
  rw [if_neg (by simpa using block)]
  exact turnsTo_token found newline
    (step_eq_lexeme gap (by simpa using comment) (by simpa using block))

end Between

/-- What a reader can be: in the text, on the line that the line ends before it make, within things
that started on earlier lines or on this one. -/
structure IsValid (s : List Char) (r : Reading) : Prop where
  inText : r.pos ≤ s.length
  past : (⟨r.line, s.drop r.pos⟩ : Cursor).IsPast 1 s
  starts : ∀ n ∈ r.mode.starts, 1 ≤ n ∧ n ≤ r.line
  marker : ∀ start, r.mode ≠ .heredoc start []

/-- The tokens of the text, when the reader comes to some of them and a place to go on from. -/
def finished : Except ScanError (List Token × Cursor) → Except ScanError (List Token)
  | .error e => .error e
  | .ok (tokens, place) => (tokenizeFrom place.line place.rest).map fun more => tokens ++ more

/-- The tokens of the text, as a reader in the state comes to them. -/
def outcome (s : List Char) (r : Reading) : Except ScanError (List Token) :=
  finished (r.pending s)

section Running

variable {s : List Char} {r y : Reading} {p : Except ScanError (List Token × Cursor)}
  {e : ScanError}

/-- A reader starts in a valid state. -/
theorem isValid_start (s : List Char) : IsValid s start where
  inText := Nat.zero_le _
  past := .refl 1 s
  starts := by simp [start, Mode.starts]
  marker := by simp [start]

/-- The line is one more than the line ends before the position. -/
theorem IsValid.line_eq (valid : IsValid s r) : r.line = 1 + (s.take r.pos).count '\n' := by
  have lines := valid.past.lines
  have whole : s.count '\n' = (s.take r.pos).count '\n' + (s.drop r.pos).count '\n' := by
    rw [← List.count_append, List.take_append_drop]
  simp only at lines
  omega

/-- A valid state stands on a line of the text. -/
theorem IsValid.line_le (valid : IsValid s r) : r.line ≤ 1 + s.count '\n' :=
  valid.line_eq ▸ Nat.add_le_add_left ((List.take_sublist _ s).count_le '\n') 1

/-- What follows a valid state is valid. -/
theorem IsFollowedBy.isValid (follows : IsFollowedBy s r y) (valid : IsValid s r) :
    IsValid s y where
  inText := follows.inText
  past := follows.past.trans valid.past
  starts n isStart := by
    have later : r.line ≤ y.line := follows.past.line_le
    have positive : 1 ≤ r.line := valid.past.line_le
    rcases follows.starts n isStart with rfl | earlier
    · exact ⟨positive, later⟩
    · exact ⟨(valid.starts n earlier).1, (valid.starts n earlier).2.trans later⟩
  marker := follows.marker

/-- Within anything, a turn keeps the outcome. -/
theorem turnsTo_pending (valid : IsValid s r) (inside : r.mode ≠ .between) :
    TurnsTo s r (r.pending s) (turn s r) := by
  obtain ⟨pos, line, mode, tokens⟩ := r
  cases mode with
  | between => contradiction
  | comment start => exact turnsTo_comment
  | heredoc start marker =>
    refine turnsTo_body ?_
    rintro rfl
    exact valid.marker start rfl
  | quoted start text templated frames =>
    rcases frames with _ | ⟨first | ⟨first, groups⟩, outer⟩
    · exact turnsTo_string
    · exact turnsTo_inner
    · exact turnsTo_template

/-- A first step and the tokens behind it are the tokens of the text. -/
theorem finished_stepped (line : ℕ) (tokens : List Token) (c : Char) (rest : List Char) :
    finished (stepped line tokens c rest) =
      (tokenizeFrom line (c :: rest)).map fun more => tokens ++ more := by
  rw [tokenizeFrom_cons, stepped]
  rcases step line c rest with e | ⟨_ | kind, after⟩
  · rfl
  · rfl
  · simp only [Except.map, finished, withToken]
    cases tokenizeFrom after.line after.rest <;> simp

/-- A turn that comes to the same proceeds. -/
theorem TurnsTo.proceeds (h : TurnsTo s r p (turn s r)) (valid : IsValid s r)
    (same : finished p = r.outcome s) : Proceeds (turn s) pos (IsValid s) (outcome s) r := by
  generalize result : turn s r = t at h
  cases h with
  | goesOn y follows pending =>
    refine .inl ⟨y, result, follows.further, follows.isValid valid, ?_⟩
    rw [← same, outcome, pending]
  | fails e reported =>
    refine .inr (result.trans ?_)
    rw [← same]
    rfl

/-- Every turn from a valid state proceeds. -/
theorem proceeds (valid : IsValid s r) : Proceeds (turn s) pos (IsValid s) (outcome s) r := by
  by_cases inside : r.mode = .between
  · obtain ⟨pos, line, mode, tokens⟩ := r
    obtain rfl : mode = .between := inside
    cases found : s[pos]? with
    | none =>
      refine .inr ?_
      simp only [turn, betweenTurn, found, outcome, pending, drop_of_getElem?_eq_none found,
        finished, tokenizeFrom]
      simp [Except.map]
    | some c =>
      refine (turnsTo_between found).proceeds valid ?_
      rw [finished_stepped, ← drop_of_getElem? found]
      rfl
  · exact (turnsTo_pending valid inside).proceeds valid rfl

end Running

end Reading

/-- The reader comes to the tokens of a text, further on with every turn and always in the text. -/
theorem runsInRange_tokenize (text : String) : RunsInRange (Reading.turn text.toList) Reading.pos
    text.toList.length Reading.start (tokenize text) := by
  have ends : Reading.start.outcome text.toList = tokenize text := by
    show (tokenizeFrom 1 text.toList).map (fun more => [] ++ more) = tokenizeFrom 1 text.toList
    cases tokenizeFrom 1 text.toList <;> rfl
  rw [← ends]
  exact runsInRange (fun _ valid => valid.inText) (fun _ valid => Reading.proceeds valid)
    (Reading.isValid_start text.toList)

end TerraDeps.Native
