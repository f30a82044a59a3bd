import TerraDeps.Proofs.Native.Lines
import TerraDeps.Proofs.Native.Turns.Access
import TerraDeps.Proofs.Turns

/-!
# Reading a text turn by turn

The reader of tokens as a loop on positions: it stands at a position of the text, on a line, between
tokens or within a comment, a heredoc or a quoted string, and one turn (`Reading.turn`) moves the
position past some characters, by a count or as far as a test passes. What it is within comes to an
end with some tokens and a place between tokens (`Reading.pending`), as the readers of the rest of a
text have it; every turn within a comment, a heredoc or a string keeps these, comes further and
stays in the text, on the line that the line ends before its position make.
-/

set_option autoImplicit false

namespace TerraDeps.Native

open Text

/-- What a reader of a text is within, with the line on which that started. -/
inductive Mode where
  /-- Between tokens. -/
  | between
  /-- Within a block comment. -/
  | comment (start : ℕ)
  /-- Within the body of a heredoc. -/
  | heredoc (start : ℕ) (marker : List Char)
  /-- Within a quoted string whose text so far is `text`, and within the frames, innermost first. -/
  | quoted (start : ℕ) (text : List Char) (templated : Bool) (frames : List Frame)
  deriving DecidableEq, Repr

/-- Where a reader of a text stands, and the tokens it has read. -/
structure Reading where
  pos : ℕ
  line : ℕ
  mode : Mode
  tokens : List Token
  deriving DecidableEq, Repr

/-- The loop ends with a problem on a line. -/
def fails {σ α : Type} (line : ℕ) (problem : ScanProblem) : Option (Turn σ (Except ScanError α)) :=
  some (.ends (.error ⟨line, problem⟩))

/-- What a turn of the reader comes to, if it asks for nothing out of range. -/
abbrev TextTurn :=
  Option (Turn Reading (Except ScanError (List Token)))

namespace Reading

/-- The reader before the first character. -/
def start : Reading :=
  ⟨0, 1, .between, []⟩

/-- The line on which the text goes on after a character. -/
def lineAfter (line : ℕ) (c : Char) : ℕ :=
  if c = '\n' then line + 1 else line

/-- The reader past the next character, if there is one. -/
def bump (s : List Char) (r : Reading) : Reading :=
  match s[r.pos]? with
  | none => r
  | some c => { r with pos := r.pos + 1, line := lineAfter r.line c }

/-- The reader at a position of the same line, between tokens. -/
def pass (r : Reading) (pos : ℕ) : Reading :=
  { r with pos := pos, mode := .between }

/-- The reader at a position of the same line, between tokens, with one more token, which started
on line `start`. -/
def emit (r : Reading) (kind : TokenKind) (start pos : ℕ) : Reading :=
  ⟨pos, r.line, .between, r.tokens ++ [⟨kind, start⟩]⟩

end Reading

/-- Where the marker of a heredoc begins whose opening sign stands at the position. -/
def markerAt (s : List Char) (pos : ℕ) : ℕ :=
  if s[pos + 2]? = some '-' then pos + 3 else pos + 2

/-- Whether a heredoc begins at the position of the first `<`. -/
def heredocAhead (s : List Char) (pos : ℕ) : Bool :=
  s[pos + 1]? = some '<' && (s[markerAt s pos]?).any isIdentStart

/-- Where the line of a heredoc's opening goes on after the marker and blanks. -/
def openingEnd (s : List Char) (stop : ℕ) : ℕ :=
  passWhile (fun c => c = ' ' || c = '\t' || c = '\r') s stop

/-- Whether the second sign of a two-character operator stands at the position. -/
def operatorEndAt (s : List Char) (pos : ℕ) : Bool :=
  s[pos]? = some '=' || s[pos]? = some '>'

namespace Reading

/-- Passes over the opening of a heredoc, which must end its line. -/
def heredocTurn (s : List Char) (r : Reading) : TextTurn :=
  let first := markerAt s r.pos
  let stop := passWhile isIdentPart s first
  let last := openingEnd s stop
  match slice? s first stop with
  | none => none
  | some marker =>
    if s[last]? = some '\n' then goesOn ⟨last + 1, r.line + 1, .heredoc r.line marker, r.tokens⟩
    else fails r.line (.heredocOpenerNotAlone (String.ofList marker))

/-- Reads a token of one line that starts with `c`. -/
def plainTurn (s : List Char) (r : Reading) (c : Char) : TextTurn :=
  if c = '{' then goesOn (r.emit .openBrace r.line (r.pos + 1))
  else if c = '}' then goesOn (r.emit .closeBrace r.line (r.pos + 1))
  else if c = '=' && !operatorEndAt s (r.pos + 1) then goesOn (r.emit .equals r.line (r.pos + 1))
  else if isIdentStart c then
    let stop := passWhile isIdentPart s r.pos
    match slice? s r.pos stop with
    | none => none
    | some name => goesOn (r.emit (.ident (String.ofList name)) r.line stop)
  else if c.isDigit then
    goesOn (r.emit .other r.line (passWhile (fun d => isAlphanumeric d || d = '.') s r.pos))
  else if operatorEndAt s (r.pos + 1) && isOperatorStart c then
    goesOn (r.emit .other r.line (r.pos + 2))
  else goesOn (r.emit .other r.line (r.pos + 1))

/-- Begins a quoted string or a heredoc, or reads a token of one line. -/
def tokenTurn (s : List Char) (r : Reading) (c : Char) : TextTurn :=
  if c = '"' then goesOn { r with pos := r.pos + 1, mode := .quoted r.line [] false [] }
  else if c = '<' && heredocAhead s r.pos then heredocTurn s r
  else plainTurn s r c

/-- Between tokens: passes over a gap or a line comment, begins a block comment, or goes on to a
token. -/
def betweenTurn (s : List Char) (r : Reading) : TextTurn :=
  match s[r.pos]? with
  | none => some (.ends (.ok r.tokens))
  | some c =>
    if isGap c then goesOn (r.pass (r.pos + 1))
    else if c = '\n' then goesOn ((r.bump s).emit .newline r.line (r.pos + 1))
    else if c = '#' || (c = '/' && s[r.pos + 1]? = some '/') then
      goesOn (r.pass (passWhile (· != '\n') s r.pos))
    else if c = '/' && s[r.pos + 1]? = some '*' then
      goesOn { r with pos := r.pos + 2, mode := .comment r.line }
    else tokenTurn s r c

/-- Within a block comment: passes over a character, or over the sign that ends the comment. -/
def commentTurn (s : List Char) (r : Reading) (start : ℕ) : TextTurn :=
  match s[r.pos]? with
  | none => fails start .unterminatedComment
  | some c =>
    if c = '*' && s[(r.bump s).pos]? = some '/' then goesOn ((r.bump s).pass (r.pos + 2))
    else goesOn (r.bump s)

/-- Within a heredoc: passes over a line, and over its end unless it is the marker. -/
def bodyTurn (s : List Char) (r : Reading) (start : ℕ) (marker : List Char) : TextTurn :=
  match s[r.pos]? with
  | none => fails start (.unterminatedHeredoc (String.ofList marker))
  | some _ =>
    let stop := passWhile (· != '\n') s r.pos
    match slice? s r.pos stop with
    | none => none
    | some text =>
      if trimBlanks text = marker then goesOn (r.emit .heredoc start stop)
      else goesOn (bump s { r with pos := stop })

/-- Within a string that started on line `start`: reads one part of it. -/
def partTurn (s : List Char) (r : Reading) (start : ℕ) (next : Part → Reading) : TextTurn :=
  match partAt s start r.line r.pos with
  | none => none
  | some (.error e) => some (.ends (.error e))
  | some (.ok (part, pos)) => goesOn { next part with pos := pos }

/-- The reader in the same string, within other frames. -/
def within (r : Reading) (start : ℕ) (text : List Char) (templated : Bool) (frames : List Frame) :
    Reading :=
  { r with mode := .quoted start text templated frames }

/-- Within a quoted string: reads a part of the string, or passes over what stands in a template. -/
def quotedTurn (s : List Char) (r : Reading) (start : ℕ) (text : List Char) (templated : Bool) :
    List Frame → TextTurn
  | [] => partTurn s r start fun
    | .close => r.emit (.str (String.ofList text) templated) start r.pos
    | .chars more => r.within start (text ++ more) templated []
    | .openTemplate => r.within start text true [.template r.line 0]
  | .quoted first :: outer => partTurn s r first fun
    | .close => r.within start text templated outer
    | .chars _ => r.within start text templated (.quoted first :: outer)
    | .openTemplate => r.within start text templated (.template r.line 0 :: .quoted first :: outer)
  | .template first groups :: outer =>
    match s[r.pos]? with
    | none => fails first .unterminatedTemplate
    | some c =>
      let next := r.bump s
      if c = '{' then
        goesOn (next.within start text templated (.template first (groups + 1) :: outer))
      else if c = '}' then
        match groups with
        | 0 => goesOn (next.within start text templated outer)
        | groups + 1 => goesOn (next.within start text templated (.template first groups :: outer))
      else if c = '"' then goesOn (next.within start text templated
        (.quoted next.line :: .template first groups :: outer))
      else goesOn next

/-- One turn of the reader. -/
def turn (s : List Char) (r : Reading) : TextTurn :=
  match r.mode with
  | .between => betweenTurn s r
  | .comment start => commentTurn s r start
  | .heredoc start marker => bodyTurn s r start marker
  | .quoted start text templated frames => quotedTurn s r start text templated frames

/-- What the reader comes to where it is between tokens: the tokens it has read by then, and the
place where the text goes on. -/
def pending (s : List Char) (r : Reading) : Except ScanError (List Token × Cursor) :=
  match r.mode with
  | .between => .ok (r.tokens, ⟨r.line, s.drop r.pos⟩)
  | .comment start =>
    (afterComment start r.line (s.drop r.pos)).map fun after => (r.tokens, after)
  | .heredoc start marker => (heredocBody start marker r.line (s.drop r.pos)).map fun after =>
      (r.tokens ++ [⟨.heredoc, start⟩], after)
  | .quoted start text templated frames =>
    (skip frames r.line (s.drop r.pos)).bind fun inside =>
      (literal start inside.line inside.rest).map fun (l, after) =>
        (r.tokens ++ [⟨.str (String.ofList (text ++ l.text)) (templated || l.templated), start⟩],
          after)

end Reading

/-- The line that the frame started on. -/
def Frame.start : Frame → ℕ
  | quoted start => start
  | template start _ => start

/-- The lines on which the things started that the reader is within. -/
def Mode.starts : Mode → List ℕ
  | between => []
  | comment start => [start]
  | heredoc start _ => [start]
  | quoted start _ _ frames => start :: frames.map Frame.start

namespace Reading

/-- The second state comes after the first: further on in the text, on the line that the line ends
in between make, and within nothing new but what started on the line of the first. -/
structure IsFollowedBy (s : List Char) (r y : Reading) : Prop where
  further : r.pos < y.pos
  inText : y.pos ≤ s.length
  past : (⟨y.line, s.drop y.pos⟩ : Cursor).IsPast r.line (s.drop r.pos)
  starts : ∀ n ∈ y.mode.starts, n = r.line ∨ n ∈ r.mode.starts
  marker : ∀ start, y.mode ≠ .heredoc start []

/-- A turn goes on to a state that comes to the same, or ends with the problem that this is, on the
line of the state or of something it is within. -/
inductive TurnsTo (s : List Char) (r : Reading) :
    Except ScanError (List Token × Cursor) → TextTurn → Prop
  | goesOn {p : Except ScanError (List Token × Cursor)} (y : Reading) (follows : IsFollowedBy s r y)
      (same : y.pending s = p) : TurnsTo s r p (goesOn y)
  | fails (e : ScanError) (reported : e.line = r.line ∨ e.line ∈ r.mode.starts) :
      TurnsTo s r (.error e) (some (.ends (.error e)))

section Within

variable {s : List Char} {c : Char} {pos line start : ℕ} {tokens : List Token}

/-- One character is passed over, to the next line if it is a line end. -/
theorem bump_of_getElem? {mode : Mode} (found : s[pos]? = some c) :
    bump s ⟨pos, line, mode, tokens⟩ = ⟨pos + 1, lineAfter line c, mode, tokens⟩ := by
  simp only [bump, found]

/-- A turn past one character, which may leave or enter something. -/
theorem isFollowedBy_bump {mode mode' : Mode} (found : s[pos]? = some c)
    (starts : ∀ n ∈ mode'.starts, n = line ∨ n ∈ mode.starts)
    (marker : ∀ start, mode' ≠ .heredoc start []) :
    IsFollowedBy s ⟨pos, line, mode, tokens⟩ ⟨pos + 1, lineAfter line c, mode', tokens⟩ where
  further := Nat.lt_succ_self pos
  inText := (List.getElem?_eq_some_iff.mp found).1
  past := by
    rw [drop_of_getElem? found]
    by_cases isNewline : c = '\n'
    · rw [lineAfter, if_pos isNewline, isNewline]
      exact (Cursor.IsPast.refl (line + 1) _).newline
    · rw [lineAfter, if_neg isNewline]
      exact .cons isNewline (.refl line _)
  starts := starts
  marker := marker

/-- Within a block comment, a turn comes to what the rest of the comment does. -/
theorem turnsTo_comment : TurnsTo s ⟨pos, line, .comment start, tokens⟩
    (pending s ⟨pos, line, .comment start, tokens⟩)
    (commentTurn s ⟨pos, line, .comment start, tokens⟩ start) := by
  cases found : s[pos]? with
  | none =>
    have rest : s.drop pos = [] := drop_of_getElem?_eq_none found
    simp only [pending, commentTurn, found, rest]
    exact .fails _ (.inr List.mem_cons_self)
  | some c =>
    simp only [pending, commentTurn, found, bump_of_getElem? found, drop_of_getElem? found]
    by_cases closes : c = '*' ∧ s[pos + 1]? = some '/'
    · obtain ⟨rfl, slash⟩ := closes
      rw [if_pos (by simp [slash]), drop_of_getElem? slash]
      refine .goesOn _ ⟨by simp [pass], (List.getElem?_eq_some_iff.mp slash).1, ?_, ?_, ?_⟩ rfl
      · rw [drop_of_getElem? found, drop_of_getElem? slash]
        exact .append ['*', '/'] (by decide) line _
      · simp [pass, Mode.starts]
      · simp [pass]
    · rw [if_neg (by simpa using closes), afterComment]
      · exact .goesOn _ (isFollowedBy_bump found (fun n => .inr) (by simp)) rfl
      · rintro rest rfl same
        exact closes ⟨rfl, getElem?_of_drop same⟩

/-- Within a heredoc, a turn comes to what the rest of its body does. -/
theorem turnsTo_body {marker : List Char} (named : marker ≠ []) :
    TurnsTo s ⟨pos, line, .heredoc start marker, tokens⟩
      (pending s ⟨pos, line, .heredoc start marker, tokens⟩)
      (bodyTurn s ⟨pos, line, .heredoc start marker, tokens⟩ start marker) := by
  cases found : s[pos]? with
  | none =>
    have rest : s.drop pos = [] := drop_of_getElem?_eq_none found
    simp only [pending, bodyTurn, found, rest, heredocBody]
    exact .fails _ (.inr List.mem_cons_self)
  | some c =>
    have inside := Nat.le_of_lt (List.getElem?_eq_some_iff.mp found).1
    have cut := slice?_passWhile (· != '\n') inside
    have after : s.drop (passWhile (· != '\n') s pos) = afterLine (s.drop pos) :=
      drop_passWhile (· != '\n') s pos
    have lineEnd := isPast_afterLine line (s.drop pos)
    have length := passWhile_eq (· != '\n') s pos
    have inText := passWhile_le (· != '\n') inside
    simp only [pending, bodyTurn, found, cut]
    rw [drop_of_getElem? found, heredocBody_cons, ← drop_of_getElem? found, ← after]
    rw [← after] at lineEnd
    generalize passWhile (· != '\n') s pos = stop at *
    by_cases isMarker : trimBlanks ((s.drop pos).takeWhile (· != '\n')) = marker
    · rw [if_pos isMarker, if_pos isMarker]
      refine .goesOn _ ⟨?_, inText, lineEnd, by simp [emit, Mode.starts], by simp [emit]⟩ rfl
      -- the line of the marker is not empty, since the marker is not
      have notEmpty : (s.drop pos).takeWhile (· != '\n') ≠ [] := by
        intro empty
        rw [empty] at isMarker
        exact named isMarker.symm
      have positive := List.length_pos_iff.mpr notEmpty
      show pos < stop
      omega
    · rw [if_neg isMarker, if_neg isMarker]
      cases next : s[stop]? with
      | none =>
        have rest : s.drop stop = [] := drop_of_getElem?_eq_none next
        have stays : bump s ⟨stop, line, .heredoc start marker, tokens⟩ =
            ⟨stop, line, .heredoc start marker, tokens⟩ := by
          simp only [bump, next]
        have different : stop ≠ pos := by
          rintro rfl
          rw [found] at next
          contradiction
        rw [stays, rest]
        refine .goesOn _ ⟨?_, inText, lineEnd, by simp [Mode.starts], by simp [named]⟩ ?_
        · show pos < stop
          omega
        · simp only [pending, rest, heredocBody]
      | some d =>
        rw [bump_of_getElem? next, drop_of_getElem? next]
        obtain rfl : d = '\n' := eq_newline_of_afterLine (after.symm.trans (drop_of_getElem? next))
        rw [drop_of_getElem? next] at lineEnd
        refine .goesOn _ ⟨?_, (List.getElem?_eq_some_iff.mp next).1,
          (Cursor.IsPast.refl (line + 1) _).newline.trans lineEnd, by simp [Mode.starts],
          by simp [named]⟩ rfl
        show pos < stop + 1
        omega

/-- A turn that reads a part of a string, of which nothing more has to be known than what the
outcome is for each part. -/
theorem turnsTo_part {mode : Mode} {first : ℕ} {next : Part → Reading}
    {p : Except ScanError (List Token × Cursor)} (inside : first ∈ mode.starts)
    (sameLine : ∀ a, (next a).line = line)
    (starts : ∀ a, ∀ n ∈ (next a).mode.starts, n = line ∨ n ∈ mode.starts)
    (marker : ∀ a start, (next a).mode ≠ .heredoc start [])
    (fails : ∀ e, part first line (s.drop pos) = .error e → p = .error e)
    (reads : ∀ a stop, part first line (s.drop pos) = .ok (a, s.drop stop) →
      pending s { next a with pos := stop } = p) :
    TurnsTo s ⟨pos, line, mode, tokens⟩ p (partTurn s ⟨pos, line, mode, tokens⟩ first next) := by
  have read := isReadAt_partAt s first line pos
  simp only [partTurn]
  generalize ofPart : part first line (s.drop pos) = result at read fails reads
  generalize partAt s first line pos = readHere at read
  cases read with
  | error e =>
    rw [fails e rfl]
    refine .fails e ?_
    rcases line_of_part ofPart with own | here
    · exact .inr (own ▸ inside)
    · exact .inl here
  | @ok a stop rest later within drop =>
    subst drop
    have past := isPast_part ofPart
    refine .goesOn _ ⟨later, within, ?_, starts a, marker a⟩ (reads a stop rfl)
    show (⟨(next a).line, s.drop stop⟩ : Cursor).IsPast line (s.drop pos)
    rwa [sameLine a]

/-- Within a string, outside its templates. -/
theorem turnsTo_string {text : List Char} {templated : Bool} :
    TurnsTo s ⟨pos, line, .quoted start text templated [], tokens⟩
      (pending s ⟨pos, line, .quoted start text templated [], tokens⟩)
      (quotedTurn s ⟨pos, line, .quoted start text templated [], tokens⟩ start text templated
        []) := by
  have now : pending s ⟨pos, line, .quoted start text templated [], tokens⟩ =
      (literal start line (s.drop pos)).map fun (l, after) => (tokens ++
        [⟨.str (String.ofList (text ++ l.text)) (templated || l.templated), start⟩], after) := by
    simp only [pending, skip, Except.bind]
  rw [now]
  refine turnsTo_part List.mem_cons_self ?_ ?_ ?_ ?_ ?_
  · rintro (_ | more | _) <;> rfl
  · rintro (_ | more | _) <;> simp [emit, within, Mode.starts, Frame.start]
  · rintro (_ | more | _) <;> simp [emit, within]
  · intro e fails
    rw [literal_eq, fails]
    rfl
  · rintro (_ | more | _) stop read <;> rw [literal_eq, read]
    · simp [emit, pending, Except.map]
    · simp only [within, pending, skip, Except.bind]
      cases literal start line (s.drop stop) <;> simp [Except.map]
    · simp only [within, pending]
      cases skip [.template line 0] line (s.drop stop) with
      | error e => rfl
      | ok after =>
        simp only [Except.bind]
        cases literal start after.line after.rest <;> simp [Except.map]

/-- Within a string that stands in a template. -/
theorem turnsTo_inner {text : List Char} {templated : Bool} {first : ℕ} {outer : List Frame} :
    TurnsTo s ⟨pos, line, .quoted start text templated (.quoted first :: outer), tokens⟩
      (pending s ⟨pos, line, .quoted start text templated (.quoted first :: outer), tokens⟩)
      (quotedTurn s ⟨pos, line, .quoted start text templated (.quoted first :: outer), tokens⟩
        start text templated (.quoted first :: outer)) := by
  refine turnsTo_part ?_ ?_ ?_ ?_ ?_ ?_
  · simp [Mode.starts, Frame.start]
  · rintro (_ | more | _) <;> rfl
  · rintro (_ | more | _) <;> simp +contextual [within, Mode.starts, Frame.start]
  · rintro (_ | more | _) <;> simp [within]
  · intro e fails
    simp only [pending, skip_quoted, fails]
    rfl
  · intro a stop read
    have skipped : skip (.quoted first :: outer) line (s.drop pos) = _ := skip_quoted outer
    rw [read] at skipped
    rcases a with _ | more | _ <;> simp only [within, pending, skipped]

/-- Within a template. -/
theorem turnsTo_template {text : List Char} {templated : Bool} {first groups : ℕ}
    {outer : List Frame} :
    TurnsTo s ⟨pos, line, .quoted start text templated (.template first groups :: outer), tokens⟩
      (pending s
        ⟨pos, line, .quoted start text templated (.template first groups :: outer), tokens⟩)
      (quotedTurn s
        ⟨pos, line, .quoted start text templated (.template first groups :: outer), tokens⟩
        start text templated (.template first groups :: outer)) := by
  cases found : s[pos]? with
  | none =>
    simp only [pending, quotedTurn, found, drop_of_getElem?_eq_none found, skip]
    exact .fails _ (.inr (by simp [Mode.starts, Frame.start]))
  | some c =>
    simp only [pending, quotedTurn, found, bump_of_getElem? found, drop_of_getElem? found]
    rw [skip_template]
    by_cases opens : c = '{'
    · rw [if_pos opens, if_pos opens]
      refine .goesOn _ (isFollowedBy_bump found (fun n inside => .inr inside) (by simp)) ?_
      subst opens
      rfl
    rw [if_neg opens, if_neg opens]
    by_cases closes : c = '}'
    · subst closes
      rw [if_pos rfl, if_pos rfl]
      cases groups with
      | zero =>
        exact .goesOn _ (isFollowedBy_bump found
          (by simp +contextual [Mode.starts, Frame.start]) (by simp)) rfl
      | succ groups =>
        exact .goesOn _ (isFollowedBy_bump found (fun n inside => .inr inside) (by simp)) rfl
    rw [if_neg closes, if_neg closes]
    by_cases quotes : c = '"'
    · subst quotes
      rw [if_pos rfl, if_pos rfl]
      exact .goesOn _ (isFollowedBy_bump found
        (by simp +contextual [Mode.starts, Frame.start, lineAfter]) (by simp)) rfl
    · rw [if_neg quotes, if_neg quotes]
      exact .goesOn _ (isFollowedBy_bump found (fun n inside => .inr inside) (by simp)) rfl

end Within

end Reading

end TerraDeps.Native
