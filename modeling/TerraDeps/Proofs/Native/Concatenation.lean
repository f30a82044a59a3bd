import Mathlib.Tactic.SplitIfs
import TerraDeps.Proofs.Native.Blocks
import TerraDeps.Proofs.Native.LineEnds

/-!
# Native texts one after the other

A text that begins on a later line is read as it is on the first, with all lines later by as many
(`tokenizeFrom_later`, `blocks_later`). Tokens that end a line and have been read to their end leave
no brace open and no header begun, so that the tokens after them are read as if they were the first
(`blocks_append`). Together these say what two texts are when one follows the other.
-/

set_option autoImplicit false

namespace TerraDeps

/-- The problem, `n` lines further down. -/
def ScanError.later (n : ℕ) (e : ScanError) : ScanError :=
  { e with line := e.line + n }

/-- The block, `n` lines further down. -/
def ModuleBlock.later (n : ℕ) (b : ModuleBlock) : ModuleBlock :=
  { b with line := b.line + n }

namespace Native

open Text

/-- The cursor, `n` lines further down. -/
def Cursor.later (n : ℕ) (c : Cursor) : Cursor :=
  { c with line := c.line + n }

/-- The token, `n` lines further down. -/
def Token.later (n : ℕ) (t : Token) : Token :=
  { t with line := t.line + n }

/-- The frame, `n` lines further down. -/
def Frame.later (n : ℕ) : Frame → Frame
  | quoted start => quoted (start + n)
  | template start groups => template (start + n) groups

/-- A result of reading, `n` lines further down: so is the problem, and `f` moves what was read. -/
def shifted {α β : Type} (n : ℕ) (f : α → β) : Except ScanError α → Except ScanError β
  | .ok a => .ok (f a)
  | .error e => .error (e.later n)

section Reading

variable {n start line count : ℕ} {c : Char} {s : List Char}

/-- The line after a character moves with the line of the character. -/
theorem nextLine_later : (if c = '\n' then line + n + 1 else line + n) =
    (if c = '\n' then line + 1 else line) + n := by
  split <;> omega

/-- An escape by a number is read alike further down. -/
theorem unicodeEscape_later : unicodeEscape (line + n) count s =
    shifted n id (unicodeEscape line count s) := by
  simp only [unicodeEscape]
  split <;> rfl

/-- An escape sequence is read alike further down. -/
theorem escape_later : escape (line + n) s = shifted n id (escape line s) := by
  cases s with
  | nil => rfl
  | cons d s =>
    obtain ⟨c, reads⟩ | ⟨count, reads⟩ | refuses := escape_cons_cases d
    · rw [reads, reads]
      rfl
    · rw [reads, reads]
      exact unicodeEscape_later
    · rw [refuses, refuses]
      rfl

/-- A part of a string is read alike further down. -/
theorem part_later : part (start + n) (line + n) s = shifted n id (part start line s) := by
  cases s with
  | nil => rfl
  | cons d s =>
    simp only [part, escape_later]
    split_ifs
    · rfl
    · rfl
    · cases escape line s <;> rfl
    · rfl
    · rfl
    · rfl

/-- What is skipped further down is the same. -/
theorem skip_later {frames : List Frame} : skip (frames.map (Frame.later n)) (line + n) s =
    shifted n (Cursor.later n) (skip frames line s) := by
  fun_induction skip frames line s with
  | case1 line s =>
    rw [List.map_nil, skip]
    rfl
  | case2 line start groups outer =>
    rw [List.map_cons, Frame.later, skip]
    rfl
  | case3 line start groups outer rest ih =>
    rw [List.map_cons, Frame.later, skip_template]
    exact ih
  | case4 line start outer rest _ ih =>
    rw [List.map_cons, Frame.later, skip_template]
    exact ih
  | case5 line start outer rest _ groups ih =>
    rw [List.map_cons, Frame.later, skip_template]
    exact ih
  | case6 line start groups outer rest _ _ ih =>
    rw [List.map_cons, Frame.later, skip_template]
    exact ih
  | case7 line start groups outer d rest notOpen notClose notQuote ih =>
    rw [List.map_cons, Frame.later, skip_template, if_neg notOpen, if_neg notClose,
      if_neg notQuote, nextLine_later]
    exact ih
  | case8 line start outer s e read =>
    rw [List.map_cons, Frame.later, skip_quoted, part_later, read]
    rfl
  | case9 line start outer s rest read ih =>
    rw [List.map_cons, Frame.later, skip_quoted, part_later, read]
    exact ih
  | case10 line start outer s text rest read ih =>
    rw [List.map_cons, Frame.later, skip_quoted, part_later, read]
    exact ih
  | case11 line start outer s rest read ih =>
    rw [List.map_cons, Frame.later, skip_quoted, part_later, read]
    exact ih

/-- A string literal is read alike further down. -/
theorem literal_later : literal (start + n) (line + n) s =
    shifted n (Prod.map id (Cursor.later n)) (literal start line s) := by
  fun_induction literal start line s with
  | case1 line s e read =>
    rw [literal_eq, part_later, read]
    rfl
  | case2 line s rest read =>
    rw [literal_eq, part_later, read]
    rfl
  | case3 line s text rest read ih =>
    rw [literal_eq, part_later, read]
    simp only [shifted, id, ih]
    cases literal start line rest <;> rfl
  | case4 line s rest read e skipped =>
    have skippedToo := @skip_later n line rest [.template line 0]
    rw [List.map_singleton, Frame.later] at skippedToo
    rw [literal_eq, part_later, read]
    simp only [shifted, id, skippedToo, skipped]
  | case5 line s rest read middle skipped ih =>
    have skippedToo := @skip_later n line rest [.template line 0]
    rw [List.map_singleton, Frame.later] at skippedToo
    rw [literal_eq, part_later, read]
    simp only [shifted, id, skippedToo, skipped, Cursor.later, ih]
    cases literal start middle.line middle.rest <;> rfl

/-- A comment is passed over alike further down. -/
theorem afterComment_later : afterComment (start + n) (line + n) s =
    shifted n (Cursor.later n) (afterComment start line s) := by
  fun_induction afterComment start line s with
  | case1 => rfl
  | case2 => rfl
  | case3 line d rest noEnd ih =>
    rw [afterComment, nextLine_later]
    · exact ih
    · exact noEnd

/-- The body of a heredoc is passed over alike further down. -/
theorem heredocBody_later {marker : List Char} : heredocBody (start + n) marker (line + n) s =
    shifted n (Cursor.later n) (heredocBody start marker line s) := by
  fun_induction heredocBody start marker line s with
  | case1 =>
    rw [heredocBody]
    rfl
  | case2 line d rest isMarker =>
    rw [heredocBody_cons, if_pos isMarker]
    rfl
  | case3 line d rest notMarker following =>
    rw [heredocBody_cons, if_neg notMarker, following]
    rfl
  | case4 line d rest notMarker e next following ih =>
    rw [heredocBody_cons, if_neg notMarker, following, ← ih, Nat.add_right_comm]

/-- A heredoc is passed over alike further down. -/
theorem heredoc_later : heredoc (line + n) s = shifted n (Cursor.later n) (heredoc line s) := by
  simp only [heredoc]
  split
  · rw [Nat.add_right_comm, heredocBody_later]
  · rfl

/-- A token is read alike further down. -/
theorem lexeme_later : lexeme (line + n) c s =
    shifted n (Prod.map id (Cursor.later n)) (lexeme line c s) := by
  simp only [lexeme, literal_later, heredoc_later, Nat.add_right_comm line n 1]
  split
  · rfl
  split
  · cases literal line line s <;> rfl
  split
  · rfl
  split
  · rfl
  split
  · rfl
  split
  · rfl
  split
  · rename_i body opens
    cases heredoc line body <;> rfl
  split
  · rfl
  split
  · rfl
  · rfl

/-- A gap or a token is read alike further down. -/
theorem step_later : step (line + n) c s =
    shifted n (Prod.map id (Cursor.later n)) (step line c s) := by
  simp only [step, afterComment_later, lexeme_later]
  split_ifs
  · rfl
  · rfl
  · cases afterComment line line (s.drop 1) <;> rfl
  · cases lexeme line c s <;> rfl

/-- A text that begins on a later line has the same tokens on later lines. -/
theorem tokenizeFrom_later : tokenizeFrom (line + n) s =
    shifted n (List.map (Token.later n)) (tokenizeFrom line s) := by
  fun_induction tokenizeFrom line s with
  | case1 =>
    rw [tokenizeFrom]
    rfl
  | case2 line c rest e refused =>
    rw [tokenizeFrom_cons, step_later, refused]
    rfl
  | case3 line c rest after read ih =>
    rw [tokenizeFrom_cons, step_later, read]
    exact ih
  | case4 line c rest kind after read ih =>
    rw [tokenizeFrom_cons, step_later, read]
    simp only [shifted, Prod.map_apply, id, Cursor.later, ih]
    cases tokenizeFrom after.line after.rest <;> rfl

end Reading

section Blocks

variable {n line nested : ℕ} {name : String} {lineStart : Bool} {args : Arguments}
  {opened : List ℕ} {tokens : List Token}

/-- A header is read alike from tokens further down. -/
theorem header?_later : header? (tokens.map (Token.later n)) =
    (header? tokens).map (Prod.map id (List.map (Token.later n))) := by
  match tokens with
  | [] => rfl
  | [t] => rfl
  | t :: u :: tokens =>
    simp only [header?, List.map_cons, Token.later]
    split
    · split <;> rfl
    · rfl

/-- The kind of the next token does not depend on lines. -/
theorem head?_later : (tokens.map (Token.later n)).head?.map Token.kind =
    tokens.head?.map Token.kind := by
  cases tokens <;> rfl

/-- An argument is added alike further down. -/
theorem add_later {module argument : String} {value : Option TokenKind} :
    args.add module argument (line + n) value =
      shifted n id (args.add module argument line value) := by
  simp only [Arguments.add]
  split_ifs
  · rfl
  · split <;> rfl
  · split <;> rfl
  · rfl

/-- The body of a block is read alike from tokens further down. -/
theorem moduleBody_later :
    moduleBody name (line + n) nested lineStart args (tokens.map (Token.later n)) =
      shifted n (Prod.map (ModuleBlock.later n) (List.map (Token.later n)))
        (moduleBody name line nested lineStart args tokens) := by
  fun_induction moduleBody name line nested lineStart args tokens with
  | case1 => rfl
  | case2 nested lineStart args t rest kind ih =>
    rw [List.map_cons, moduleBody_openBrace (t := t.later n) kind]
    exact ih
  | case3 lineStart args t rest kind =>
    rw [List.map_cons, moduleBody_of_close (t := t.later n) kind]
    rfl
  | case4 lineStart args t rest kind nested ih =>
    rw [List.map_cons, moduleBody_closeBrace (t := t.later n) kind]
    exact ih
  | case5 nested lineStart args t argument kind e value isArgument err refused =>
    rw [List.map_cons, List.map_cons, moduleBody_ident (t := t.later n) kind]
    simp only [Token.later, if_pos isArgument, head?_later, add_later, refused]
    rfl
  | case6 nested lineStart args t argument kind e value isArgument args' added ih =>
    rw [List.map_cons, List.map_cons, moduleBody_ident (t := t.later n) kind]
    simp only [Token.later, if_pos isArgument, head?_later, add_later, added]
    exact ih
  | case7 nested lineStart args t argument kind e value noArgument ih =>
    rw [List.map_cons, List.map_cons, moduleBody_ident (t := t.later n) kind]
    exact (if_neg noArgument).trans ih
  | case8 nested lineStart args t argument kind =>
    rw [List.map_cons, List.map_nil, moduleBody_of_last_ident (t := t.later n) kind]
    rfl
  | case9 nested lineStart args t rest noOpen noClose noName ih =>
    rw [List.map_cons, moduleBody_other (t := t.later n) noOpen noClose noName]
    exact ih

/-- Tokens further down give the same blocks further down, or the same problem there. -/
theorem blocks_later : blocks (opened.map (· + n)) lineStart (tokens.map (Token.later n)) =
    shifted n (List.map (ModuleBlock.later n)) (blocks opened lineStart tokens) := by
  fun_induction blocks opened lineStart tokens with
  | case1 lineStart =>
    rw [List.map_nil, List.map_nil, blocks.eq_def]
    rfl
  | case2 lineStart line opened =>
    rw [List.map_nil, List.map_cons, blocks.eq_def]
    rfl
  | case3 opened lineStart t rest kind ih =>
    rw [List.map_cons, blocks_openBrace (t := t.later n) kind]
    exact ih
  | case4 lineStart t rest kind =>
    rw [List.map_nil, List.map_cons, blocks_of_unexpected (t := t.later n) kind]
    rfl
  | case5 lineStart t rest kind line opened ih =>
    rw [List.map_cons, List.map_cons, blocks_closeBrace (t := t.later n) kind]
    exact ih
  | case6 opened lineStart t rest noHeader notOpen notClose starts ih =>
    obtain ⟨keyword, rfl, rfl⟩ := starts
    have noHeaderToo : header? (rest.map (Token.later n)) = none := by
      rw [header?_later, noHeader, Option.map_none]
    rw [List.map_nil, List.map_cons, blocks_of_header?_eq_none (t := t.later n) keyword noHeaderToo]
    exact ih
  -- The header that begins a block is found further down as well, with the same name.
  | case7 opened lineStart t rest name body named cause refused notOpen notClose starts =>
    obtain ⟨keyword, rfl, rfl⟩ := starts
    have namedToo : header? (rest.map (Token.later n)) = some (name, body.map (Token.later n)) := by
      rw [header?_later, named, Option.map_some, Prod.map_apply, id]
    rw [List.map_nil, List.map_cons, blocks_of_header? (t := t.later n) keyword namedToo,
      Token.later, moduleBody_later, refused]
    rfl
  | case8 opened lineStart t rest name body named block after read notOpen notClose starts ih =>
    obtain ⟨keyword, rfl, rfl⟩ := starts
    have namedToo : header? (rest.map (Token.later n)) = some (name, body.map (Token.later n)) := by
      rw [header?_later, named, Option.map_some, Prod.map_apply, id]
    rw [List.map_nil] at ih
    rw [List.map_nil, List.map_cons, blocks_of_header? (t := t.later n) keyword namedToo,
      Token.later, moduleBody_later, read]
    simp only [shifted, Prod.map_apply, ih]
    cases blocks [] true after <;> rfl
  | case9 opened lineStart t rest notOpen notClose noHeader ih =>
    rw [List.map_cons, blocks_other (t := t.later n) notOpen notClose
      (by simpa [Token.later] using noHeader)]
    exact ih

end Blocks

section Following

variable {name : String} {line nested : ℕ} {lineStart : Bool} {args : Arguments}
  {tokens rest body after : List Token} {block : ModuleBlock} {t : Token}

/-- What follows the body of a block are the last of the tokens. -/
theorem suffix_moduleBody
    (h : moduleBody name line nested lineStart args tokens = .ok (block, after)) :
    after <:+ tokens := by
  fun_induction moduleBody name line nested lineStart args tokens with
  | case1 => contradiction
  | case2 nested lineStart args t rest kind ih => exact (ih h).trans (List.suffix_cons t rest)
  | case3 lineStart args t rest kind =>
    obtain ⟨-, rfl⟩ := Prod.mk.inj (Except.ok.inj h)
    exact List.suffix_cons t _
  | case4 lineStart args t rest kind nested ih => exact (ih h).trans (List.suffix_cons t rest)
  | case5 => contradiction
  | case6 nested lineStart args t argument kind e value isArgument args' added ih =>
    exact (ih h).trans (List.suffix_append [t, e] value)
  | case7 nested lineStart args t argument kind e value noArgument ih =>
    exact (ih h).trans (List.suffix_cons t _)
  | case8 => contradiction
  | case9 nested lineStart args t rest noOpen noClose noName ih =>
    exact (ih h).trans (List.suffix_cons t rest)

/-- More tokens behind the body of a block are left as they are. -/
theorem moduleBody_append
    (h : moduleBody name line nested lineStart args tokens = .ok (block, after))
    (more : List Token) :
    moduleBody name line nested lineStart args (tokens ++ more) = .ok (block, after ++ more) := by
  fun_induction moduleBody name line nested lineStart args tokens with
  | case1 => contradiction
  | case2 nested lineStart args t rest kind ih =>
    rw [List.cons_append, moduleBody_openBrace kind]
    exact ih h
  | case3 lineStart args t rest kind =>
    obtain ⟨rfl, rfl⟩ := Prod.mk.inj (Except.ok.inj h)
    rw [List.cons_append, moduleBody_of_close kind]
  | case4 lineStart args t rest kind nested ih =>
    rw [List.cons_append, moduleBody_closeBrace kind]
    exact ih h
  | case5 => contradiction
  | case6 nested lineStart args t argument kind e value isArgument args' added ih =>
    -- without a value the block would not be closed
    have hasValue : value ≠ [] := by
      rintro rfl
      contradiction
    have sameValue : (value ++ more).head? = value.head? :=
      List.head?_append_of_ne_nil value hasValue
    rw [List.cons_append, List.cons_append, moduleBody_ident kind, if_pos isArgument, sameValue,
      added]
    exact ih h
  | case7 nested lineStart args t argument kind e value noArgument ih =>
    rw [List.cons_append, List.cons_append, moduleBody_ident kind, if_neg noArgument]
    exact ih h
  | case8 => contradiction
  | case9 nested lineStart args t rest noOpen noClose noName ih =>
    rw [List.cons_append, moduleBody_other noOpen noClose noName]
    exact ih h

/-- What follows a header are the last of the tokens. -/
theorem suffix_header? (h : header? tokens = some (name, rest)) : rest <:+ tokens := by
  obtain ⟨label, brace, rfl, -, -⟩ := header?_eq_some_iff.mp h
  exact List.suffix_append [label, brace] rest

/-- A token that ends the last line ends no header. -/
theorem header?_append (ends : EndsTokenLine tokens) (more : List Token) :
    header? (tokens ++ more) = (header? tokens).map fun (name, body) => (name, body ++ more) := by
  match tokens, ends with
  | [t], ends =>
    have kind : t.kind = .newline := by simpa [EndsTokenLine] using ends
    cases more <;> simp [header?, kind, TokenKind.label?]
  | t :: u :: tokens, _ =>
    simp only [header?, List.cons_append]
    split
    · split <;> rfl
    · rfl

/-- The last of the tokens end their line if all of them do. -/
theorem EndsTokenLine.of_suffix (ends : EndsTokenLine tokens) (suffix : rest <:+ tokens) :
    rest = [] ∨ EndsTokenLine rest := by
  obtain ⟨front, rfl⟩ := suffix
  by_cases nothing : rest = []
  · exact .inl nothing
  · rw [EndsTokenLine, List.getLast?_append_of_ne_nil _ nothing] at ends
    exact .inr ends

/-- Behind a token that is no line end, the others end the line. -/
theorem EndsTokenLine.of_cons (ends : EndsTokenLine (t :: rest)) (other : t.kind ≠ .newline) :
    EndsTokenLine rest := by
  obtain rfl | ends' := ends.of_suffix (List.suffix_cons t rest)
  · exact absurd (Option.some.inj ends) other
  · exact ends'

/-- Blocks that are read to the end of a line are followed by those of the tokens that follow. -/
theorem blocks_append {opened : List ℕ} {found : List ModuleBlock}
    (ends : (tokens = [] ∧ lineStart = true) ∨ EndsTokenLine tokens)
    (h : blocks opened lineStart tokens = .ok found) (more : List Token) :
    blocks opened lineStart (tokens ++ more) =
      (blocks [] true more).map fun later => found ++ later := by
  -- what is left after a token other than a line end still ends a line
  fun_induction blocks opened lineStart tokens generalizing found with
  | case1 lineStart =>
    obtain rfl := Except.ok.inj h
    obtain ⟨-, rfl⟩ | nothing := ends
    · rw [List.nil_append]
      cases blocks [] true more <;> rfl
    · contradiction
  | case2 => contradiction
  | case3 opened lineStart t rest kind ih =>
    obtain ⟨nothing, -⟩ | ends := ends
    · contradiction
    rw [List.cons_append, blocks_openBrace kind]
    exact ih (.inr (ends.of_cons (by simp [kind]))) h
  | case4 => contradiction
  | case5 lineStart t rest kind line opened ih =>
    obtain ⟨nothing, -⟩ | ends := ends
    · contradiction
    rw [List.cons_append, blocks_closeBrace kind]
    exact ih (.inr (ends.of_cons (by simp [kind]))) h
  | case6 opened lineStart t rest noHeader notOpen notClose starts ih =>
    obtain ⟨nothing, -⟩ | ends := ends
    · contradiction
    obtain ⟨keyword, rfl, rfl⟩ := starts
    have later := ends.of_cons (by simp [keyword])
    have noHeaderToo : header? (rest ++ more) = none := by
      rw [header?_append later, noHeader, Option.map_none]
    rw [List.cons_append, blocks_of_header?_eq_none keyword noHeaderToo]
    exact ih (.inr later) h
  | case7 => contradiction
  | case8 opened lineStart t rest name body named block after read notOpen notClose starts ih =>
    obtain ⟨nothing, -⟩ | ends := ends
    · contradiction
    obtain ⟨keyword, rfl, rfl⟩ := starts
    obtain ⟨found, foundLater, rfl⟩ := map_eq_ok_iff.mp h
    have later := ends.of_cons (by simp [keyword])
    have namedToo : header? (rest ++ more) = some (name, body ++ more) := by
      rw [header?_append later, named, Option.map_some]
    have suffix : after <:+ rest := (suffix_moduleBody read).trans (suffix_header? named)
    have atEnd : (after = [] ∧ true = true) ∨ EndsTokenLine after :=
      (later.of_suffix suffix).imp_left fun nothing => ⟨nothing, rfl⟩
    rw [List.cons_append, blocks_of_header? keyword namedToo, moduleBody_append read]
    simp only [ih atEnd foundLater]
    cases blocks [] true more <;> rfl
  | case9 opened lineStart t rest notOpen notClose noHeader ih =>
    obtain ⟨nothing, -⟩ | ends := ends
    · contradiction
    have atEnd : (rest = [] ∧ t.kind.startsLine = true) ∨ EndsTokenLine rest := by
      by_cases newline : t.kind = .newline
      · refine (ends.of_suffix (List.suffix_cons t rest)).imp_left fun nothing => ⟨nothing, ?_⟩
        rw [newline]
        rfl
      · exact .inr (ends.of_cons newline)
    rw [List.cons_append, blocks_other notOpen notClose noHeader]
    exact ih atEnd h

end Following

/-- The last line of the text is ended, if it has any. -/
def HasWholeLines (text : String) : Prop :=
  text = "" ∨ ∃ front, text = front ++ "\n"

/-- The tokens of two texts are those of the first, which ends its last line, and those of the
second, further down. -/
theorem tokenize_append {a b : String} {tokens : List Token} (ended : HasWholeLines a)
    (h : tokenize a = .ok tokens) :
    (tokens = [] ∨ EndsTokenLine tokens) ∧ tokenize (a ++ b) =
      (shifted (a.toList.count '\n') (List.map (Token.later (a.toList.count '\n')))
        (tokenize b)).map fun later => tokens ++ later := by
  rw [tokenize, String.toList_append, tokenize, ← tokenizeFrom_later]
  obtain rfl | ⟨front, rfl⟩ := ended
  · obtain rfl : [] = tokens := by
      rw [tokenize, String.toList_empty, tokenizeFrom] at h
      exact Except.ok.inj h
    refine ⟨.inl rfl, ?_⟩
    cases result : tokenizeFrom 1 b.toList <;> simp [result, Except.map]
  · have ends : EndsLine (front ++ "\n").toList := by simp [EndsLine]
    obtain ⟨lastLine, follows⟩ := tokenizeFrom_append ends h
    exact ⟨.inr lastLine, follows b.toList⟩

/-- Where the lines of the first of two texts are all ended and it is accepted, both together have
its blocks and then those of the second. The second is read as it is alone but for its lines, which
count on from the line ends of the first; where it is refused, both together are refused for the
same problem. -/
theorem scan_append {a b : String} {xs : List ModuleBlock} (ended : HasWholeLines a)
    (h : scan a = .ok xs) :
    (∀ ys, scan b = .ok ys →
      scan (a ++ b) = .ok (xs ++ ys.map (ModuleBlock.later (a.toList.count '\n')))) ∧
    ∀ e, scan b = .error e → scan (a ++ b) = .error (e.later (a.toList.count '\n')) := by
  have follows : scan (a ++ b) = (shifted (a.toList.count '\n')
      (List.map (ModuleBlock.later (a.toList.count '\n'))) (scan b)).map fun ys => xs ++ ys := by
    unfold scan at h
    cases first : tokenize a with
    | error e => simp [first] at h
    | ok tokens =>
      rw [first] at h
      obtain ⟨atEnd, together⟩ := tokenize_append (b := b) ended first
      rw [scan, together, scan]
      cases tokenize b with
      | error e => rfl
      | ok more =>
        have ends := atEnd.imp_left fun nothing => (⟨nothing, rfl⟩ : tokens = [] ∧ true = true)
        have later := @blocks_later (a.toList.count '\n') true [] more
        rw [List.map_nil] at later
        simp only [shifted, Except.map, blocks_append ends h, later]
  refine ⟨fun ys found => ?_, fun e refused => ?_⟩
  · rw [follows, found]
    rfl
  · rw [follows, refused]
    rfl

/-- The first text ends after a heredoc and the second is refused on its second line. -/
theorem scan_append_heredoc :
    let a := "x = <<E\n\x7b\nE\nmodule a \x7b\n source = \"./a\"\n\x7d\n"
    let b := "module b \x7b\n source = c \x7d"
    HasWholeLines a ∧ scan a = .ok [⟨"a", some "./a", none, 4⟩] ∧
    (∀ ys, scan b = .ok ys → scan (a ++ b) =
      .ok ([⟨"a", some "./a", none, 4⟩] ++ ys.map (ModuleBlock.later (a.toList.count '\n')))) ∧
    ∀ e, scan b = .error e → scan (a ++ b) = .error (e.later (a.toList.count '\n')) := by
  intro a b
  have ended : HasWholeLines a :=
    .inr ⟨"x = <<E\n\x7b\nE\nmodule a \x7b\n source = \"./a\"\n\x7d", by decide⟩
  have scanned : scan a = .ok [⟨"a", some "./a", none, 4⟩] := by decide +kernel
  exact ⟨ended, scanned, scan_append ended scanned⟩

end Native

end TerraDeps
