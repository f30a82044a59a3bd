import TerraDeps.Native.Quoted
import TerraDeps.Text.Blank
import TerraDeps.Text.Letter

/-!
# Tokens of the native syntax

Only as much of the syntax is told apart as is needed to follow the structure of blocks: names,
quoted strings, heredocs, braces, `=` and line ends. Numbers, brackets and operators are one kind
of token; blanks and comments are none. `step` reads one token or passes over one gap and never
leaves more to read (`length_step`); `tokenize` repeats it to the end of the text.
-/

set_option autoImplicit false

namespace TerraDeps.Native

open Text

/-- The kinds of tokens. -/
inductive TokenKind where
  | ident (name : String)
  /-- A quoted string: its text outside templates, and whether it has templates. -/
  | str (value : String) (templated : Bool)
  | heredoc
  | openBrace
  | closeBrace
  | equals
  | newline
  | other
  deriving DecidableEq, Repr

/-- A token with the line it starts on. -/
structure Token where
  kind : TokenKind
  line : Nat
  deriving DecidableEq, Repr

/-- Whether the character separates tokens and is nothing else. -/
def isGap (c : Char) : Bool :=
  c = ' ' || c = '\t' || c = '\r' || c = '\uFEFF'

/-- Whether a name may start with the character. -/
def isIdentStart (c : Char) : Bool :=
  isAlphabetic c || c = '_'

/-- Whether a name may go on with the character. -/
def isIdentPart (c : Char) : Bool :=
  isAlphanumeric c || c = '_' || c = '-'

/-- What follows the rest of a line; the line's end stays. -/
def afterLine (s : List Char) : List Char :=
  s.dropWhile (· != '\n')

/-- Passes over a block comment that started on line `start`, after its opening. -/
def afterComment (start line : Nat) : List Char → Except ScanError Cursor
  | [] => .error ⟨start, .unterminatedComment⟩
  | '*' :: '/' :: rest => .ok ⟨line, rest⟩
  | c :: rest => afterComment start (if c = '\n' then line + 1 else line) rest

/-- What follows the opening sign of a heredoc: its marker and more, if a marker follows. -/
def heredocMarker? (s : List Char) : Option (List Char) :=
  match s with
  | '<' :: '<' :: rest =>
    let after := if rest.head? = some '-' then rest.drop 1 else rest
    if after.head?.any isIdentStart then some after else none
  | _ => none

/-- Passes over the body of a heredoc up to the end of the first line that is the marker between
blanks. -/
def heredocBody (start : Nat) (marker : List Char) (line : Nat) (s : List Char) :
    Except ScanError Cursor :=
  match s with
  | [] => .error ⟨start, .unterminatedHeredoc (String.ofList marker)⟩
  | c :: rest =>
    if trimBlanks ((c :: rest).takeWhile (· != '\n')) = marker then
      .ok ⟨line, afterLine (c :: rest)⟩
    else
      match _h : afterLine (c :: rest) with
      | [] => .error ⟨start, .unterminatedHeredoc (String.ofList marker)⟩
      | _ :: next => heredocBody start marker (line + 1) next
termination_by s.length
decreasing_by
  have cut : (afterLine (c :: rest)).length ≤ (c :: rest).length :=
    (List.dropWhile_suffix _).length_le
  rw [_h] at cut
  exact cut

/-- A line of a heredoc's body either is its marker and ends it or is passed over. -/
theorem heredocBody_cons {start line : Nat} {c : Char} {s marker : List Char} :
    heredocBody start marker line (c :: s) =
    if trimBlanks ((c :: s).takeWhile (· != '\n')) = marker then .ok ⟨line, afterLine (c :: s)⟩
    else match afterLine (c :: s) with
      | [] => .error ⟨start, .unterminatedHeredoc (String.ofList marker)⟩
      | _ :: next => heredocBody start marker (line + 1) next := by
  rw [heredocBody]
  split
  · rfl
  · split <;> simp_all

/-- Passes over a heredoc from its marker on; nothing but blanks may follow the marker on its
line. -/
def heredoc (line : Nat) (s : List Char) : Except ScanError Cursor :=
  let marker := s.takeWhile isIdentPart
  match (s.dropWhile isIdentPart).dropWhile fun c => c = ' ' || c = '\t' || c = '\r' with
  | '\n' :: body => heredocBody line marker (line + 1) body
  | _ => .error ⟨line, .heredocOpenerNotAlone (String.ofList marker)⟩

/-- Whether a two-character operator may start with the character. -/
def isOperatorStart (c : Char) : Bool :=
  c = '=' || c = '!' || c = '<' || c = '>'

/-- Whether the text goes on with the second sign of a two-character operator. -/
def hasOperatorEnd (s : List Char) : Bool :=
  s.head? = some '=' || s.head? = some '>'

/-- Reads the token that starts with `c` on line `line`, where no gap does. -/
def lexeme (line : Nat) (c : Char) (s : List Char) : Except ScanError (TokenKind × Cursor) :=
  if c = '\n' then .ok (.newline, ⟨line + 1, s⟩)
  else if c = '"' then
    (literal line line s).map fun (l, after) => (.str (String.ofList l.text) l.templated, after)
  else if c = '{' then .ok (.openBrace, ⟨line, s⟩)
  else if c = '}' then .ok (.closeBrace, ⟨line, s⟩)
  else if isIdentStart c then
    .ok (.ident (String.ofList (c :: s.takeWhile isIdentPart)), ⟨line, s.dropWhile isIdentPart⟩)
  else if c.isDigit then
    .ok (.other, ⟨line, s.dropWhile fun d => isAlphanumeric d || d = '.'⟩)
  else
    match heredocMarker? (c :: s) with
    | some body => (heredoc line body).map fun after => (.heredoc, after)
    | none =>
      if isOperatorStart c && hasOperatorEnd s then .ok (.other, ⟨line, s.drop 1⟩)
      else if c = '=' then .ok (.equals, ⟨line, s⟩)
      else .ok (.other, ⟨line, s⟩)

/-- Passes over the gap that starts with `c` on line `line`, or reads the token that does. -/
def step (line : Nat) (c : Char) (s : List Char) :
    Except ScanError (Option TokenKind × Cursor) :=
  if isGap c then .ok (none, ⟨line, s⟩)
  else if c = '#' || (c = '/' && s.head? = some '/') then .ok (none, ⟨line, afterLine s⟩)
  else if c = '/' && s.head? = some '*' then
    (afterComment line line (s.drop 1)).map fun after => (none, after)
  else (lexeme line c s).map fun (kind, after) => (some kind, after)

/-- A comment leaves no more than the text it is read from. -/
theorem length_afterComment {start line : Nat} {s : List Char} {c : Cursor}
    (h : afterComment start line s = .ok c) : c.rest.length ≤ s.length := by
  fun_induction afterComment start line s with
  | case1 => contradiction
  | case2 line rest =>
    simp only [← Except.ok.inj h, List.length_cons]
    omega
  | case3 line d rest _ ih =>
    have := ih h
    simp only [List.length_cons]
    omega

/-- The body of a heredoc leaves no more than the text it is read from. -/
theorem length_heredocBody {start : Nat} {marker : List Char} {line : Nat} {s : List Char}
    {c : Cursor} (h : heredocBody start marker line s = .ok c) : c.rest.length ≤ s.length := by
  fun_induction heredocBody start marker line s with
  | case1 => contradiction
  | case2 line d rest _ =>
    rw [← Except.ok.inj h]
    exact (List.dropWhile_suffix _).length_le
  | case3 => contradiction
  | case4 line d rest _ e next following ih =>
    have cut : (afterLine (d :: rest)).length ≤ (d :: rest).length :=
      (List.dropWhile_suffix _).length_le
    rw [following] at cut
    exact Nat.le_trans (ih h) (Nat.le_of_lt cut)

/-- A heredoc leaves no more than the text it is read from. -/
theorem length_heredoc {line : Nat} {s : List Char} {c : Cursor}
    (h : heredoc line s = .ok c) : c.rest.length ≤ s.length := by
  simp only [heredoc] at h
  split at h
  · rename_i body opens
    have shorter := length_heredocBody h
    have suffix := (List.dropWhile_suffix fun c => c = ' ' || c = '\t' || c = '\r').trans
      (List.dropWhile_suffix (l := s) isIdentPart)
    rw [opens] at suffix
    exact Nat.le_trans shorter (Nat.le_of_lt suffix.length_le)
  · contradiction

/-- What follows the opening sign of a heredoc is no longer than what follows its first character.
-/
theorem length_heredocMarker {c : Char} {s body : List Char}
    (h : heredocMarker? (c :: s) = some body) : body.length ≤ s.length := by
  simp only [heredocMarker?] at h
  split at h
  · rename_i rest starts
    obtain ⟨rfl, rfl⟩ := List.cons.inj starts
    have suffix : (if rest.head? = some '-' then rest.drop 1 else rest) <:+ rest := by
      split
      · exact List.drop_suffix 1 rest
      · exact List.suffix_rfl
    obtain ⟨-, same⟩ := Option.ite_none_right_eq_some.mp h
    rw [← Option.some.inj same]
    exact Nat.le_succ_of_le suffix.length_le
  · contradiction

/-- The text behind a token that was read is the text that the reading gave, and no longer than it.
-/
theorem length_of_ok {α : Type} {n : Nat} {k k' : α} {a after : Cursor}
    (h : (Except.ok (k', a) : Except ScanError _) = .ok (k, after)) (le : a.rest.length ≤ n) :
    after.rest.length ≤ n :=
  (Prod.mk.inj (Except.ok.inj h)).2 ▸ le

/-- A token leaves no more than what follows its first character. -/
theorem length_lexeme {line : Nat} {c : Char} {s : List Char} {k : TokenKind} {after : Cursor}
    (h : lexeme line c s = .ok (k, after)) : after.rest.length ≤ s.length := by
  unfold lexeme at h
  split at h
  · exact length_of_ok h (Nat.le_refl _)
  split at h
  · obtain ⟨⟨l, after⟩, read, ⟨⟩⟩ := map_eq_ok_iff.mp h
    exact Nat.le_of_lt (length_literal read)
  split at h
  · exact length_of_ok h (Nat.le_refl _)
  split at h
  · exact length_of_ok h (Nat.le_refl _)
  split at h
  · exact length_of_ok h (List.dropWhile_suffix _).length_le
  split at h
  · exact length_of_ok h (List.dropWhile_suffix _).length_le
  split at h
  · rename_i body opens
    obtain ⟨after, read, ⟨⟩⟩ := map_eq_ok_iff.mp h
    exact Nat.le_trans (length_heredoc read) (length_heredocMarker opens)
  split at h
  · exact length_of_ok h (by simp)
  split at h
  · exact length_of_ok h (Nat.le_refl _)
  · exact length_of_ok h (Nat.le_refl _)

/-- Reading a token or a gap never leaves more than what follows its first character. -/
theorem length_step {line : Nat} {c : Char} {s : List Char} {k : Option TokenKind} {after : Cursor}
    (h : step line c s = .ok (k, after)) : after.rest.length ≤ s.length := by
  unfold step at h
  split at h
  · exact length_of_ok h (Nat.le_refl _)
  split at h
  · exact length_of_ok h (List.dropWhile_suffix _).length_le
  split at h
  · obtain ⟨after, read, ⟨⟩⟩ := map_eq_ok_iff.mp h
    exact Nat.le_trans (length_afterComment read) (List.drop_suffix 1 s).length_le
  · obtain ⟨⟨k, after⟩, read, ⟨⟩⟩ := map_eq_ok_iff.mp h
    exact length_lexeme read

/-- The tokens of the characters that start on line `line`. -/
def tokenizeFrom (line : Nat) (s : List Char) : Except ScanError (List Token) :=
  match s with
  | [] => .ok []
  | c :: rest =>
    match _h : step line c rest with
    | .error e => .error e
    | .ok (none, after) => tokenizeFrom after.line after.rest
    | .ok (some kind, after) =>
      (tokenizeFrom after.line after.rest).map fun tokens => ⟨kind, line⟩ :: tokens
termination_by s.length
decreasing_by all_goals
  have := length_step (by assumption)
  simp only [List.length_cons]
  omega

/-- A text is read by its first step and then from where the step leaves off. -/
theorem tokenizeFrom_cons {line : Nat} {c : Char} {s : List Char} : tokenizeFrom line (c :: s) =
    match step line c s with
    | .error e => .error e
    | .ok (none, after) => tokenizeFrom after.line after.rest
    | .ok (some kind, after) =>
      (tokenizeFrom after.line after.rest).map fun tokens => ⟨kind, line⟩ :: tokens := by
  rw [tokenizeFrom]
  split <;> simp_all

/-- The tokens of a text. -/
def tokenize (text : String) : Except ScanError (List Token) :=
  tokenizeFrom 1 text.toList

end TerraDeps.Native
