import TerraDeps.ModuleBlock
import TerraDeps.Result
import TerraDeps.Text.Hex

/-!
# Quoted strings of the native syntax

A quoted string is read part by part: characters, escapes, and templates, which open with `$` or
`%` and a brace. `skip` passes over a template whatever is nested in it, holding the strings and
templates that are open as a stack of frames; `literal` collects the text that a string has outside
its templates. Every step leaves less to read, which is why reading ends.
-/

set_option autoImplicit false

namespace TerraDeps.Native

open Text

/-- A place in a file: the line, counted from 1, and the characters from there on. -/
structure Cursor where
  line : Nat
  rest : List Char
  deriving DecidableEq, Repr

/-- The number that hexadecimal digits write after those that wrote `value`. -/
def hexNumberFrom? (value : Nat) : List Char → Option Nat
  | [] => some value
  | c :: rest => (hexValue? c).bind fun d => hexNumberFrom? (16 * value + d) rest

/-- The number that hexadecimal digits write, which may have a plus sign; no digits write none. -/
def hexNumber? : List Char → Option Nat
  | '+' :: c :: rest => hexNumberFrom? 0 (c :: rest)
  | c :: rest => hexNumberFrom? 0 (c :: rest)
  | [] => none

/-- The character with a code, unless the code belongs to none. -/
def charOfCode? (code : Nat) : Option Char :=
  if code < 0xD800 ∨ (0xDFFF < code ∧ code < 0x110000) then some (Char.ofNat code) else none

/-- Reads the `count` digits of a unicode escape. -/
def unicodeEscape (line count : Nat) (s : List Char) : Except ScanError (Char × List Char) :=
  let digits := s.take count
  let code := if digits.length = count then hexNumber? digits else none
  match code.bind charOfCode? with
  | some c => .ok (c, s.drop count)
  | none => .error ⟨line, .invalidUnicode (String.ofList digits)⟩

/-- Reads an escape after its backslash: the character it stands for, and the rest. -/
def escape (line : Nat) : List Char → Except ScanError (Char × List Char)
  | [] => .error ⟨line, .unterminatedString⟩
  | c :: rest =>
    if c = 'n' then .ok ('\n', rest)
    else if c = 't' then .ok ('\t', rest)
    else if c = 'r' then .ok ('\r', rest)
    else if c = '"' then .ok ('"', rest)
    else if c = '\\' then .ok ('\\', rest)
    else if c = 'u' then unicodeEscape line 4 rest
    else if c = 'U' then unicodeEscape line 8 rest
    else .error ⟨line, .invalidEscape c⟩

/-- A part of a quoted string. -/
inductive Part where
  /-- The quote that ends the string. -/
  | close
  /-- Characters of the string's text. -/
  | chars (text : List Char)
  /-- The start of a template. -/
  | openTemplate
  deriving DecidableEq, Repr

/-- Whether a template may start with the character. -/
def isTemplateSign (c : Char) : Bool :=
  c = '$' || c = '%'

/-- Reads one part of a string that started on line `start`. A sign written twice before a brace
stands for the sign and the brace; a sign written once there opens a template. -/
def part (start line : Nat) : List Char → Except ScanError (Part × List Char)
  | [] => .error ⟨start, .unterminatedString⟩
  | c :: rest =>
    if c = '\n' then .error ⟨start, .unterminatedString⟩
    else if c = '"' then .ok (.close, rest)
    else if c = '\\' then (escape line rest).map fun (d, after) => (.chars [d], after)
    else if isTemplateSign c && [c, '{'].isPrefixOf rest then .ok (.chars [c, '{'], rest.drop 2)
    else if isTemplateSign c && rest.head? = some '{' then .ok (.openTemplate, rest.drop 1)
    else .ok (.chars [c], rest)

/-- The first character of an escape decides what it is: the escape of one character, one with
digits, or none. -/
theorem escape_cons_cases (c : Char) :
    (∃ d, ∀ line rest, escape line (c :: rest) = .ok (d, rest)) ∨
    (∃ count, ∀ line rest, escape line (c :: rest) = unicodeEscape line count rest) ∨
    ∀ line rest, escape line (c :: rest) = .error ⟨line, .invalidEscape c⟩ := by
  simp only [escape]
  split
  · exact .inl ⟨_, fun _ _ => rfl⟩
  split
  · exact .inl ⟨_, fun _ _ => rfl⟩
  split
  · exact .inl ⟨_, fun _ _ => rfl⟩
  split
  · exact .inl ⟨_, fun _ _ => rfl⟩
  split
  · exact .inl ⟨_, fun _ _ => rfl⟩
  split
  · exact .inr (.inl ⟨_, fun _ _ => rfl⟩)
  split
  · exact .inr (.inl ⟨_, fun _ _ => rfl⟩)
  · exact .inr (.inr fun _ _ => rfl)

/-- What follows the digits of an escape is no longer than the text that starts with them. -/
theorem length_unicodeEscape {line count : Nat} {s after : List Char} {c : Char}
    (h : unicodeEscape line count s = .ok (c, after)) : after.length ≤ s.length := by
  simp only [unicodeEscape] at h
  split at h
  · obtain ⟨-, rfl⟩ := Prod.mk.inj (Except.ok.inj h)
    exact (List.drop_suffix count s).length_le
  · contradiction

/-- Reading an escape leaves less than there was. -/
theorem length_escape {line : Nat} {s after : List Char} {c : Char}
    (h : escape line s = .ok (c, after)) : after.length < s.length := by
  cases s with
  | nil => contradiction
  | cons d rest =>
    obtain ⟨e, reads⟩ | ⟨count, reads⟩ | refuses := escape_cons_cases d
    · rw [reads] at h
      obtain ⟨-, rfl⟩ := Prod.mk.inj (Except.ok.inj h)
      exact Nat.lt_succ_self _
    · rw [reads] at h
      exact Nat.lt_succ_of_le (length_unicodeEscape h)
    · rw [refuses] at h
      contradiction

/-- Reading a part of a string leaves less than there was. -/
theorem length_part {start line : Nat} {s after : List Char} {p : Part}
    (h : part start line s = .ok (p, after)) : after.length < s.length := by
  cases s with
  | nil => contradiction
  | cons c rest =>
    have ofSuffix {q : Part} {left : List Char} (suffix : left <:+ rest)
        (read : Except.ok (ε := ScanError) (q, left) = .ok (p, after)) :
        after.length < (c :: rest).length := by
      obtain ⟨-, rfl⟩ := Prod.mk.inj (Except.ok.inj read)
      exact Nat.lt_succ_of_le suffix.length_le
    rw [part] at h
    split at h
    · contradiction
    split at h
    · exact ofSuffix List.suffix_rfl h
    split at h
    · obtain ⟨⟨d, after⟩, read, ⟨⟩⟩ := map_eq_ok_iff.mp h
      exact Nat.lt_succ_of_lt (length_escape read)
    split at h
    · exact ofSuffix (List.drop_suffix 2 rest) h
    split at h
    · exact ofSuffix (List.drop_suffix 1 rest) h
    · exact ofSuffix List.suffix_rfl h

/-- A string or a template that is open, with the line it started on. -/
inductive Frame where
  /-- An open string. -/
  | quoted (start : Nat)
  /-- An open template; `groups` counts the braces that are open within it. -/
  | template (start groups : Nat)
  deriving DecidableEq, Repr

/-- Passes over what the frames, innermost first, still have open. -/
def skip (frames : List Frame) (line : Nat) (s : List Char) : Except ScanError Cursor :=
  match frames with
  | [] => .ok ⟨line, s⟩
  | .template start groups :: outer =>
    match s with
    | [] => .error ⟨start, .unterminatedTemplate⟩
    | c :: rest =>
      if c = '{' then skip (.template start (groups + 1) :: outer) line rest
      else if c = '}' then
        match groups with
        | 0 => skip outer line rest
        | groups + 1 => skip (.template start groups :: outer) line rest
      else if c = '"' then skip (.quoted line :: .template start groups :: outer) line rest
      else skip (.template start groups :: outer) (if c = '\n' then line + 1 else line) rest
  | .quoted start :: outer =>
    match _h : part start line s with
    | .error e => .error e
    | .ok (.close, rest) => skip outer line rest
    | .ok (.chars _, rest) => skip (.quoted start :: outer) line rest
    | .ok (.openTemplate, rest) => skip (.template line 0 :: .quoted start :: outer) line rest
termination_by s.length
decreasing_by all_goals first
  | (simp only [List.length_cons]; omega)
  | exact length_part (by assumption)

section Skipping

variable {start line : Nat} {c : Char} {s : List Char}

/-- A template goes deeper at an opening brace, up at a closing one, and ends at the one that closes
it. -/
theorem skip_template (groups : Nat) (outer : List Frame) :
    skip (.template start groups :: outer) line (c :: s) =
      if c = '{' then skip (.template start (groups + 1) :: outer) line s
      else if c = '}' then
        match groups with
        | 0 => skip outer line s
        | groups + 1 => skip (.template start groups :: outer) line s
      else if c = '"' then skip (.quoted line :: .template start groups :: outer) line s
      else skip (.template start groups :: outer) (if c = '\n' then line + 1 else line) s := by
  cases groups <;> rw [skip.eq_def]

/-- In a string within a template, each part is passed over, and a quote ends the string. -/
theorem skip_quoted (outer : List Frame) : skip (.quoted start :: outer) line s =
    match part start line s with
    | .error e => .error e
    | .ok (.close, rest) => skip outer line rest
    | .ok (.chars _, rest) => skip (.quoted start :: outer) line rest
    | .ok (.openTemplate, rest) => skip (.template line 0 :: .quoted start :: outer) line rest := by
  rw [skip]
  split <;> simp_all

end Skipping

/-- What is skipped leaves no more than the text it is read from. -/
theorem length_skip {frames : List Frame} {line : Nat} {s : List Char} {c : Cursor}
    (h : skip frames line s = .ok c) : c.rest.length ≤ s.length := by
  fun_induction skip frames line s with
  | case1 =>
    obtain rfl := Except.ok.inj h
    exact Nat.le_refl _
  | case2 | case8 => contradiction
  | case3 | case4 | case5 | case6 | case7 =>
    rename_i ih
    exact Nat.le_succ_of_le (ih h)
  | case9 | case10 | case11 =>
    rename_i read ih
    exact Nat.le_trans (ih h) (Nat.le_of_lt (length_part read))

/-- The text of a quoted string outside its templates, and whether it has any. -/
structure Literal where
  text : List Char
  templated : Bool
  deriving DecidableEq, Repr

/-- Reads a string that started on line `start`, after its opening quote. -/
def literal (start line : Nat) (s : List Char) : Except ScanError (Literal × Cursor) :=
  match _h : part start line s with
  | .error e => .error e
  | .ok (.close, rest) => .ok (⟨[], false⟩, ⟨line, rest⟩)
  | .ok (.chars text, rest) =>
    (literal start line rest).map fun (l, c) => ({ l with text := text ++ l.text }, c)
  | .ok (.openTemplate, rest) =>
    match _h' : skip [.template line 0] line rest with
    | .error e => .error e
    | .ok after =>
      (literal start after.line after.rest).map fun (l, c) => ({ l with templated := true }, c)
termination_by s.length
decreasing_by
  · exact length_part (by assumption)
  · have := length_part (by assumption)
    have := length_skip (by assumption)
    omega

/-- A literal is read part by part up to its closing quote. -/
theorem literal_eq {start line : Nat} {s : List Char} : literal start line s =
    match part start line s with
    | .error e => .error e
    | .ok (.close, rest) => .ok (⟨[], false⟩, ⟨line, rest⟩)
    | .ok (.chars text, rest) =>
      (literal start line rest).map fun (l, c) => ({ l with text := text ++ l.text }, c)
    | .ok (.openTemplate, rest) =>
      match skip [.template line 0] line rest with
      | .error e => .error e
      | .ok after => (literal start after.line after.rest).map
        fun (l, c) => ({ l with templated := true }, c) := by
  rw [literal]
  split
  · simp_all
  · simp_all
  · simp_all
  · split <;> simp_all

/-- A literal, its closing quote included, leaves less than the text it is read from. -/
theorem length_literal {start line : Nat} {s : List Char} {l : Literal} {c : Cursor}
    (h : literal start line s = .ok (l, c)) : c.rest.length < s.length := by
  fun_induction literal start line s generalizing l c with
  | case1 | case4 => contradiction
  | case2 line s rest closes =>
    obtain ⟨-, rfl⟩ := Prod.mk.inj (Except.ok.inj h)
    exact length_part closes
  | case3 line s text rest isPart ih =>
    obtain ⟨⟨more, after⟩, read, ⟨⟩⟩ := map_eq_ok_iff.mp h
    exact Nat.lt_trans (ih read) (length_part isPart)
  | case5 line s rest opens after skipped ih =>
    obtain ⟨⟨more, after⟩, read, ⟨⟩⟩ := map_eq_ok_iff.mp h
    exact Nat.lt_trans (Nat.lt_of_lt_of_le (ih read) (length_skip skipped)) (length_part opens)

end TerraDeps.Native
