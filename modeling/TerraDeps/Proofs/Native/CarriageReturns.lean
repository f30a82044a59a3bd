import TerraDeps.Proofs.Native.LineEnds

/-!
# Carriage returns before line ends

A text that has carriage returns before its line ends is scanned as the text without them. Both are
read side by side: each reader, run on two texts that differ in such returns only, leaves two texts
of this kind again, or refuses both on the same line (`Agree`). The induction is on how the longer
text is read, where a return is a step of its own that the shorter text does not take.
-/

set_option autoImplicit false

namespace TerraDeps.Native

open Text

/-- The second text is the first with carriage returns before some of its line ends. -/
inductive AddsReturns : List Char → List Char → Prop
  | nil : AddsReturns [] []
  | char (c : Char) {s s' : List Char} (later : AddsReturns s s') : AddsReturns (c :: s) (c :: s')
  | addReturn {s s' : List Char} (line : AddsReturns ('\n' :: s) s') :
      AddsReturns ('\n' :: s) ('\r' :: s')

namespace AddsReturns

variable {c : Char} {s s' t t' word : List Char} {p : Char → Bool}

/-- A character other than a return stands at the front of the first text too. -/
theorem of_cons (notReturn : c ≠ '\r') (h : AddsReturns s (c :: t')) :
    ∃ t, s = c :: t ∧ AddsReturns t t' := by
  cases h with
  | char c later => exact ⟨_, rfl, later⟩
  | addReturn line => exact absurd rfl notReturn

/-- A character other than a line end stays at the front. -/
theorem of_cons_left (notNewline : c ≠ '\n') (h : AddsReturns (c :: t) s') :
    ∃ t', s' = c :: t' ∧ AddsReturns t t' := by
  cases h with
  | char c later => exact ⟨_, rfl, later⟩
  | addReturn line => exact absurd rfl notNewline

/-- Returns are added to no empty text. -/
theorem eq_nil_iff (h : AddsReturns s s') : s = [] ↔ s' = [] := by
  cases h <;> simp

/-- A test that no line end and no return passes has one answer for the two first characters. -/
theorem any_head?_eq (notNewline : p '\n' = false) (notReturn : p '\r' = false)
    (h : AddsReturns s s') : s'.head?.any p = s.head?.any p := by
  cases h with
  | nil => rfl
  | char c later => rfl
  | addReturn line => simp [notNewline, notReturn]

/-- Both texts start with the same character, unless it is a return or a line end. -/
theorem head?_eq_iff (notNewline : c ≠ '\n') (notReturn : c ≠ '\r') (h : AddsReturns s s') :
    s'.head? = some c ↔ s.head? = some c := by
  cases h with
  | nil => rfl
  | char d later => rfl
  | addReturn line => simp [notNewline.symm, notReturn.symm]

/-- A word without line ends and returns that starts one text starts the other. -/
theorem of_append (noReturn : '\r' ∉ word) (h : AddsReturns s (word ++ t')) :
    ∃ t, s = word ++ t ∧ AddsReturns t t' := by
  induction word generalizing s with
  | nil => exact ⟨s, rfl, h⟩
  | cons d word ih =>
    obtain ⟨different, noReturn⟩ := not_or.mp (mt List.mem_cons.mpr noReturn)
    obtain ⟨u, rfl, later⟩ := h.of_cons (Ne.symm different)
    obtain ⟨t, rfl, rest⟩ := ih noReturn later
    exact ⟨t, rfl, rest⟩

/-- A word without line ends stays at the front. -/
theorem of_append_left (noNewline : '\n' ∉ word) (h : AddsReturns (word ++ t) s') :
    ∃ t', s' = word ++ t' ∧ AddsReturns t t' := by
  induction word generalizing s' with
  | nil => exact ⟨s', rfl, h⟩
  | cons d word ih =>
    obtain ⟨different, noNewline⟩ := not_or.mp (mt List.mem_cons.mpr noNewline)
    obtain ⟨u, rfl, later⟩ := h.of_cons_left (Ne.symm different)
    obtain ⟨t', rfl, rest⟩ := ih noNewline later
    exact ⟨t', rfl, rest⟩

/-- Both texts start with the same words without line ends and returns. -/
theorem isPrefixOf_eq (noNewline : '\n' ∉ word) (noReturn : '\r' ∉ word) (h : AddsReturns s s') :
    word.isPrefixOf s' = word.isPrefixOf s := by
  rw [Bool.eq_iff_iff, List.isPrefixOf_iff_prefix, List.isPrefixOf_iff_prefix]
  constructor
  · rintro ⟨t', rfl⟩
    obtain ⟨t, rfl, -⟩ := h.of_append noReturn
    exact List.prefix_append word t
  · rintro ⟨t, rfl⟩
    obtain ⟨t', rfl, -⟩ := h.of_append_left noNewline
    exact List.prefix_append word t'

/-- Without a word at the front, the texts still differ in returns only. -/
theorem drop_length (isPrefix : word <+: s) (noNewline : '\n' ∉ word) (h : AddsReturns s s') :
    AddsReturns (s.drop word.length) (s'.drop word.length) := by
  obtain ⟨t, rfl⟩ := isPrefix
  obtain ⟨t', rfl, rest⟩ := h.of_append_left noNewline
  simpa using rest

/-- Without characters at the front among which line ends do not count, the texts still differ in
returns only. -/
theorem dropWhile (notNewline : p '\n' = false) (h : AddsReturns s s') :
    AddsReturns (s.dropWhile p) (s'.dropWhile p) := by
  induction h with
  | nil => exact nil
  | char c later ih =>
    cases drops : p c with
    | true => simpa [drops] using ih
    | false => simpa [drops] using char c later
  | addReturn line ih =>
    cases drops : p '\r' with
    | true => simpa [drops] using ih
    | false => simpa [drops, notNewline] using addReturn line

/-- Characters at the front among which line ends and returns do not count are the same in both
texts. -/
theorem takeWhile_eq (notNewline : p '\n' = false) (notReturn : p '\r' = false)
    (h : AddsReturns s s') : s'.takeWhile p = s.takeWhile p := by
  induction h with
  | nil => rfl
  | char c later ih => simp only [List.takeWhile_cons, ih]
  | addReturn line ih => simp [notNewline, notReturn]

/-- The first line has returns at its end that it did not have, and no other difference. -/
theorem exists_takeWhile_eq (h : AddsReturns s s') :
    ∃ n, s'.takeWhile (· != '\n') = s.takeWhile (· != '\n') ++ List.replicate n '\r' := by
  induction h with
  | nil => exact ⟨0, rfl⟩
  | char c later ih =>
    obtain ⟨n, same⟩ := ih
    by_cases isNewline : c = '\n'
    · exact ⟨0, by simp [isNewline]⟩
    · exact ⟨n, by simp [isNewline, same]⟩
  | addReturn line ih =>
    obtain ⟨n, same⟩ := ih
    refine ⟨n + 1, ?_⟩
    simpa [List.replicate_succ] using same

/-- Of the characters up to a number, all are the same, or there is a line end among those of the
first text and a return among those of the second. -/
theorem take_cases (h : AddsReturns s s') (n : ℕ) :
    (s'.take n = s.take n ∧ AddsReturns (s.drop n) (s'.drop n)) ∨
      ('\n' ∈ s.take n ∧ '\r' ∈ s'.take n) := by
  induction h generalizing n with
  | nil => simpa using nil
  | @char c s s' later ih =>
    cases n with
    | zero => exact .inl ⟨rfl, char c later⟩
    | succ n =>
      obtain ⟨same, rest⟩ | ⟨newline, hasReturn⟩ := ih n
      · exact .inl ⟨congrArg (c :: ·) same, rest⟩
      · exact .inr ⟨List.mem_cons_of_mem c newline, List.mem_cons_of_mem c hasReturn⟩
  | addReturn line ih =>
    cases n with
    | zero => exact .inl ⟨rfl, addReturn line⟩
    | succ n => exact .inr ⟨List.mem_cons_self, List.mem_cons_self⟩

end AddsReturns

/-- Both results are there and related, or both texts are refused on one line. -/
inductive Agree {α β : Type} (R : α → β → Prop) : Except ScanError α → Except ScanError β → Prop
  | ok {a : α} {b : β} (related : R a b) : Agree R (.ok a) (.ok b)
  | error {e e' : ScanError} (line : e.line = e'.line) : Agree R (.error e) (.error e')

namespace Agree

variable {α β γ δ : Type} {R : α → β → Prop} {S : γ → δ → Prop} {r : Except ScanError α}
  {r' : Except ScanError β}

/-- A result agrees with itself. -/
theorem refl (r : Except ScanError α) : Agree Eq r r := by
  cases r with
  | ok a => exact .ok (Eq.refl a)
  | error e => exact .error (Eq.refl e.line)

/-- Results that agree still do after functions that keep their values related. -/
theorem map {f : α → γ} {g : β → δ} (h : Agree R r r') (related : ∀ a b, R a b → S (f a) (g b)) :
    Agree S (r.map f) (r'.map g) := by
  cases h with
  | ok both => exact .ok (related _ _ both)
  | error line => exact .error line

/-- A refused text agrees with one that is refused, whatever would be done with a value. -/
theorem map_of_error {e : ScanError} {g : β → δ} (h : Agree R (.error e) r') :
    Agree S (.error e) (r'.map g) := by
  cases h with
  | error line => exact .error line

/-- What agrees with a success is a success with a related value. -/
theorem exists_of_ok {b : β} (h : Agree R r (.ok b)) : ∃ a, r = .ok a ∧ R a b := by
  cases h with
  | ok both => exact ⟨_, rfl, both⟩

/-- What agrees with a refusal is a refusal on the same line. -/
theorem exists_of_error {e' : ScanError} (h : Agree R r (.error e')) :
    ∃ e, r = .error e ∧ e.line = e'.line := by
  cases h with
  | error line => exact ⟨_, rfl, line⟩

end Agree

/-- What is read is the same, and what is left differs in returns only. -/
structure SameRead {α : Type} (a b : α × List Char) : Prop where
  value : a.1 = b.1
  rest : AddsReturns a.2 b.2

/-- The cursors stand on one line, before texts that differ in returns only. -/
structure SameCursor (c c' : Cursor) : Prop where
  line : c.line = c'.line
  rest : AddsReturns c.rest c'.rest

/-- What is read is the same, and the cursors are up to returns. -/
structure SameToken {α : Type} (a b : α × Cursor) : Prop where
  value : a.1 = b.1
  cursor : SameCursor a.2 b.2

section Strings

variable {start line count : ℕ} {c : Char} {s s' marker : List Char}

/-- An escape by a number is refused for a character that is no digit. -/
theorem exists_unicodeEscape_eq_error (line : ℕ) (inside : c ∈ s.take count)
    (noDigit : hexValue? c = none) (notSign : c ≠ '+') :
    ∃ problem, unicodeEscape line count s = .error ⟨line, problem⟩ := by
  unfold unicodeEscape
  simp only
  split
  · rename_i found
    split at found
    · obtain ⟨n, number, -⟩ := Option.bind_eq_some_iff.mp found
      exact absurd inside (not_mem_of_hexNumber? number noDigit notSign)
    · contradiction
  · exact ⟨_, rfl⟩

/-- Escapes by a number agree. -/
theorem agree_unicodeEscape (h : AddsReturns s s') :
    Agree SameRead (unicodeEscape line count s) (unicodeEscape line count s') := by
  obtain ⟨same, rest⟩ | ⟨newline, hasReturn⟩ := h.take_cases count
  · unfold unicodeEscape
    simp only [same]
    generalize (if (s.take count).length = count then hexNumber? (s.take count) else none) = code
    cases code.bind charOfCode? with
    | none => exact .error rfl
    | some c => exact .ok ⟨rfl, rest⟩
  · -- either text has a character among the digits that is none
    obtain ⟨problem, refused⟩ := exists_unicodeEscape_eq_error line newline rfl (by decide)
    obtain ⟨problem', refused'⟩ := exists_unicodeEscape_eq_error line hasReturn rfl (by decide)
    rw [refused, refused']
    exact .error rfl

/-- Escape sequences agree. -/
theorem agree_escape (h : AddsReturns s s') :
    Agree SameRead (escape line s) (escape line s') := by
  cases h with
  | nil => exact .error rfl
  | addReturn _ => exact .error rfl
  | char c later =>
    obtain ⟨d, reads⟩ | ⟨count, reads⟩ | refuses := escape_cons_cases c
    · rw [reads, reads]
      exact .ok ⟨rfl, later⟩
    · rw [reads, reads]
      exact agree_unicodeEscape later
    · rw [refuses, refuses]
      exact .error rfl

/-- A part of a string that starts with the same character in both texts. -/
theorem agree_part_cons (start line : ℕ) (c : Char) (later : AddsReturns s s') :
    Agree SameRead (part start line (c :: s)) (part start line (c :: s')) := by
  cases isSign : isTemplateSign c with
  | false =>
    unfold part
    simp only [isSign, Bool.false_and, Bool.false_eq_true, if_false]
    split_ifs
    · exact .error rfl
    · exact .ok ⟨rfl, later⟩
    · apply (agree_escape later).map
      intro a b same
      exact ⟨congrArg (fun d => Part.chars [d]) same.value, same.rest⟩
    · exact .ok ⟨rfl, later⟩
  | true =>
    have sign : c = '$' ∨ c = '%' := by simpa [isTemplateSign] using isSign
    have noNewline : '\n' ∉ [c, '{'] := by obtain rfl | rfl := sign <;> decide
    have noReturn : '\r' ∉ [c, '{'] := by obtain rfl | rfl := sign <;> decide
    have first : s'.head? = some '{' ↔ s.head? = some '{' :=
      later.head?_eq_iff (by decide) (by decide)
    unfold part
    simp only [isSign, Bool.true_and, later.isPrefixOf_eq noNewline noReturn, first]
    split_ifs
    · exact .error rfl
    · exact .ok ⟨rfl, later⟩
    · apply (agree_escape later).map
      intro a b same
      exact ⟨congrArg (fun d => Part.chars [d]) same.value, same.rest⟩
    · rename_i twice
      exact .ok ⟨rfl, later.drop_length (List.isPrefixOf_iff_prefix.mp twice) noNewline⟩
    · rename_i once
      obtain ⟨t, rfl⟩ := List.head?_eq_some_iff.mp (of_decide_eq_true once)
      exact .ok ⟨rfl, later.drop_length (List.prefix_append ['{'] t) (by decide)⟩
    · exact .ok ⟨rfl, later⟩

/-- A part of a string that is refused with returns is refused without them, on the same line. -/
theorem exists_part_of_error {e' : ScanError} (h : AddsReturns s s')
    (refused : part start line s' = .error e') :
    ∃ e, part start line s = .error e ∧ e.line = e'.line := by
  cases h with
  | nil => exact ⟨e', refused, rfl⟩
  | char c later =>
    have agree := agree_part_cons start line c later
    rw [refused] at agree
    exact agree.exists_of_error
  | addReturn later => contradiction

/-- A part of the second text is one of the first too, or it is a return; then the first text is
refused at the line end after it. -/
theorem exists_part_of_ok {p : Part} {rest : List Char} (h : AddsReturns s s')
    (read : part start line s' = .ok (p, rest)) :
    (∃ t, part start line s = .ok (p, t) ∧ AddsReturns t rest) ∨
      (p = .chars ['\r'] ∧ AddsReturns s rest ∧
        part start line s = .error ⟨start, .unterminatedString⟩) := by
  cases h with
  | nil => contradiction
  | char c later =>
    have agree := agree_part_cons start line c later
    rw [read] at agree
    obtain ⟨⟨p', t⟩, read', same⟩ := agree.exists_of_ok
    obtain rfl : p' = p := same.value
    exact .inl ⟨t, read', same.rest⟩
  | addReturn later =>
    obtain ⟨rfl, rfl⟩ := Prod.mk.inj (Except.ok.inj read)
    exact .inr ⟨rfl, later, rfl⟩

/-- Templates and strings that are skipped agree. -/
theorem agree_skip (frames : List Frame) (line : ℕ) (h : AddsReturns s s') :
    Agree SameCursor (skip frames line s) (skip frames line s') := by
  fun_induction skip frames line s' generalizing s with
  | case1 line s' =>
    rw [skip]
    exact .ok ⟨rfl, h⟩
  | case2 line start groups outer =>
    obtain rfl := h.eq_nil_iff.mpr rfl
    rw [skip]
    exact .error rfl
  | case3 line start groups outer rest ih =>
    obtain ⟨t, rfl, later⟩ := h.of_cons (by decide)
    rw [skip_template]
    exact ih later
  | case4 line start outer rest _ ih =>
    obtain ⟨t, rfl, later⟩ := h.of_cons (by decide)
    rw [skip_template]
    exact ih later
  | case5 line start outer rest _ groups ih =>
    obtain ⟨t, rfl, later⟩ := h.of_cons (by decide)
    rw [skip_template]
    exact ih later
  | case6 line start groups outer rest _ _ ih =>
    obtain ⟨t, rfl, later⟩ := h.of_cons (by decide)
    rw [skip_template]
    exact ih later
  | case7 line start groups outer d rest notOpen notClose notQuote ih =>
    cases h with
    | char d later =>
      rw [skip_template, if_neg notOpen, if_neg notClose, if_neg notQuote]
      exact ih later
    -- the return is passed over in the second text alone
    | addReturn later => exact ih later
  | case8 line s' start outer e refused =>
    obtain ⟨e', refused', sameLine⟩ := exists_part_of_error h refused
    rw [skip_quoted, refused']
    exact .error sameLine
  | case9 line s' start outer rest read ih =>
    obtain ⟨t, read', later⟩ | ⟨⟨⟩, -⟩ := exists_part_of_ok h read
    rw [skip_quoted, read']
    exact ih later
  | case10 line s' start outer text rest read ih =>
    obtain ⟨t, read', later⟩ | ⟨-, later, -⟩ := exists_part_of_ok h read
    · rw [skip_quoted, read']
      exact ih later
    · exact ih later
  | case11 line s' start outer rest read ih =>
    obtain ⟨t, read', later⟩ | ⟨⟨⟩, -⟩ := exists_part_of_ok h read
    rw [skip_quoted, read']
    exact ih later

/-- String literals agree. -/
theorem agree_literal (h : AddsReturns s s') :
    Agree SameToken (literal start line s) (literal start line s') := by
  fun_induction literal start line s' generalizing s with
  | case1 line s' e refused =>
    obtain ⟨e', refused', sameLine⟩ := exists_part_of_error h refused
    rw [literal_eq, refused']
    exact .error sameLine
  | case2 line s' rest read =>
    obtain ⟨t, read', later⟩ | ⟨⟨⟩, -⟩ := exists_part_of_ok h read
    rw [literal_eq, read']
    exact .ok ⟨rfl, rfl, later⟩
  | case3 line s' text rest read ih =>
    obtain ⟨t, read', later⟩ | ⟨-, later, refused⟩ := exists_part_of_ok h read
    · rw [literal_eq, read']
      apply (ih later).map
      intro a b same
      have value := congrArg (fun l : Literal => { l with text := text ++ l.text }) same.value
      exact ⟨value, same.cursor⟩
    · -- refused at the line end, the first text stays behind; the second is refused further on
      have agree := ih later
      rw [literal_eq, refused] at agree ⊢
      exact agree.map_of_error
  | case4 line s' rest read e skipped =>
    obtain ⟨t, read', later⟩ | ⟨⟨⟩, -⟩ := exists_part_of_ok h read
    have agree := agree_skip [.template line 0] line later
    rw [skipped] at agree
    obtain ⟨e', skipped', sameLine⟩ := agree.exists_of_error
    rw [literal_eq, read']
    simp only [skipped']
    exact .error sameLine
  | case5 line s' rest read after skipped ih =>
    obtain ⟨t, read', later⟩ | ⟨⟨⟩, -⟩ := exists_part_of_ok h read
    have agree := agree_skip [.template line 0] line later
    rw [skipped] at agree
    obtain ⟨⟨afterLine, afterRest⟩, skipped', sameLine, sameRest⟩ := agree.exists_of_ok
    obtain rfl : afterLine = after.line := sameLine
    rw [literal_eq, read']
    simp only [skipped']
    apply (ih sameRest).map
    intro a b same
    exact ⟨congrArg (fun l : Literal => { l with templated := true }) same.value, same.cursor⟩

end Strings

section Tokens

variable {start line : ℕ} {c : Char} {s s' marker : List Char}

/-- Comments agree. -/
theorem agree_afterComment (h : AddsReturns s s') :
    Agree SameCursor (afterComment start line s) (afterComment start line s') := by
  fun_induction afterComment start line s' generalizing s with
  | case1 =>
    obtain rfl := h.eq_nil_iff.mpr rfl
    exact .error rfl
  | case2 line rest =>
    have noReturn : '\r' ∉ ['*', '/'] := by decide
    obtain ⟨t, rfl, later⟩ := AddsReturns.of_append noReturn h
    exact .ok ⟨rfl, later⟩
  | case3 line d rest noEnd ih =>
    cases h with
    | char d later =>
      rw [afterComment]
      · exact ih later
      · rintro t rfl rfl
        obtain ⟨t', rfl, -⟩ := later.of_cons_left (by decide)
        exact noEnd t' rfl rfl
    | addReturn later => exact ih later

/-- Returns at the end of a line are blanks, which the marker of a heredoc may have around it. -/
theorem trimBlanks_line_eq (h : AddsReturns s s') :
    trimBlanks (s'.takeWhile (· != '\n')) = trimBlanks (s.takeWhile (· != '\n')) := by
  obtain ⟨n, same⟩ := h.exists_takeWhile_eq
  rw [same]
  apply dropAround_append_of_all
  intro c isReturn
  rw [List.eq_of_mem_replicate isReturn]
  decide

/-- The bodies of heredocs agree. -/
theorem agree_heredocBody (h : AddsReturns s s') :
    Agree SameCursor (heredocBody start marker line s) (heredocBody start marker line s') := by
  fun_induction heredocBody start marker line s' generalizing s with
  | case1 =>
    obtain rfl := h.eq_nil_iff.mpr rfl
    rw [heredocBody]
    exact .error rfl
  | case2 line d rest isMarker =>
    obtain ⟨e, t, rfl⟩ := List.exists_cons_of_ne_nil (mt h.eq_nil_iff.mp (by simp))
    rw [trimBlanks_line_eq h] at isMarker
    rw [heredocBody_cons, if_pos isMarker]
    exact .ok ⟨rfl, h.dropWhile (by decide)⟩
  | case3 line d rest notMarker last =>
    obtain ⟨e, t, rfl⟩ := List.exists_cons_of_ne_nil (mt h.eq_nil_iff.mp (by simp))
    have lastToo : afterLine (e :: t) = [] := (h.dropWhile (by decide)).eq_nil_iff.mpr last
    rw [trimBlanks_line_eq h] at notMarker
    rw [heredocBody_cons, if_neg notMarker, lastToo]
    exact .error rfl
  | case4 line d rest notMarker e next following ih =>
    obtain ⟨f, t, rfl⟩ := List.exists_cons_of_ne_nil (mt h.eq_nil_iff.mp (by simp))
    obtain rfl := eq_newline_of_afterLine following
    have after : AddsReturns (afterLine (f :: t)) ('\n' :: next) :=
      following ▸ h.dropWhile (by decide)
    obtain ⟨nextToo, followingToo, later⟩ := after.of_cons (by decide)
    rw [trimBlanks_line_eq h] at notMarker
    rw [heredocBody_cons, if_neg notMarker, followingToo]
    exact ih later

/-- Heredocs agree. -/
theorem agree_heredoc (h : AddsReturns s s') :
    Agree SameCursor (heredoc line s) (heredoc line s') := by
  have marker := h.takeWhile_eq (p := isIdentPart) (by decide) (by decide)
  have after := (h.dropWhile (p := isIdentPart) (by decide)).dropWhile
    (p := fun c => c = ' ' || c = '\t' || c = '\r') (by decide)
  have stops := List.head?_dropWhile_not (fun c => c = ' ' || c = '\t' || c = '\r')
    (s'.dropWhile isIdentPart)
  unfold heredoc
  simp only [marker]
  -- the returns after the marker are passed over with the blanks there
  generalize (s.dropWhile isIdentPart).dropWhile _ = rest at after ⊢
  generalize (s'.dropWhile isIdentPart).dropWhile _ = rest' at after stops ⊢
  cases after with
  | nil => exact .error rfl
  | addReturn later => simp at stops
  | char c later =>
    by_cases isNewline : c = '\n'
    · subst isNewline
      exact agree_heredocBody later
    · split
      · rename_i same
        exact absurd (List.cons.inj same).1 isNewline
      · split
        · rename_i same
          exact absurd (List.cons.inj same).1 isNewline
        · exact .error rfl

/-- No heredoc starts without its sign. -/
theorem heredocMarker?_eq_none (noSign : ¬ ['<', '<'] <+: s) : heredocMarker? s = none := by
  unfold heredocMarker?
  split
  · rename_i rest
    exact absurd (List.prefix_append ['<', '<'] rest) noSign
  · rfl

/-- Behind a dash, if there is one, the texts still differ in returns only. -/
theorem AddsReturns.afterDash (h : AddsReturns s s') :
    AddsReturns (afterDash s) (afterDash s') := by
  have dash : s'.head? = some '-' ↔ s.head? = some '-' := h.head?_eq_iff (by decide) (by decide)
  unfold Native.afterDash
  simp only [dash]
  split
  · rename_i first
    obtain ⟨t, rfl⟩ := List.head?_eq_some_iff.mp first
    exact h.drop_length (List.prefix_append ['-'] t) (by decide)
  · exact h

/-- Heredocs start in both texts or in neither. -/
theorem heredocMarker?_cases (h : AddsReturns s s') :
    (heredocMarker? s = none ∧ heredocMarker? s' = none) ∨
      ∃ body body', heredocMarker? s = some body ∧ heredocMarker? s' = some body' ∧
        AddsReturns body body' := by
  by_cases opens : ['<', '<'] <+: s
  · obtain ⟨rest, rfl⟩ := opens
    obtain ⟨rest', rfl, later⟩ := h.of_append_left (by decide)
    have after := later.afterDash
    rw [heredocMarker?_open, heredocMarker?_open, after.any_head?_eq (by decide) (by decide)]
    split
    · exact .inr ⟨_, _, rfl, rfl, after⟩
    · exact .inl ⟨rfl, rfl⟩
  · refine .inl ⟨heredocMarker?_eq_none opens, heredocMarker?_eq_none ?_⟩
    rintro ⟨rest', rfl⟩
    obtain ⟨rest, rfl, -⟩ := h.of_append (by decide)
    exact opens (List.prefix_append ['<', '<'] rest)

/-- Operators of two characters end in both texts or in neither. -/
theorem hasOperatorEnd_eq (h : AddsReturns s s') : hasOperatorEnd s' = hasOperatorEnd s := by
  unfold hasOperatorEnd
  simp only [h.head?_eq_iff (c := '=') (by decide) (by decide),
    h.head?_eq_iff (c := '>') (by decide) (by decide)]

/-- Behind the end of an operator, the texts still differ in returns only. -/
theorem AddsReturns.drop_operatorEnd (h : AddsReturns s s') (ends : hasOperatorEnd s = true) :
    AddsReturns (s.drop 1) (s'.drop 1) := by
  unfold hasOperatorEnd at ends
  simp only [Bool.or_eq_true, decide_eq_true_eq] at ends
  obtain first | first := ends
  · obtain ⟨t, rfl⟩ := List.head?_eq_some_iff.mp first
    exact h.drop_length (List.prefix_append ['='] t) (by decide)
  · obtain ⟨t, rfl⟩ := List.head?_eq_some_iff.mp first
    exact h.drop_length (List.prefix_append ['>'] t) (by decide)

/-- Tokens agree. -/
theorem agree_lexeme (h : AddsReturns s s') :
    Agree SameToken (lexeme line c s) (lexeme line c s') := by
  obtain ⟨noMarker, noMarker'⟩ | ⟨body, body', found, found', later⟩ :=
    heredocMarker?_cases (AddsReturns.char c h)
  · unfold lexeme
    simp only [noMarker, noMarker', hasOperatorEnd_eq h]
    split_ifs
    · exact .ok ⟨rfl, rfl, h⟩
    · apply (agree_literal h).map
      intro a b same
      exact ⟨congrArg (fun l : Literal => TokenKind.str (String.ofList l.text) l.templated)
        same.value, same.cursor⟩
    · exact .ok ⟨rfl, rfl, h⟩
    · exact .ok ⟨rfl, rfl, h⟩
    · rw [h.takeWhile_eq (by decide) (by decide)]
      exact .ok ⟨rfl, rfl, h.dropWhile (by decide)⟩
    · exact .ok ⟨rfl, rfl, h.dropWhile (by decide)⟩
    · rename_i operator
      exact .ok ⟨rfl, rfl, h.drop_operatorEnd (Bool.and_eq_true_iff.mp operator).2⟩
    · exact .ok ⟨rfl, rfl, h⟩
    · exact .ok ⟨rfl, rfl, h⟩
  · obtain rfl := eq_of_heredocMarker? found
    rw [lexeme_of_marker found, lexeme_of_marker found']
    apply (agree_heredoc later).map
    intro a b same
    exact ⟨rfl, same⟩

/-- Gaps and tokens agree. -/
theorem agree_step (line : ℕ) (c : Char) (h : AddsReturns s s') :
    Agree SameToken (step line c s) (step line c s') := by
  have slash : s'.head? = some '/' ↔ s.head? = some '/' := h.head?_eq_iff (by decide) (by decide)
  have star : s'.head? = some '*' ↔ s.head? = some '*' := h.head?_eq_iff (by decide) (by decide)
  unfold step
  simp only [slash, star]
  split_ifs
  · exact .ok ⟨rfl, rfl, h⟩
  · exact .ok ⟨rfl, rfl, h.dropWhile (by decide)⟩
  · rename_i opens
    obtain ⟨t, rfl⟩ :=
      List.head?_eq_some_iff.mp (of_decide_eq_true (Bool.and_eq_true_iff.mp opens).2)
    have inside := h.drop_length (List.prefix_append ['*'] t) (by decide)
    apply (agree_afterComment inside).map
    intro a b same
    exact ⟨rfl, same⟩
  · apply (agree_lexeme h).map
    intro a b same
    exact ⟨congrArg some same.value, same.cursor⟩

/-- Both texts have the same tokens on the same lines. -/
theorem agree_tokenizeFrom (line : ℕ) (h : AddsReturns s s') :
    Agree Eq (tokenizeFrom line s) (tokenizeFrom line s') := by
  fun_induction tokenizeFrom line s' generalizing s with
  | case1 =>
    obtain rfl := h.eq_nil_iff.mpr rfl
    rw [tokenizeFrom]
    exact .ok rfl
  | case2 line d rest e refused =>
    cases h with
    | addReturn later => contradiction
    | char d later =>
      have agree := agree_step line d later
      rw [refused] at agree
      obtain ⟨e', refused', sameLine⟩ := agree.exists_of_error
      rw [tokenizeFrom_cons, refused']
      exact .error sameLine
  | case3 line d rest after read ih =>
    cases h with
    | addReturn later =>
      -- the return is a gap of its own
      obtain ⟨-, rfl⟩ := Prod.mk.inj (Except.ok.inj read)
      exact ih later
    | char d later =>
      have agree := agree_step line d later
      rw [read] at agree
      obtain ⟨⟨kind, ⟨l, t⟩⟩, read', ⟨sameKind, ⟨sameLine, sameRest⟩⟩⟩ := agree.exists_of_ok
      obtain rfl : kind = none := sameKind
      obtain rfl : l = after.line := sameLine
      rw [tokenizeFrom_cons, read']
      exact ih sameRest
  | case4 line d rest kind after read ih =>
    cases h with
    | addReturn later =>
      have isGap := (Prod.mk.inj (Except.ok.inj read)).1
      contradiction
    | char d later =>
      have agree := agree_step line d later
      rw [read] at agree
      obtain ⟨⟨kind', ⟨l, t⟩⟩, read', ⟨sameKind, ⟨sameLine, sameRest⟩⟩⟩ := agree.exists_of_ok
      obtain rfl : kind' = some kind := sameKind
      obtain rfl : l = after.line := sameLine
      rw [tokenizeFrom_cons, read']
      apply (ih sameRest).map
      intro a b same
      rw [same]

end Tokens

/-- The text with a carriage return before every line end. -/
def withReturns (text : String) : String :=
  String.ofList (text.toList.flatMap fun c => if c = '\n' then ['\r', '\n'] else [c])

/-- A return before every line end is one before some of them. -/
theorem addsReturns_withReturns (text : String) :
    AddsReturns text.toList (withReturns text).toList := by
  rw [withReturns, String.toList_ofList]
  induction text.toList with
  | nil => exact .nil
  | cons c s ih =>
    rw [List.flatMap_cons]
    split
    · rename_i isNewline
      subst isNewline
      exact .addReturn (.char '\n' ih)
    · exact .char c ih

/-- Texts that differ in returns before line ends only have the same blocks on the same lines, or
are refused on the same line. -/
theorem agree_scan {text text' : String} (h : AddsReturns text.toList text'.toList) :
    Agree Eq (scan text) (scan text') := by
  have agree := agree_tokenizeFrom 1 h
  unfold scan tokenize
  generalize tokenizeFrom 1 text.toList = r at agree ⊢
  generalize tokenizeFrom 1 text'.toList = r' at agree ⊢
  cases agree with
  | error line => exact .error line
  | @ok tokens tokens' same =>
    obtain rfl := same
    exact .refl _

/-- A carriage return before every line end changes neither the blocks of a text and their lines
nor, where the text is refused, the line on which it is. -/
theorem scan_withReturns (text : String) :
    (scan (withReturns text)).mapError ScanError.line = (scan text).mapError ScanError.line := by
  have agree := agree_scan (addsReturns_withReturns text)
  generalize scan text = r at agree ⊢
  generalize scan (withReturns text) = r' at agree ⊢
  cases agree with
  | ok same => rw [same]
  | error line => exact congrArg Except.error line.symm

end TerraDeps.Native
