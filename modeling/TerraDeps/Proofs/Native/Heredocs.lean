import TerraDeps.Proofs.Native.LineEnds
import TerraDeps.Proofs.Native.Rendering
import TerraDeps.Text.Pieces

/-!
# Heredocs and comments

What stands in a heredoc or in a comment is passed over, whatever it would be elsewhere. A heredoc
goes on to the first line that is its marker between blanks, a block comment to the first closing
sign, and any other comment to the line end. Each of them is read first with any text after it, then
as a text of its own.
-/

set_option autoImplicit false

namespace TerraDeps.Native

open Text

/-- The lines `body` and then `last`, the first that is the marker between blanks, are those of a
heredoc after its opening. -/
structure IsHeredoc (marker : List Char) (body : List (List Char)) (last : List Char) : Prop where
  start : marker.head?.any isIdentStart = true
  parts : ∀ c ∈ marker.tail, isIdentPart c = true
  noLineEnd : ∀ line ∈ last :: body, '\n' ∉ line
  notMarker : ∀ line ∈ body, trimBlanks line ≠ marker
  isMarker : trimBlanks last = marker

section Heredocs

variable {start line : ℕ} {c : Char} {s marker last rest : List Char} {body : List (List Char)}

/-- A character that starts a name may also stand in it. -/
theorem isIdentPart_of_isIdentStart (h : isIdentStart c = true) : isIdentPart c = true := by
  unfold isIdentStart at h
  unfold isIdentPart isAlphanumeric
  simp only [Bool.or_eq_true] at h ⊢
  obtain alphabetic | underscore := h
  · exact .inl (.inl (.inl alphabetic))
  · exact .inl (.inr underscore)

/-- The marker ends the body on its line; any other line is passed over. -/
theorem heredocBody_line (noLineEnd : '\n' ∉ s) :
    heredocBody start marker line (s ++ '\n' :: rest) =
      if trimBlanks s = marker then .ok ⟨line, '\n' :: rest⟩
      else heredocBody start marker (line + 1) rest := by
  obtain ⟨c, more, whole⟩ : ∃ c more, s ++ '\n' :: rest = c :: more :=
    List.exists_cons_of_ne_nil (by simp)
  have after : afterLine (s ++ '\n' :: rest) = '\n' :: rest := dropWhile_ne_append noLineEnd rest
  rw [whole, heredocBody_cons, ← whole, takeWhile_ne_append noLineEnd, after]

/-- The body of a heredoc is passed over line by line, up to the end of the line with its marker. -/
theorem heredocBody_lines (noLineEnd : ∀ line ∈ last :: body, '\n' ∉ line)
    (notMarker : ∀ line ∈ body, trimBlanks line ≠ marker) (isMarker : trimBlanks last = marker) :
    heredocBody start marker line (joinLines body ++ (last ++ '\n' :: rest)) =
      .ok ⟨line + body.length, '\n' :: rest⟩ := by
  induction body generalizing line with
  | nil =>
    show heredocBody start marker line (last ++ '\n' :: rest) = _
    rw [heredocBody_line (noLineEnd last List.mem_cons_self), if_pos isMarker]
    rfl
  | cons first body ih =>
    have whole : joinLines (first :: body) ++ (last ++ '\n' :: rest) =
        first ++ '\n' :: (joinLines body ++ (last ++ '\n' :: rest)) := by
      simp [joinLines]
    rw [whole, heredocBody_line (noLineEnd first (by simp)),
      if_neg (notMarker first List.mem_cons_self), ih]
    · rw [List.length_cons, Nat.add_assoc, Nat.add_comm 1]
    · intro l listed
      apply noLineEnd l
      obtain rfl | later := List.mem_cons.mp listed
      · exact List.mem_cons_self
      · exact List.mem_cons_of_mem last (List.mem_cons_of_mem first later)
    · intro l listed
      exact notMarker l (List.mem_cons_of_mem first listed)

namespace IsHeredoc

/-- The marker of a heredoc starts with a character that starts a name. -/
theorem exists_eq_cons (h : IsHeredoc marker body last) :
    ∃ c name, marker = c :: name ∧ isIdentStart c = true := by
  have start := h.start
  cases marker with
  | nil => contradiction
  | cons c name => exact ⟨c, name, rfl, start⟩

/-- The marker of a heredoc is made of characters of names. -/
theorem all_isIdentPart (h : IsHeredoc marker body last) :
    ∀ c ∈ marker, isIdentPart c = true := by
  obtain ⟨c, name, rfl, isStart⟩ := h.exists_eq_cons
  intro d inside
  obtain rfl | later := List.mem_cons.mp inside
  · exact isIdentPart_of_isIdentStart isStart
  · exact h.parts d later

/-- After either opening, the marker is found. -/
theorem heredocMarker?_eq (h : IsHeredoc marker body last) {dash : List Char}
    (isDash : dash = [] ∨ dash = ['-']) (s : List Char) :
    heredocMarker? ('<' :: '<' :: (dash ++ (marker ++ s))) = some (marker ++ s) := by
  obtain ⟨c, name, rfl, isStart⟩ := h.exists_eq_cons
  have after : afterDash (dash ++ (c :: name ++ s)) = c :: name ++ s := by
    obtain rfl | rfl := isDash
    · apply if_neg
      intro first
      obtain rfl := Option.some.inj first
      contradiction
    · rfl
  have opened := heredocMarker?_open (dash ++ (c :: name ++ s))
  rw [after] at opened
  exact opened.trans (if_pos isStart)

/-- A heredoc is passed over from its marker to the end of its last line. -/
theorem heredoc_eq (h : IsHeredoc marker body last) :
    heredoc line (marker ++ '\n' :: (joinLines body ++ (last ++ '\n' :: rest))) =
      .ok ⟨line + 1 + body.length, '\n' :: rest⟩ := by
  unfold heredoc
  simp only [List.takeWhile_append_of_pos h.all_isIdentPart,
    List.dropWhile_append_of_pos h.all_isIdentPart]
  have stops : isIdentPart '\n' = false := by decide
  simp only [List.takeWhile_cons, List.dropWhile_cons, stops, Bool.false_eq_true, if_false,
    List.append_nil]
  exact heredocBody_lines h.noLineEnd h.notMarker h.isMarker

end IsHeredoc

/-- A heredoc is one token, and the end of its last line is the next. -/
theorem tokenizeFrom_heredoc (h : IsHeredoc marker body last) {dash : List Char}
    (isDash : dash = [] ∨ dash = ['-']) :
    tokenizeFrom line ('<' :: '<' ::
      (dash ++ (marker ++ '\n' :: (joinLines body ++ (last ++ '\n' :: rest))))) =
      (tokenizeFrom (line + body.length + 2) rest).map fun tokens =>
        ⟨.heredoc, line⟩ :: ⟨.newline, line + body.length + 1⟩ :: tokens := by
  have found :=
    h.heredocMarker?_eq isDash ('\n' :: (joinLines body ++ (last ++ '\n' :: rest)))
  have read : step line '<' ('<' ::
      (dash ++ (marker ++ '\n' :: (joinLines body ++ (last ++ '\n' :: rest))))) =
      .ok (some .heredoc, ⟨line + 1 + body.length, '\n' :: rest⟩) := by
    rw [step, if_neg (by decide), if_neg (by simp), if_neg (by simp), lexeme_of_marker found,
      h.heredoc_eq]
    rfl
  have next : line + 1 + body.length = line + body.length + 1 := by omega
  rw [tokenizeFrom_of_token read, tokenizeFrom_newline, next]
  cases tokenizeFrom (line + body.length + 1 + 1) rest <;> rfl

end Heredocs

section Comments

variable {start line : ℕ} {s rest : List Char}

/-- A block comment ends at its first closing sign. -/
theorem afterComment_body (noEnd : ¬ ['*', '/'] <:+: s) :
    afterComment start line (s ++ '*' :: '/' :: rest) = .ok ⟨line + s.count '\n', rest⟩ := by
  induction s generalizing line with
  | nil => rfl
  | cons c s ih =>
    have later : ¬ ['*', '/'] <:+: s := fun inside => noEnd (List.infix_cons inside)
    rw [List.cons_append, afterComment]
    · rw [ih later, nextLine_add_count]
    · -- what follows a star in the comment, or is the star of the closing sign, is no slash
      rintro more rfl same
      cases s with
      | nil => simp at same
      | cons d s =>
        obtain ⟨rfl, -⟩ := List.cons.inj same
        exact noEnd (List.prefix_append ['*', '/'] s).isInfix

/-- A block comment gives no token and counts its lines. -/
theorem tokenizeFrom_blockComment (noEnd : ¬ ['*', '/'] <:+: s) :
    tokenizeFrom line ('/' :: '*' :: (s ++ '*' :: '/' :: rest)) =
      tokenizeFrom (line + s.count '\n') rest := by
  apply tokenizeFrom_of_gap
  rw [step, if_neg (by decide), if_neg (by simp), if_pos (by simp), List.drop_one, List.tail_cons,
    afterComment_body noEnd]
  rfl

/-- A line comment gives no token before its line end. -/
theorem tokenizeFrom_lineComment (noLineEnd : '\n' ∉ s) {sign : List Char}
    (isSign : sign = ['#'] ∨ sign = ['/', '/']) :
    tokenizeFrom line (sign ++ (s ++ '\n' :: rest)) =
      (tokenizeFrom (line + 1) rest).map fun tokens => ⟨.newline, line⟩ :: tokens := by
  have after : afterLine (s ++ '\n' :: rest) = '\n' :: rest := dropWhile_ne_append noLineEnd rest
  rw [← tokenizeFrom_newline]
  obtain rfl | rfl := isSign
  · show tokenizeFrom line ('#' :: (s ++ '\n' :: rest)) = _
    apply tokenizeFrom_of_gap
    rw [step, if_neg (by decide), if_pos (by simp), after]
  · show tokenizeFrom line ('/' :: '/' :: (s ++ '\n' :: rest)) = _
    apply tokenizeFrom_of_gap
    have afterSlash : afterLine ('/' :: (s ++ '\n' :: rest)) = '\n' :: rest := after
    rw [step, if_neg (by decide), if_pos (by simp), afterSlash]

end Comments

/-- Whatever the lines of a heredoc or the text of a comment hold: an argument whose value is a
heredoc is four tokens, the last on the line of the marker, a block comment is none, and any other
comment is the end of its line. -/
theorem tokenize_heredoc_comment :
    (∀ (marker last : List Char) (body : List (List Char)), IsHeredoc marker body last →
      ∀ dash : List Char, dash = [] ∨ dash = ['-'] →
        tokenize (String.ofList
          (joinLines (("x = <<".toList ++ dash ++ marker) :: body ++ [last]))) =
          .ok [⟨.ident "x", 1⟩, ⟨.equals, 1⟩, ⟨.heredoc, 1⟩, ⟨.newline, body.length + 2⟩]) ∧
    (∀ text : List Char, ¬ ['*', '/'] <:+: text →
      tokenize (String.ofList ("/*".toList ++ text ++ "*/".toList)) = .ok []) ∧
    (∀ text : List Char, '\n' ∉ text → ∀ sign : List Char, sign = ['#'] ∨ sign = ['/', '/'] →
      tokenize (String.ofList (sign ++ text ++ ['\n'])) = .ok [⟨.newline, 1⟩]) := by
  refine ⟨?_, ?_, ?_⟩
  · intro marker last body h dash isDash
    have whole : joinLines (("x = <<".toList ++ dash ++ marker) :: body ++ [last]) =
        ['x'] ++ ' ' :: '=' :: ' ' :: '<' :: '<' ::
          (dash ++ (marker ++ '\n' :: (joinLines body ++ (last ++ '\n' :: [])))) := by
      simp [joinLines]
    rw [tokenize, String.toList_ofList, whole, tokenizeFrom_word (by decide), tokenizeFrom_blank,
      tokenizeFrom_equals, tokenizeFrom_blank, tokenizeFrom_heredoc h isDash, tokenizeFrom]
    have lastLine : 1 + body.length + 1 = body.length + 2 := by omega
    rw [lastLine]
    rfl
  · intro text noEnd
    have whole : "/*".toList ++ text ++ "*/".toList = '/' :: '*' :: (text ++ '*' :: '/' :: []) := by
      simp
    rw [tokenize, String.toList_ofList, whole, tokenizeFrom_blockComment noEnd, tokenizeFrom]
  · intro text noLineEnd sign isSign
    rw [tokenize, String.toList_ofList, List.append_assoc,
      tokenizeFrom_lineComment noLineEnd isSign, tokenizeFrom]
    rfl

/-- The body may open other heredocs, strings and blocks, and may come close to its marker. -/
theorem tokenize_heredoc_comment_blocks :
    (tokenize (String.ofList (joinLines
      (("x = <<".toList ++ ['-'] ++ "EOT".toList) ::
        ["module \"a\" \x7b".toList, "/* <<EOT".toList, "EOT EOT".toList, "".toList] ++
        ["\t EOT\r".toList]))) =
      .ok [⟨.ident "x", 1⟩, ⟨.equals, 1⟩, ⟨.heredoc, 1⟩, ⟨.newline, 6⟩]) ∧
    tokenize (String.ofList ("/*".toList ++ "/ \" <<EOT * \n\x7d *".toList ++ "*/".toList)) =
      .ok [] ∧
    tokenize (String.ofList ("//".toList ++ " /* \" \x7b".toList ++ ['\n'])) =
      .ok [⟨.newline, 1⟩] := by
  refine ⟨tokenize_heredoc_comment.1 _ _ _ ⟨?_, List.all_eq_true.mp ?_, ?_, ?_, ?_⟩ _ (.inr rfl),
    tokenize_heredoc_comment.2.1 _ ?_, tokenize_heredoc_comment.2.2 _ ?_ _ (.inr rfl)⟩
  all_goals decide +kernel

end TerraDeps.Native
