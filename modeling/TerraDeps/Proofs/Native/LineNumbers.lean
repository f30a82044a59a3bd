import TerraDeps.Proofs.Native.Concatenation
import TerraDeps.Proofs.Native.Templates
import TerraDeps.Proofs.Native.Turns.Run

/-!
# Line numbers

The line that the reader of a text is on is always one more than the line ends before its position,
also where the position moves by a count. So every token has the line on which it starts: there the
reader stood between tokens, with all earlier tokens read, and the step from there reads the token.
What is wrong with a text, or with its blocks, is reported on a line that the text has.
-/

set_option autoImplicit false

namespace TerraDeps.Native

open Text

namespace Reading

section Reaching

variable {s rest : List Char} {r y : Reading} {pos line : ℕ} {tokens before : List Token}
  {place : Cursor}

/-- Every state that is reached from a valid one is valid. -/
theorem isValid_of_reaches (valid : IsValid s r) (reaches : Reaches (turn s) r y) : IsValid s y :=
  reaches.keeps valid fun _ _ before leads => ((proceeds before).of_goesOn leads).2.1

/-- A turn from a state that comes to some tokens goes on to one that comes to the same. -/
theorem TurnsTo.exists_of_ok {x : List Token × Cursor} (h : TurnsTo s r (.ok x) (turn s r)) :
    ∃ y, turn s r = some (.goesOn y) ∧ IsFollowedBy s r y ∧ y.pending s = .ok x := by
  generalize result : turn s r = t at h
  cases h with
  | goesOn y follows same => exact ⟨y, rfl, follows, same⟩

/-- A turn that ends with a problem reports it on the line of the state or of something it is
within. -/
theorem TurnsTo.line_of_ends {p : Except ScanError (List Token × Cursor)} {e : ScanError}
    (h : TurnsTo s r p (some (.ends (.error e)))) : e.line = r.line ∨ e.line ∈ r.mode.starts := by
  cases h with
  | fails e reported => exact reported

/-- A problem is reported on a line up to the reader's. -/
theorem line_of_ends {e : ScanError} (valid : IsValid s r)
    (ends : turn s r = some (.ends (.error e))) : 1 ≤ e.line ∧ e.line ≤ r.line := by
  have reported : e.line = r.line ∨ e.line ∈ r.mode.starts := by
    by_cases inside : r.mode = .between
    · obtain ⟨pos, line, mode, tokens⟩ := r
      obtain rfl : mode = .between := inside
      cases found : s[pos]? with
      | none => simp [turn, betweenTurn, found] at ends
      | some c =>
        have h : TurnsTo s ⟨pos, line, .between, tokens⟩ _ (turn s ⟨pos, line, .between, tokens⟩) :=
          turnsTo_between found
        exact (ends ▸ h).line_of_ends
    · exact (ends ▸ turnsTo_pending valid inside).line_of_ends
  rcases reported with here | earlier
  · rw [here]
    exact ⟨valid.past.line_le, Nat.le_refl _⟩
  · exact valid.starts e.line earlier

/-- A reader gets to where it is between tokens again. -/
theorem exists_reaches_between (valid : IsValid s r) (comes : r.pending s = .ok (tokens, place)) :
    ∃ q, s.drop q = place.rest ∧ Reaches (turn s) r ⟨q, place.line, .between, tokens⟩ := by
  induction left : s.length - r.pos using Nat.strongRecOn generalizing r with
  | ind n ih =>
    by_cases inside : r.mode = .between
    · obtain ⟨pos, line, mode, tokens'⟩ := r
      obtain rfl : mode = .between := inside
      obtain ⟨rfl, rfl⟩ := Prod.mk.inj (Except.ok.inj comes)
      exact ⟨pos, rfl, .refl⟩
    · have h := turnsTo_pending valid inside
      rw [comes] at h
      obtain ⟨y, leads, follows, same⟩ := h.exists_of_ok
      have further := follows.further
      have inText := follows.inText
      obtain ⟨q, drop, reaches⟩ := ih (s.length - y.pos) (by omega) (follows.isValid valid) same rfl
      exact ⟨q, drop, .head leads reaches⟩

/-- Between tokens, a reader gets to where the step that begins there leads. -/
theorem exists_reaches_stepped {c : Char} {kind : Option TokenKind}
    (valid : IsValid s ⟨pos, line, .between, tokens⟩) (here : s.drop pos = c :: rest)
    (read : step line c rest = .ok (kind, place)) :
    ∃ q, s.drop q = place.rest ∧ Reaches (turn s) ⟨pos, line, .between, tokens⟩
      ⟨q, place.line, .between, withToken tokens line kind⟩ := by
  have h : TurnsTo s ⟨pos, line, .between, tokens⟩ (stepped line tokens c (s.drop (pos + 1)))
      (turn s ⟨pos, line, .between, tokens⟩) := turnsTo_between (getElem?_of_drop here)
  rw [drop_succ_of_drop here, stepped, read] at h
  obtain ⟨y, leads, follows, same⟩ := h.exists_of_ok
  obtain ⟨q, drop, reaches⟩ := exists_reaches_between (follows.isValid valid) same
  exact ⟨q, drop, .head leads reaches⟩

/-- What the readers of the rest of a text get to, the reader at positions gets to. -/
theorem exists_reaches_of_reads {origin : Cursor} (reads : Reads origin before place)
    (valid : IsValid s ⟨pos, origin.line, .between, tokens⟩) (here : s.drop pos = origin.rest) :
    ∃ q, s.drop q = place.rest ∧ Reaches (turn s) ⟨pos, origin.line, .between, tokens⟩
      ⟨q, place.line, .between, tokens ++ before⟩ := by
  induction reads generalizing pos tokens with
  | refl place => exact ⟨pos, here, by rw [List.append_nil]; exact .refl⟩
  | gap passed later ih =>
    obtain ⟨p, first, reaches⟩ := exists_reaches_stepped valid here passed
    obtain ⟨q, last, further⟩ := ih (isValid_of_reaches valid reaches) first
    exact ⟨q, last, reaches.trans further⟩
  | @token line c rest kind next place more read later ih =>
    obtain ⟨p, first, reaches⟩ := exists_reaches_stepped valid here read
    obtain ⟨q, last, further⟩ := ih (isValid_of_reaches valid reaches) first
    simp only [withToken, List.append_assoc, List.singleton_append] at further
    exact ⟨q, last, reaches.trans further⟩

end Reaching

end Reading

/-- The tokens of a text are read one after the other, each by a step from its first character. -/
theorem exists_reads_of_getElem? {line : ℕ} {s : List Char} {tokens : List Token} {t : Token}
    {i : ℕ} (all : tokenizeFrom line s = .ok tokens) (listed : tokens[i]? = some t) :
    ∃ c rest after, Reads ⟨line, s⟩ (tokens.take i) ⟨t.line, c :: rest⟩ ∧
      step t.line c rest = .ok (some t.kind, after) := by
  fun_induction tokenizeFrom line s generalizing tokens i with
  | case1 =>
    obtain rfl := Except.ok.inj all
    contradiction
  | case2 => contradiction
  | case3 line c s after passed ih =>
    obtain ⟨d, rest, last, reads, read⟩ := ih all listed
    exact ⟨d, rest, last, .gap passed reads, read⟩
  | case4 line c s kind after read ih =>
    obtain ⟨more, later, rfl⟩ := map_eq_ok_iff.mp all
    cases i with
    | zero =>
      obtain rfl := Option.some.inj listed
      exact ⟨c, s, after, .refl _, read⟩
    | succ i =>
      obtain ⟨d, rest, last, reads, readLater⟩ := ih later listed
      exact ⟨d, rest, last, .token read reads, readLater⟩

section Problems

variable {tokens : List Token} {args : Arguments} {name argument : String}
  {line nested : ℕ} {lineStart : Bool} {opened : List ℕ} {value : Option TokenKind} {e : ScanError}

/-- An argument that cannot be added is reported on its own line. -/
theorem line_of_add (h : args.add name argument line value = .error e) : e.line = line := by
  unfold Arguments.add at h
  split at h
  · split at h
    · exact Except.error.inj h ▸ rfl
    split at h
    · contradiction
    · exact Except.error.inj h ▸ rfl
  split at h
  · split at h
    · contradiction
    · contradiction
  · contradiction

/-- What is wrong in a module block is wrong on the line of its keyword or of a token in it. -/
theorem line_of_moduleBody (h : moduleBody name line nested lineStart args tokens = .error e) :
    e.line ∈ line :: tokens.map Token.line := by
  have wider (t : Token) (rest : List Token) (inside : e.line ∈ line :: rest.map Token.line) :
      e.line ∈ line :: (t :: rest).map Token.line :=
    List.cons_subset_cons line (List.subset_cons_self t.line _) inside
  fun_induction moduleBody name line nested lineStart args tokens with
  | case1 => exact Except.error.inj h ▸ List.mem_cons_self
  | case2 nested lineStart args t rest kind ih => exact wider t rest (ih h)
  | case3 => contradiction
  | case4 lineStart args t rest kind nested ih => exact wider t rest (ih h)
  | case5 nested lineStart args t argument kind sign value isArgument err refused =>
    obtain rfl := Except.error.inj h
    rw [line_of_add refused]
    exact List.mem_cons_of_mem line List.mem_cons_self
  | case6 nested lineStart args t argument kind sign value isArgument args' added ih =>
    exact wider t (sign :: value) (wider sign value (ih h))
  | case7 nested lineStart args t argument kind sign value noArgument ih =>
    exact wider t (sign :: value) (ih h)
  | case8 => exact Except.error.inj h ▸ List.mem_cons_self
  | case9 nested lineStart args t rest noOpen noClose noName ih => exact wider t rest (ih h)

/-- What is wrong with the blocks of some tokens is wrong on the line of a token or of a brace that
was open before them. -/
theorem line_of_blocks (h : blocks opened lineStart tokens = .error e) :
    e.line ∈ opened ++ tokens.map Token.line := by
  have wider {opened : List ℕ} (t : Token) {rest more : List Token} (suffix : rest <:+ more)
      (inside : e.line ∈ opened ++ rest.map Token.line) :
      e.line ∈ opened ++ (t :: more).map Token.line := by
    refine (List.mem_append.mp inside).elim (List.mem_append_left _) fun later => ?_
    exact List.mem_append_right _
      (List.mem_cons_of_mem t.line ((suffix.map Token.line).subset later))
  -- A brace that opens brings its own line among the open ones; every other case reads tokens off.
  fun_induction blocks opened lineStart tokens with
  | case1 => contradiction
  | case2 lineStart line opened => exact Except.error.inj h ▸ List.mem_cons_self
  | case3 opened lineStart t rest kind ih =>
    rw [List.map_cons]
    exact List.perm_middle.symm.subset (ih h)
  | case4 lineStart t rest kind => exact Except.error.inj h ▸ List.mem_cons_self
  | case5 lineStart t rest kind line opened ih =>
    exact List.mem_cons_of_mem line (wider t List.suffix_rfl (ih h))
  | case6 opened lineStart t rest noHeader notOpen notClose starts ih =>
    exact wider t List.suffix_rfl (ih h)
  | case7 opened lineStart t rest name body named cause refused notOpen notClose starts =>
    obtain rfl := Except.error.inj h
    have later := ((suffix_header? named).map Token.line).subset
    exact List.mem_append_right opened
      (List.cons_subset_cons t.line later (line_of_moduleBody refused))
  | case8 opened lineStart t rest name body named block after read notOpen notClose starts ih =>
    have suffix : after <:+ rest := (suffix_moduleBody read).trans (suffix_header? named)
    exact wider t suffix (ih (map_eq_error_iff.mp h))
  | case9 opened lineStart t rest notOpen notClose noHeader ih =>
    exact wider t List.suffix_rfl (ih h)

end Problems

/-- Every token starts where its line says: there the reader stands between tokens, with all earlier
tokens read. -/
theorem exists_start_of_token {text : String} {tokens : List Token} {t : Token} {i : ℕ}
    (all : tokenize text = .ok tokens) (listed : tokens[i]? = some t) :
    ∃ q c rest after, Reaches (Reading.turn text.toList) Reading.start
        ⟨q, t.line, .between, tokens.take i⟩ ∧
      text.toList.drop q = c :: rest ∧ step t.line c rest = .ok (some t.kind, after) := by
  obtain ⟨c, rest, after, reads, read⟩ := exists_reads_of_getElem? all listed
  obtain ⟨q, here, reaches⟩ := Reading.exists_reaches_of_reads reads
    (Reading.isValid_start text.toList) rfl
  exact ⟨q, c, rest, after, reaches, here, read⟩

/-- A problem with the tokens of a text is reported on a line of the text. -/
theorem line_of_tokenize {text : String} {e : ScanError} (h : tokenize text = .error e) :
    1 ≤ e.line ∧ e.line ≤ 1 + text.toList.count '\n' := by
  obtain ⟨r, reaches, ends⟩ := (runsInRange_tokenize text).ends
  rw [h] at ends
  have valid := Reading.isValid_of_reaches (Reading.isValid_start text.toList) reaches
  have bounds := Reading.line_of_ends valid ends
  exact ⟨bounds.1, bounds.2.trans valid.line_le⟩

/-- The reader's line is one more than the line ends before its position. -/
theorem line_of_reaches {text : String} {r : Reading}
    (reaches : Reaches (Reading.turn text.toList) Reading.start r) :
    r.line = 1 + (text.toList.take r.pos).count '\n' :=
  (Reading.isValid_of_reaches (Reading.isValid_start text.toList) reaches).line_eq

/-- A problem with the blocks of a text is reported on a line of the text. -/
theorem line_of_scan {text : String} {e : ScanError} (h : scan text = .error e) :
    1 ≤ e.line ∧ e.line ≤ 1 + text.toList.count '\n' := by
  rw [scan] at h
  cases all : tokenize text with
  | error e' =>
    rw [all] at h
    obtain rfl := Except.error.inj h
    exact line_of_tokenize all
  | ok tokens =>
    rw [all] at h
    obtain ⟨t, isToken, same⟩ := List.mem_map.mp (line_of_blocks h)
    obtain ⟨i, listed⟩ := List.mem_iff_getElem?.mp isToken
    obtain ⟨q, c, rest, after, reaches, -⟩ := exists_start_of_token all listed
    have line : t.line = 1 + (text.toList.take q).count '\n' := line_of_reaches reaches
    have fewer := (List.take_sublist q text.toList).count_le '\n'
    omega

/-- On its way through a text, from the start to the tokens, the reader is always on the line that
is one more than the line ends before its position. A token has the line of the position where the
reader begins it, with all earlier tokens read; and what is wrong with the text or with its blocks
is reported on one of its lines. -/
theorem lines_exact (text : String) :
    (∃ last, Reaches (Reading.turn text.toList) Reading.start last ∧
      Reading.turn text.toList last = some (.ends (tokenize text))) ∧
    (∀ r, Reaches (Reading.turn text.toList) Reading.start r →
      r.line = 1 + (text.toList.take r.pos).count '\n') ∧
    (∀ tokens, tokenize text = .ok tokens → ∀ i t, tokens[i]? = some t →
      ∃ q c rest after, Reaches (Reading.turn text.toList) Reading.start
          ⟨q, t.line, .between, tokens.take i⟩ ∧
        text.toList.drop q = c :: rest ∧ step t.line c rest = .ok (some t.kind, after) ∧
        t.line = 1 + (text.toList.take q).count '\n') ∧
    ∀ e, tokenize text = .error e ∨ scan text = .error e →
      1 ≤ e.line ∧ e.line ≤ 1 + text.toList.count '\n' := by
  refine ⟨(runsInRange_tokenize text).ends, fun _ => line_of_reaches, ?_, ?_⟩
  · intro tokens all i t listed
    obtain ⟨q, c, rest, after, reaches, here, read⟩ := exists_start_of_token all listed
    exact ⟨q, c, rest, after, reaches, here, read, line_of_reaches reaches⟩
  · rintro e (refused | refused)
    · exact line_of_tokenize refused
    · exact line_of_scan refused

end TerraDeps.Native
