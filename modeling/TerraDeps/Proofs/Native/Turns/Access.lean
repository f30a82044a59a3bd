import Mathlib.Data.List.TakeWhile
import TerraDeps.Native.Quoted
import TerraDeps.Proofs.Traversal

/-!
# Reading a text at positions

The readers of the native syntax once more, on a whole text and a position in it. They look at
single characters, which may be missing, and cut out slices, whose bounds must be in order and in
range: a reader that asks for any other slice has no result. Each of them reads at a position what
its counterpart reads of the text from there on, and comes to a position that is no earlier and
within the text (`IsReadAt`).
-/

set_option autoImplicit false

namespace TerraDeps.Native

open Text

/-- The characters from position `i` up to position `j`, if the bounds are in order and in range. -/
def slice? (s : List Char) (i j : ℕ) : Option (List Char) :=
  if i ≤ j ∧ j ≤ s.length then some ((s.drop i).take (j - i)) else none

/-- The first position from `pos` on whose character, if there is one, does not pass the test. -/
def passWhile (test : Char → Bool) (s : List Char) (pos : ℕ) : ℕ :=
  if _h : (s[pos]?).any test then passWhile test s (pos + 1) else pos
termination_by s.length - pos
decreasing_by
  obtain ⟨c, found, -⟩ := (Option.any_eq_true _ _).mp _h
  have inside := (List.getElem?_eq_some_iff.mp found).1
  omega

/-- Reads the `count` digits of a unicode escape, or as many characters as are left. -/
def unicodeAt (s : List Char) (line pos count : ℕ) : Option (Except ScanError (Char × ℕ)) :=
  let stop := min (pos + count) s.length
  (slice? s pos stop).map fun digits =>
    let code := if digits.length = count then hexNumber? digits else none
    match code.bind charOfCode? with
    | some c => .ok (c, stop)
    | none => .error ⟨line, .invalidUnicode (String.ofList digits)⟩

/-- Reads an escape after its backslash. -/
def escapeAt (s : List Char) (line pos : ℕ) : Option (Except ScanError (Char × ℕ)) :=
  match s[pos]? with
  | none => some (.error ⟨line, .unterminatedString⟩)
  | some c =>
    if c = 'n' then some (.ok ('\n', pos + 1))
    else if c = 't' then some (.ok ('\t', pos + 1))
    else if c = 'r' then some (.ok ('\r', pos + 1))
    else if c = '"' then some (.ok ('"', pos + 1))
    else if c = '\\' then some (.ok ('\\', pos + 1))
    else if c = 'u' then unicodeAt s line (pos + 1) 4
    else if c = 'U' then unicodeAt s line (pos + 1) 8
    else some (.error ⟨line, .invalidEscape c⟩)

/-- Reads one part of a string that started on line `start`. -/
def partAt (s : List Char) (start line pos : ℕ) : Option (Except ScanError (Part × ℕ)) :=
  match s[pos]? with
  | none => some (.error ⟨start, .unterminatedString⟩)
  | some c =>
    if c = '\n' then some (.error ⟨start, .unterminatedString⟩)
    else if c = '"' then some (.ok (.close, pos + 1))
    else if c = '\\' then
      (escapeAt s line (pos + 1)).map fun read => read.map fun (d, next) => (.chars [d], next)
    else if isTemplateSign c && s[pos + 1]? = some c && s[pos + 2]? = some '{' then
      some (.ok (.chars [c, '{'], pos + 3))
    else if isTemplateSign c && s[pos + 1]? = some '{' then some (.ok (.openTemplate, pos + 2))
    else some (.ok (.chars [c], pos + 1))

section Passing

variable {test : Char → Bool} {s : List Char} {c : Char} {i j pos : ℕ}

/-- A slice with its bounds in order and in range is there. -/
theorem slice?_of_le (ordered : i ≤ j) (within : j ≤ s.length) :
    slice? s i j = some ((s.drop i).take (j - i)) :=
  if_pos ⟨ordered, within⟩

/-- Characters that pass are as many as are taken from the position on. -/
theorem passWhile_eq (test : Char → Bool) (s : List Char) (pos : ℕ) :
    passWhile test s pos = pos + ((s.drop pos).takeWhile test).length := by
  fun_induction passWhile test s pos with
  | case1 pos passes ih =>
    obtain ⟨c, found, passes⟩ := (Option.any_eq_true _ _).mp passes
    rw [ih, drop_of_getElem? found, List.takeWhile_cons_of_pos passes, List.length_cons]
    omega
  | case2 pos stops =>
    have noneTaken : (s.drop pos).takeWhile test = [] := by
      cases rest : s.drop pos with
      | nil => rfl
      | cons c rest =>
        rw [getElem?_of_drop rest, Option.any_some] at stops
        exact List.takeWhile_cons_of_neg stops
    rw [noneTaken, List.length_nil, Nat.add_zero]

/-- Characters that pass are passed forwards. -/
theorem le_passWhile (test : Char → Bool) (s : List Char) (pos : ℕ) :
    pos ≤ passWhile test s pos := by
  rw [passWhile_eq]
  exact Nat.le_add_right pos _

/-- A first character that passes is passed over. -/
theorem lt_passWhile (found : s[pos]? = some c) (passes : test c = true) :
    pos < passWhile test s pos := by
  rw [passWhile_eq, drop_of_getElem? found, List.takeWhile_cons_of_pos passes, List.length_cons]
  omega

/-- Characters that pass are passed within the text. -/
theorem passWhile_le (test : Char → Bool) (within : pos ≤ s.length) :
    passWhile test s pos ≤ s.length := by
  have taken := (List.takeWhile_prefix test (l := s.drop pos)).length_le
  rw [List.length_drop] at taken
  rw [passWhile_eq]
  omega

/-- Behind the characters that pass, the rest is what is left without them. -/
theorem drop_passWhile (test : Char → Bool) (s : List Char) (pos : ℕ) :
    s.drop (passWhile test s pos) = (s.drop pos).dropWhile test := by
  let passed := (s.drop pos).takeWhile test
  calc s.drop (passWhile test s pos) = (s.drop pos).drop passed.length := by
        rw [passWhile_eq, List.drop_drop]
    _ = (passed ++ (s.drop pos).dropWhile test).drop passed.length := by
        rw [List.takeWhile_append_dropWhile]
    _ = (s.drop pos).dropWhile test := List.drop_left

/-- A first character that passes is dropped with those behind it. -/
theorem drop_passWhile_of_pos (found : s[pos]? = some c) (passes : test c = true) :
    s.drop (passWhile test s pos) = (s.drop (pos + 1)).dropWhile test := by
  rw [drop_passWhile, drop_of_getElem? found, List.dropWhile_cons_of_pos passes]

/-- The slice of the characters that pass is there. -/
theorem slice?_passWhile (test : Char → Bool) (within : pos ≤ s.length) :
    slice? s pos (passWhile test s pos) = some ((s.drop pos).takeWhile test) := by
  rw [slice?_of_le (le_passWhile test s pos) (passWhile_le test within), passWhile_eq,
    Nat.add_sub_cancel_left, ← List.prefix_iff_eq_take.mp (List.takeWhile_prefix test)]

end Passing

/-- What was read at a position is what is read of the text from there on: either fails alike, or
the reader has come further on, within the text, to where the rest begins. -/
inductive IsReadAt {α : Type} (s : List Char) (pos : ℕ) :
    Option (Except ScanError (α × ℕ)) → Except ScanError (α × List Char) → Prop
  | error (e : ScanError) : IsReadAt s pos (some (.error e)) (.error e)
  | ok (a : α) {next : ℕ} {rest : List Char} (later : pos ≤ next) (within : next ≤ s.length)
      (drop : s.drop next = rest) : IsReadAt s pos (some (.ok (a, next))) (.ok (a, rest))

namespace IsReadAt

variable {α β : Type} {s : List Char} {pos pos' : ℕ} {readHere : Option (Except ScanError (α × ℕ))}
  {read : Except ScanError (α × List Char)}

/-- What is read from a later position on comes further on from an earlier one. -/
theorem mono (h : IsReadAt s pos' readHere read) (le : pos ≤ pos') :
    IsReadAt s pos readHere read := by
  cases h with
  | error e => exact .error e
  | ok a later within drop => exact .ok a (Nat.le_trans le later) within drop

/-- A function of what is read applies on both sides. -/
theorem map (h : IsReadAt s pos readHere read) (f : α → β) :
    IsReadAt s pos (readHere.map fun r => r.map fun (a, next) => (f a, next))
      (read.map fun (a, rest) => (f a, rest)) := by
  cases h with
  | error e => exact .error e
  | ok a later within drop => exact .ok (f a) later within drop

end IsReadAt

section Reading

variable {s : List Char} {a b : Char} {line pos count : ℕ}

/-- Two characters stand at a position when each stands at its own. -/
theorem isPrefixOf_drop : [a, b].isPrefixOf (s.drop pos) =
    (decide (s[pos]? = some a) && decide (s[pos + 1]? = some b)) := by
  cases found : s[pos]? with
  | none =>
    rw [drop_of_getElem?_eq_none found]
    rfl
  | some c =>
    rw [drop_of_getElem? found]
    cases next : s[pos + 1]? with
    | none =>
      rw [drop_of_getElem?_eq_none next]
      simp [List.isPrefixOf]
    | some d =>
      rw [drop_of_getElem? next]
      simp [List.isPrefixOf, eq_comm, beq_eq_decide]

/-- An escape by a number is read alike at a position and from the text. -/
theorem isReadAt_unicodeAt (within : pos ≤ s.length) :
    IsReadAt s pos (unicodeAt s line pos count) (unicodeEscape line count (s.drop pos)) := by
  have cut : slice? s pos (min (pos + count) s.length) = some ((s.drop pos).take count) := by
    rw [slice?_of_le (by omega) (by omega), Option.some_inj, List.take_eq_take_iff,
      List.length_drop]
    omega
  have rest : s.drop (min (pos + count) s.length) = (s.drop pos).drop count := by
    rw [List.drop_drop]
    rcases Nat.le_total (pos + count) s.length with inside | outside
    · rw [Nat.min_eq_left inside]
    · rw [Nat.min_eq_right outside, List.drop_length, List.drop_eq_nil_of_le outside]
  unfold unicodeAt unicodeEscape
  simp only [cut, Option.map_some]
  cases (if ((s.drop pos).take count).length = count then hexNumber? ((s.drop pos).take count)
    else none).bind charOfCode? with
  | none => exact .error _
  | some c => exact .ok c (by omega) (Nat.min_le_right _ _) rest

/-- An escape sequence is read alike at a position and from the text. -/
theorem isReadAt_escapeAt (s : List Char) (line pos : ℕ) :
    IsReadAt s pos (escapeAt s line pos) (escape line (s.drop pos)) := by
  cases found : s[pos]? with
  | none =>
    rw [escapeAt, found, drop_of_getElem?_eq_none found]
    exact .error _
  | some c =>
    have inside := (List.getElem?_eq_some_iff.mp found).1
    rw [escapeAt, found, drop_of_getElem? found, escape]
    simp only
    split
    · exact .ok _ (Nat.le_succ pos) inside rfl
    split
    · exact .ok _ (Nat.le_succ pos) inside rfl
    split
    · exact .ok _ (Nat.le_succ pos) inside rfl
    split
    · exact .ok _ (Nat.le_succ pos) inside rfl
    split
    · exact .ok _ (Nat.le_succ pos) inside rfl
    split
    · exact (isReadAt_unicodeAt inside).mono (Nat.le_succ pos)
    split
    · exact (isReadAt_unicodeAt inside).mono (Nat.le_succ pos)
    · exact .error _

/-- Reading a part of a string comes at least one character further. -/
theorem isReadAt_partAt (s : List Char) (start line pos : ℕ) :
    IsReadAt s (pos + 1) (partAt s start line pos) (part start line (s.drop pos)) := by
  cases found : s[pos]? with
  | none =>
    rw [partAt, found, drop_of_getElem?_eq_none found]
    exact .error _
  | some c =>
    have inside := (List.getElem?_eq_some_iff.mp found).1
    rw [partAt, found, drop_of_getElem? found, part]
    simp only [isPrefixOf_drop, List.head?_drop, ← Bool.and_assoc, List.drop_drop]
    split
    · exact .error _
    split
    · exact .ok _ (Nat.le_refl _) inside rfl
    split
    · exact (isReadAt_escapeAt s line (pos + 1)).map fun d => Part.chars [d]
    split
    · rename_i twice
      have brace := of_decide_eq_true (Bool.and_eq_true_iff.mp twice).2
      exact .ok _ (by omega) (List.getElem?_eq_some_iff.mp brace).1 rfl
    split
    · rename_i once
      have brace := of_decide_eq_true (Bool.and_eq_true_iff.mp once).2
      exact .ok _ (by omega) (List.getElem?_eq_some_iff.mp brace).1 rfl
    · exact .ok _ (Nat.le_refl _) inside rfl

end Reading

end TerraDeps.Native
