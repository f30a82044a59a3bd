/-!
# Cutting text at separators

`pieces` cuts at every separator and keeps empty pieces, so that joining the pieces with a single
separator gives the text back (`intercalate_pieces`). `splitLast?` cuts at the last separator only.
-/

set_option autoImplicit false

namespace TerraDeps.Text

/-- The pieces between the characters that satisfy `sep`; a text with `n` separators has `n + 1`. -/
def pieces (sep : Char → Bool) : List Char → List (List Char)
  | [] => [[]]
  | c :: rest =>
    if sep c then [] :: pieces sep rest
    else match pieces sep rest with
      | [] => [[c]]
      | p :: ps => (c :: p) :: ps

/-- Every text has a piece. -/
theorem pieces_ne_nil (sep : Char → Bool) (s : List Char) : pieces sep s ≠ [] := by
  cases s with
  | nil => simp [pieces]
  | cons c rest =>
    simp only [pieces]
    split
    · simp
    · split <;> simp

/-- No piece holds a separator. -/
theorem not_sep_of_mem_pieces {sep : Char → Bool} {s p : List Char} (h : p ∈ pieces sep s) :
    ∀ c ∈ p, sep c = false := by
  induction s generalizing p with
  | nil => simp_all [pieces]
  | cons c rest ih =>
    simp only [pieces] at h
    split at h
    · rcases List.mem_cons.mp h with rfl | h
      · simp
      · exact ih h
    · rename_i hc
      split at h
      · simp_all
      · rename_i q qs hq
        rcases List.mem_cons.mp h with rfl | h
        · intro d hd
          rcases List.mem_cons.mp hd with rfl | hd
          · simpa using hc
          · exact ih (hq ▸ List.mem_cons_self) d hd
        · exact ih (hq ▸ List.mem_cons_of_mem _ h)

/-- What is no separator stands in a piece. -/
theorem exists_mem_pieces {sep : Char → Bool} {s : List Char} {c : Char} (h : c ∈ s)
    (notSep : sep c = false) : ∃ p ∈ pieces sep s, c ∈ p := by
  induction s with
  | nil => contradiction
  | cons d rest ih =>
    simp only [pieces]
    rcases List.mem_cons.mp h with rfl | later
    · rw [if_neg (by simp [notSep])]
      split
      · exact ⟨[c], List.mem_singleton_self _, List.mem_singleton_self _⟩
      · exact ⟨_, List.mem_cons_self, List.mem_cons_self⟩
    · obtain ⟨p, hp, hc⟩ := ih later
      split
      · exact ⟨p, List.mem_cons_of_mem _ hp, hc⟩
      · split
        · rename_i nothing
          rw [nothing] at hp
          contradiction
        · rename_i q qs hq
          rw [hq] at hp
          rcases List.mem_cons.mp hp with rfl | hp
          · exact ⟨_, List.mem_cons_self, List.mem_cons_of_mem d hc⟩
          · exact ⟨p, List.mem_cons_of_mem _ hp, hc⟩

/-- What stands in a piece stands in the text. -/
theorem mem_of_mem_pieces {sep : Char → Bool} {s p : List Char} {c : Char}
    (isPiece : p ∈ pieces sep s) (h : c ∈ p) : c ∈ s := by
  induction s generalizing p with
  | nil => simp_all [pieces]
  | cons d rest ih =>
    simp only [pieces] at isPiece
    split at isPiece
    · rcases List.mem_cons.mp isPiece with rfl | later
      · contradiction
      · exact List.mem_cons_of_mem d (ih later h)
    · split at isPiece
      · simp_all
      · rename_i q qs cut
        rcases List.mem_cons.mp isPiece with rfl | later
        · rcases List.mem_cons.mp h with rfl | h
          · exact List.mem_cons_self
          · exact List.mem_cons_of_mem d (ih (cut ▸ List.mem_cons_self) h)
        · exact List.mem_cons_of_mem d (ih (cut ▸ List.mem_cons_of_mem q later) h)

/-- Joining the pieces with the separator gives the text back. -/
theorem intercalate_pieces (sep : Char) (s : List Char) :
    [sep].intercalate (pieces (· == sep) s) = s := by
  induction s with
  | nil => simp [pieces, List.intercalate]
  | cons c rest ih =>
    simp only [pieces]
    split
    · rename_i hc
      obtain ⟨p, ps, hp⟩ := List.exists_cons_of_ne_nil (pieces_ne_nil (· == sep) rest)
      rw [hp] at ih ⊢
      simp_all [List.intercalate, List.intersperse]
    · split
      · rename_i h
        exact absurd h (pieces_ne_nil _ _)
      · rename_i p ps hp
        rw [hp] at ih
        cases ps <;> simp_all [List.intercalate, List.intersperse]

/-- The pieces are those of the library's cut at every separator. -/
theorem pieces_eq_splitOnP (sep : Char → Bool) (s : List Char) :
    pieces sep s = s.splitOnP sep := by
  induction s with
  | nil => simp [pieces]
  | cons c rest ih =>
    rw [List.splitOnP_cons_eq_if_modifyHead, ← ih, pieces]
    split
    · rfl
    · cases hp : pieces sep rest with
      | nil => exact absurd hp (pieces_ne_nil sep rest)
      | cons p ps => rfl

/-- A text without separators is its only piece. -/
theorem pieces_of_not_sep {sep : Char → Bool} {s : List Char} (h : ∀ c ∈ s, sep c = false) :
    pieces sep s = [s] := by
  rw [pieces_eq_splitOnP]
  exact List.splitOnP_eq_singleton h

/-- A separator cuts a text into two, and the pieces are those of both. -/
theorem pieces_append_cons {sep : Char → Bool} {d : Char} (cuts : sep d = true)
    (before after : List Char) :
    pieces sep (before ++ d :: after) = pieces sep before ++ pieces sep after := by
  simp only [pieces_eq_splitOnP]
  exact List.splitOnP_append_cons before after cuts

/-- Texts without separators that are joined by one are the pieces of what comes out. -/
theorem pieces_intercalate {sep : Char → Bool} {d : Char} {ps : List (List Char)}
    (hd : sep d = true) (h : ∀ p ∈ ps, ∀ c ∈ p, sep c = false) (notEmpty : ps ≠ []) :
    pieces sep ([d].intercalate ps) = ps := by
  induction ps with
  | nil => exact absurd rfl notEmpty
  | cons p ps ih =>
    have first : ∀ c ∈ p, sep c = false := h p List.mem_cons_self
    cases ps with
    | nil => rw [List.intercalate_singleton, pieces_of_not_sep first]
    | cons q ps =>
      have later := ih (fun r hr => h r (List.mem_cons_of_mem p hr)) (List.cons_ne_nil q ps)
      rw [List.intercalate_cons_cons, List.append_assoc, List.singleton_append,
        pieces_append_cons hd, pieces_of_not_sep first, later, List.singleton_append]

/-- What stands before the first of a character. -/
theorem takeWhile_ne_append {q : Char} {text : List Char} (fresh : q ∉ text)
    (after : List Char) : (text ++ q :: after).takeWhile (· != q) = text := by
  have goesOn : ∀ d ∈ text, (d != q) = true := fun d listed =>
    bne_iff_ne.mpr fun same => fresh (same ▸ listed)
  rw [List.takeWhile_append_of_pos goesOn, List.takeWhile_cons_of_neg (by simp), List.append_nil]

/-- What is dropped up to a character stops at its first occurrence. -/
theorem dropWhile_ne_append {q : Char} {text : List Char} (fresh : q ∉ text)
    (after : List Char) : (text ++ q :: after).dropWhile (· != q) = q :: after := by
  have goesOn : ∀ d ∈ text, (d != q) = true := fun d listed =>
    bne_iff_ne.mpr fun same => fresh (same ▸ listed)
  rw [List.dropWhile_append_of_pos goesOn, List.dropWhile_cons_of_neg (by simp)]

/-- The parts before and after the last `sep`, if there is one. -/
def splitLast? (sep : Char) : List Char → Option (List Char × List Char)
  | [] => none
  | c :: rest =>
    match splitLast? sep rest with
    | some (before, after) => some (c :: before, after)
    | none => if c = sep then some ([], rest) else none

/-- A text without the separator is not split. -/
theorem splitLast?_of_not_mem {sep : Char} {s : List Char} (noSep : sep ∉ s) :
    splitLast? sep s = none := by
  induction s with
  | nil => rfl
  | cons c rest ih =>
    obtain ⟨other, noSep⟩ := not_or.mp (mt List.mem_cons.mpr noSep)
    rw [splitLast?, ih noSep]
    exact if_neg (Ne.symm other)

/-- A text is split at a separator that no other follows. -/
theorem splitLast?_append {sep : Char} {after : List Char} (noSep : sep ∉ after)
    (before : List Char) : splitLast? sep (before ++ sep :: after) = some (before, after) := by
  induction before with
  | nil =>
    rw [List.nil_append, splitLast?, splitLast?_of_not_mem noSep]
    exact if_pos rfl
  | cons c before ih => rw [List.cons_append, splitLast?, ih]

/-- A text is not split exactly when it has no separator. -/
theorem splitLast?_eq_none_iff {sep : Char} {s : List Char} :
    splitLast? sep s = none ↔ sep ∉ s := by
  refine ⟨fun h => ?_, splitLast?_of_not_mem⟩
  induction s with
  | nil => exact List.not_mem_nil
  | cons c rest ih =>
    rw [splitLast?] at h
    split at h
    · contradiction
    · rename_i later
      split at h
      · contradiction
      · rename_i other
        exact List.not_mem_cons_of_ne_of_not_mem (Ne.symm other) (ih later)

/-- A text is split exactly at the separator that no other follows. -/
theorem splitLast?_eq_some_iff {sep : Char} {s before after : List Char} :
    splitLast? sep s = some (before, after) ↔ s = before ++ sep :: after ∧ sep ∉ after := by
  refine ⟨fun h => ?_, fun ⟨cut, noSep⟩ => cut ▸ splitLast?_append noSep before⟩
  induction s generalizing before with
  | nil => contradiction
  | cons c rest ih =>
    rw [splitLast?] at h
    split at h
    · rename_i front back later
      obtain ⟨rfl, rfl⟩ := Prod.mk.inj (Option.some.inj h)
      obtain ⟨rfl, noSep⟩ := ih later
      exact ⟨rfl, noSep⟩
    · rename_i noSep
      split at h
      · rename_i same
        obtain ⟨rfl, rfl⟩ := Prod.mk.inj (Option.some.inj h)
        exact ⟨same ▸ rfl, splitLast?_eq_none_iff.mp noSep⟩
      · contradiction

/-- The part after the last `sep`, or the whole text. -/
def afterLast (sep : Char) (s : List Char) : List Char :=
  match splitLast? sep s with
  | some (_, after) => after
  | none => s

/-- The part before the last `sep`, or nothing. -/
def beforeLast (sep : Char) (s : List Char) : List Char :=
  match splitLast? sep s with
  | some (before, _) => before
  | none => []

/-- Without the separator, all of the text is behind the last one. -/
theorem afterLast_of_not_mem {sep : Char} {s : List Char} (noSep : sep ∉ s) :
    afterLast sep s = s := by
  rw [afterLast, splitLast?_of_not_mem noSep]

/-- Behind the last separator is what no other is in. -/
theorem afterLast_append {sep : Char} {after : List Char} (noSep : sep ∉ after)
    (before : List Char) : afterLast sep (before ++ sep :: after) = after := by
  rw [afterLast, splitLast?_append noSep]

/-- More text without separators is behind the last one. -/
theorem afterLast_append_of_not_mem {sep : Char} {more : List Char} (noSep : sep ∉ more)
    (s : List Char) : afterLast sep (s ++ more) = afterLast sep s ++ more := by
  cases cut : splitLast? sep s with
  | none =>
    have noneIn : sep ∉ s := splitLast?_eq_none_iff.mp cut
    rw [afterLast_of_not_mem noneIn, afterLast_of_not_mem (by simp [noneIn, noSep])]
  | some parts =>
    obtain ⟨rfl, noneAfter⟩ := splitLast?_eq_some_iff.mp cut
    rw [afterLast_append noneAfter, List.append_assoc, List.cons_append,
      afterLast_append (by simp [noneAfter, noSep])]

/-- What is before a separator does not matter for what is behind the last one. -/
theorem afterLast_append_cons (sep : Char) (before after : List Char) :
    afterLast sep (before ++ sep :: after) = afterLast sep after := by
  cases cut : splitLast? sep after with
  | none =>
    have noneIn : sep ∉ after := splitLast?_eq_none_iff.mp cut
    rw [afterLast_append noneIn, afterLast_of_not_mem noneIn]
  | some parts =>
    obtain ⟨rfl, noneAfter⟩ := splitLast?_eq_some_iff.mp cut
    rw [afterLast_append noneAfter, ← List.cons_append, ← List.append_assoc,
      afterLast_append noneAfter]

/-- Without the separator, nothing is before the last one. -/
theorem beforeLast_of_not_mem {sep : Char} {s : List Char} (noSep : sep ∉ s) :
    beforeLast sep s = [] := by
  rw [beforeLast, splitLast?_of_not_mem noSep]

/-- Before the last separator is what is before one that no other follows. -/
theorem beforeLast_append {sep : Char} {after : List Char} (noSep : sep ∉ after)
    (before : List Char) : beforeLast sep (before ++ sep :: after) = before := by
  rw [beforeLast, splitLast?_append noSep]

/-- The part before the first occurrence of the two characters `a`, `b` in a row, or the whole
text. -/
def beforePair (a b : Char) : List Char → List Char
  | [] => []
  | c :: rest => if c = a ∧ rest.head? = some b then [] else c :: beforePair a b rest

/-- Whether `needle` occurs in the text. -/
def occurs (needle : List Char) : List Char → Bool
  | [] => needle.isEmpty
  | c :: rest => needle.isPrefixOf (c :: rest) || occurs needle rest

/-- A text occurs in another if it is a stretch of it. -/
theorem occurs_iff {needle s : List Char} : occurs needle s = true ↔ needle <:+: s := by
  induction s with
  | nil => simp [occurs]
  | cons c s ih =>
    rw [occurs, Bool.or_eq_true, List.isPrefixOf_iff_prefix, ih, List.infix_cons_iff]

end TerraDeps.Text
