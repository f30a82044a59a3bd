import TerraDeps.Address
import TerraDeps.Proofs.Path

/-!
# Addresses as they are written

A unit's address is written with a colon before its name, and read by trimming blanks and cutting at
the last colon. What is read names the unit again only if no blank at the ends was part of a name
and the last colon is the one that was written (`fits_parse_display_iff`). In the other cases what
is read names a directory that is shorter or has a colon too many or too few.
-/

set_option autoImplicit false

namespace TerraDeps.Address

open Text

/-- A directory implies its own last name. -/
theorem impliedName_text (d : ModulePath) : impliedName d.text = d.names.getLastD "" := by
  rcases List.eq_nil_or_concat d.segments with atRoot | ⟨above, last, whole⟩
  · rw [ModulePath.text_of_isRoot atRoot, ModulePath.names_eq_nil_iff.mpr atRoot]
    rfl
  · rw [List.concat_eq_append] at whole
    have text : d.text = (⟨above⟩ : ModulePath).file last.name := by
      rw [ModulePath.file_eq, ModulePath.text, ModulePath.names, whole, List.map_append]
      rfl
    rw [impliedName, text, ModulePath.afterLast_file last.isSegment.noSlash, ModulePath.names,
      whole]
    simp

/-- The address of a unit keeps its name unless that is the directory's own. -/
theorem ofParts_text (d : ModulePath) (name : Option String) :
    ofParts d.text name = ⟨d.text, name.filter fun n => n ≠ d.names.getLastD ""⟩ := by
  cases name with
  | none => rfl
  | some n =>
    rw [ofParts, named, impliedName_text]
    by_cases same : n = d.names.getLastD "" <;> simp [Option.filter, same]

/-- The address's text, when it is read, names what the address names. -/
def ReadsBack (a : Address) : Prop :=
  (∀ c ∈ a.specPath.toList.head?, isBlank c = false) ∧
  match a.targetName with
  | none =>
    (∀ c ∈ a.specPath.toList.getLast?, isBlank c = false) ∧
    (':' ∈ a.specPath.toList → a.specPath.toList.getLast? = some ':')
  | some name =>
    let trimmed := dropEndWhile isBlank name.toList
    ':' ∉ name.toList ∧ trimmed ≠ [] ∧
    (trimmed = name.toList ∨ String.ofList trimmed = impliedName a.specPath)

section Cleaning

variable {s : List Char} {p : String}

/-- Pairs of slashes are dropped at the front. -/
theorem dropSlashPairs_suffix (s : List Char) : dropSlashPairs s <:+ s := by
  fun_induction dropSlashPairs s with
  | case1 rest ih => exact ih.trans ((List.suffix_cons _ _).trans (List.suffix_cons _ _))
  | case2 s => exact List.suffix_refl s

/-- Pairs of slashes take no colons away. -/
theorem count_dropSlashPairs (s : List Char) : (dropSlashPairs s).count ':' = s.count ':' := by
  fun_induction dropSlashPairs s with
  | case1 rest ih => simpa using ih
  | case2 s => rfl

/-- No pair of slashes is left at the front. -/
theorem not_prefix_dropSlashPairs (s : List Char) : ¬ ['/', '/'] <+: dropSlashPairs s := by
  fun_induction dropSlashPairs s with
  | case1 rest ih => exact ih
  | case2 s noPair =>
    rintro ⟨rest, rfl⟩
    exact noPair rest rfl

/-- A text that starts with no pair of slashes stays as it is. -/
theorem dropSlashPairs_eq_self (h : ¬ ['/', '/'] <+: s) : dropSlashPairs s = s := by
  unfold dropSlashPairs
  split
  · exact absurd (List.prefix_append ['/', '/'] _) h
  · rfl

/-- Cleaning makes no text longer. -/
theorem length_cleanPath_le (s : List Char) : (cleanPath s).toList.length ≤ s.length := by
  have short := ((dropEndWhile_sublist (· == '/') (dropSlashPairs s)).trans
    (dropSlashPairs_suffix s).sublist).length_le
  simp only [cleanPath]
  split
  · exact Nat.zero_le _
  · rwa [String.toList_ofList]

/-- Cleaning takes no colons away. -/
theorem count_cleanPath (s : List Char) : (cleanPath s).toList.count ':' = s.count ':' := by
  have counted : (dropEndWhile (· == '/') (dropSlashPairs s)).count ':' = s.count ':' := by
    rw [count_dropEndWhile (by decide), count_dropSlashPairs]
  simp only [cleanPath]
  split
  · rename_i dot
    have chars := congrArg String.toList dot
    rw [String.toList_ofList] at chars
    rw [← counted, chars]
    decide
  · rw [String.toList_ofList, counted]

/-- The text of a directory is read as that directory. -/
def IsClean (p : String) : Prop :=
  cleanPath p.toList = p

/-- A text that has nothing to clean at its ends, and is no dot, is clean. -/
theorem isClean_of_ends (noPair : ¬ ['/', '/'] <+: p.toList)
    (noSlash : p.toList.getLast? ≠ some '/') (notDot : p ≠ ".") : IsClean p := by
  have ending : dropEndWhile (· == '/') p.toList = p.toList := by
    refine dropEndWhile_eq_self_iff.mpr fun c last => ?_
    rw [beq_eq_false_iff_ne]
    rintro rfl
    exact noSlash last
  rw [IsClean, cleanPath, dropSlashPairs_eq_self noPair, ending, String.ofList_toList]
  exact if_neg notDot

/-- The text of a directory is clean. -/
theorem isClean_text (d : ModulePath) : IsClean d.text := by
  have canonical := ModulePath.isCanonical_text d
  refine isClean_of_ends ?_ canonical.noSlashLast ?_
  · rintro ⟨rest, text⟩
    exact canonical.noSlashFirst (by rw [← text]; rfl)
  · intro dot
    have piece := canonical.names (by simp [dot]) ['.'] (by rw [dot]; decide)
    exact piece.2.1 rfl

/-- What a text is read as stays as it is. -/
theorem isClean_cleanPath (s : List Char) : IsClean (cleanPath s) := by
  unfold cleanPath
  extract_lets path
  have chars : path.toList = dropEndWhile (· == '/') (dropSlashPairs s) := String.toList_ofList
  split
  · rfl
  · rename_i notDot
    refine isClean_of_ends (fun pair => ?_) (fun last => ?_) notDot
    · have front := dropEndWhile_prefix (· == '/') (dropSlashPairs s)
      rw [← chars] at front
      exact not_prefix_dropSlashPairs s (pair.trans front)
    · rw [chars] at last
      exact absurd (getLast?_dropEndWhile last) (by decide)

/-- Part of a directory's text is read as that directory only if it is all of it. -/
theorem cleanPath_eq_iff (clean : IsClean p) (part : s.Sublist p.toList) :
    cleanPath s = p ↔ s = p.toList := by
  constructor
  · intro same
    have long := length_cleanPath_le s
    rw [same] at long
    exact part.eq_of_length_le long
  · rintro rfl
    exact clean

end Cleaning

section Reading

variable {a : Address} {text p n : String} {before after : List Char}

/-- An address without a name fits the units of its directory. -/
theorem fits_ofPath_iff : a.fits (ofPath p) = true ↔ a.specPath = p := by
  rw [fits, Bool.and_eq_true, decide_eq_true_eq]
  exact and_iff_left rfl

/-- An address with a name fits the units of its directory that have the name, and all of them if
the directory implies it. -/
theorem fits_named_iff : a.fits (named p n) = true ↔
    a.specPath = p ∧ (n = impliedName p ∨ a.targetName = some n) := by
  by_cases implied : n = impliedName p <;> simp [fits, named, implied]

/-- A text without a colon is read as a directory. -/
theorem parse_of_not_mem (noColon : ':' ∉ trimBlanks text.toList) :
    parse text = ofPath (cleanPath (trimBlanks text.toList)) := by
  simp only [parse, splitLast?_of_not_mem noColon]

/-- A text whose last colon ends it is read as a directory, colon included. -/
theorem parse_of_colon_last (cut : trimBlanks text.toList = before ++ [':']) :
    parse text = ofPath (cleanPath (before ++ [':'])) := by
  simp only [parse, cut, splitLast?_append List.not_mem_nil]

/-- A text is cut at its last colon into a directory and a name. -/
theorem parse_of_name (cut : trimBlanks text.toList = before ++ ':' :: after)
    (noColon : ':' ∉ after) (notEmpty : after ≠ []) :
    parse text = named (cleanPath before) (String.ofList after) := by
  cases after with
  | nil => contradiction
  | cons c name => simp only [parse, cut, splitLast?_append noColon]

/-- A text is read as a directory, unless something follows its last colon. -/
theorem parse_cases (text : String) :
    ((':' ∈ trimBlanks text.toList → (trimBlanks text.toList).getLast? = some ':') ∧
      parse text = ofPath (cleanPath (trimBlanks text.toList))) ∨
    ∃ before after, trimBlanks text.toList = before ++ ':' :: after ∧ ':' ∉ after ∧ after ≠ [] ∧
      parse text = named (cleanPath before) (String.ofList after) := by
  cases cut : splitLast? ':' (trimBlanks text.toList) with
  | none =>
    have noColon := splitLast?_eq_none_iff.mp cut
    exact .inl ⟨fun inside => absurd inside noColon, parse_of_not_mem noColon⟩
  | some found =>
    obtain ⟨before, after⟩ := found
    obtain ⟨whole, noColon⟩ := splitLast?_eq_some_iff.mp cut
    rcases eq_or_ne after [] with rfl | notEmpty
    · refine .inl ⟨fun _ => ?_, ?_⟩
      · rw [whole, List.getLast?_concat]
      · rw [parse_of_colon_last whole, whole]
    · exact .inr ⟨before, after, whole, noColon, notEmpty, parse_of_name whole noColon notEmpty⟩

end Reading

section RoundTrip

variable {p n : String}

/-- The directory as an address is written with it. -/
theorem display_none (p : String) :
    display ⟨p, none⟩ = if p = "" then "//" else p := rfl

/-- An address with a name is written with a colon before the name. -/
theorem display_some (p n : String) :
    display ⟨p, some n⟩ = (if p = "" then "//" else p) ++ ":" ++ n := rfl

/-- Without a name, the address itself is read or another directory: the directory loses the blanks
at its ends, and what follows its last colon. -/
theorem parse_display_none (clean : IsClean p) :
    (ReadsBack ⟨p, none⟩ ∧ parse (display ⟨p, none⟩) = ⟨p, none⟩) ∨
    (¬ ReadsBack ⟨p, none⟩ ∧ (parse (display ⟨p, none⟩)).specPath ≠ p) := by
  by_cases atRoot : p = ""
  · subst atRoot
    exact .inl ⟨by simp [ReadsBack], by decide⟩
  rw [display_none, if_neg atRoot]
  have part : (trimBlanks p.toList).Sublist p.toList := dropAround_sublist _ _
  have readsBack : ReadsBack ⟨p, none⟩ ↔ trimBlanks p.toList = p.toList ∧
      (':' ∈ p.toList → p.toList.getLast? = some ':') := by
    rw [ReadsBack, ← and_assoc, ← dropAround_eq_self_iff]
    rfl
  rw [readsBack]
  obtain ⟨colons, read⟩ | ⟨before, after, whole, noColon, notEmpty, read⟩ := parse_cases p
  · rw [read, specPath_ofPath, Ne, cleanPath_eq_iff clean part]
    by_cases same : trimBlanks p.toList = p.toList
    · rw [same] at colons ⊢
      exact .inl ⟨⟨rfl, colons⟩, congrArg ofPath clean⟩
    · exact .inr ⟨fun reads => same reads.1, same⟩
  · -- the name is cut off the directory, which has a colon less then
    refine .inr ⟨fun ⟨same, atEnd⟩ => ?_, fun same => ?_⟩
    · have inside : ':' ∈ p.toList := by
        rw [← same, whole]
        exact List.mem_append_right _ List.mem_cons_self
      have last := atEnd inside
      rw [← same, whole, List.getLast?_append_of_ne_nil _ (List.cons_ne_nil _ _),
        List.getLast?_cons_of_ne_nil notEmpty] at last
      exact noColon (List.mem_of_getLast? last)
    · have colons : (trimBlanks p.toList).count ':' = p.toList.count ':' :=
        count_dropAround (by decide) _
      have fewer := count_cleanPath before
      rw [read, specPath_named] at same
      rw [same, ← colons, whole, List.count_append, List.count_cons_self] at fewer
      omega

/-- Without a name, what is read names the address exactly when it reads back. -/
theorem fits_parse_display_none (clean : IsClean p) :
    fits ⟨p, none⟩ (parse (display ⟨p, none⟩)) = true ↔ ReadsBack ⟨p, none⟩ := by
  obtain ⟨reads, same⟩ | ⟨fails, other⟩ := parse_display_none clean
  · rw [same]
    exact iff_of_true (fits_ofPath_iff.mpr rfl) reads
  · refine iff_of_false (fun found => other ?_) fails
    rw [fits, Bool.and_eq_true, decide_eq_true_eq] at found
    exact found.1.symm

/-- The directory as it is written, without blanks at its start, is read as it is exactly when it
starts with none. -/
theorem cleanPath_dropWhile_iff (clean : IsClean p) :
    cleanPath ((if p = "" then "//" else p).toList.dropWhile isBlank) = p ↔
      ∀ c ∈ p.toList.head?, isBlank c = false := by
  split
  · rename_i atRoot
    rw [atRoot]
    exact iff_of_true (by decide) (by simp)
  · rw [cleanPath_eq_iff clean (List.dropWhile_sublist _), dropWhile_eq_self_iff]

/-- If a colon follows the directory that is written, what is read as a directory has one too
many. -/
theorem cleanPath_ne_of_colon (more : List Char) :
    cleanPath ((if p = "" then "//" else p).toList.dropWhile isBlank ++ ':' :: more) ≠ p := by
  intro same
  have colons := count_cleanPath
    ((if p = "" then "//" else p).toList.dropWhile isBlank ++ ':' :: more)
  have written : (if p = "" then "//" else p).toList.count ':' = p.toList.count ':' := by
    split
    · rename_i atRoot
      rw [atRoot]
      decide
    · rfl
  rw [same, List.count_append, count_dropWhile (by decide), List.count_cons_self, written] at colons
  omega

/-- Of an address with a name, the directory loses the blanks at its start and the name those at its
end. -/
theorem trimBlanks_display_some (p n : String) : trimBlanks (display ⟨p, some n⟩).toList =
    (if p = "" then "//" else p).toList.dropWhile isBlank ++
      ':' :: dropEndWhile isBlank n.toList := by
  have text : (display ⟨p, some n⟩).toList =
      (if p = "" then "//" else p).toList ++ ':' :: n.toList := by
    rw [display_some, String.toList_append, String.toList_append, List.append_assoc]
    rfl
  rw [trimBlanks, text, dropAround_append_cons (by decide)]

/-- With a name, what is read is the directory without blanks at its start and the name without
blanks at its end, if the name has no colon and does not vanish. -/
theorem fits_parse_display_some (clean : IsClean p) :
    fits ⟨p, some n⟩ (parse (display ⟨p, some n⟩)) = true ↔ ReadsBack ⟨p, some n⟩ := by
  have trimmed := trimBlanks_display_some p n
  have colons : ':' ∈ dropEndWhile isBlank n.toList ↔ ':' ∈ n.toList := by
    rw [← List.count_pos_iff, count_dropEndWhile (by decide), List.count_pos_iff]
  simp only [ReadsBack, ← cleanPath_dropWhile_iff clean, ← colons]
  cases cut : splitLast? ':' (dropEndWhile isBlank n.toList) with
  | some found =>
    -- the colon at which the text is cut belongs to the name
    obtain ⟨before, after⟩ := found
    obtain ⟨whole, noColon⟩ := splitLast?_eq_some_iff.mp cut
    refine iff_of_false ?_ fun ⟨_, without, _⟩ => without (by simp [whole])
    rcases eq_or_ne after [] with rfl | notEmpty
    · rw [whole, ← List.cons_append, ← List.append_assoc] at trimmed
      rw [parse_of_colon_last trimmed, fits_ofPath_iff, List.append_assoc, List.cons_append]
      exact fun same => cleanPath_ne_of_colon _ same.symm
    · rw [whole, ← List.cons_append, ← List.append_assoc] at trimmed
      rw [parse_of_name trimmed noColon notEmpty, fits_named_iff]
      exact fun ⟨same, _⟩ => cleanPath_ne_of_colon _ same.symm
  | none =>
    have noColon := splitLast?_eq_none_iff.mp cut
    rcases eq_or_ne (dropEndWhile isBlank n.toList) [] with empty | notEmpty
    · rw [empty] at trimmed
      rw [parse_of_colon_last trimmed, fits_ofPath_iff]
      refine iff_of_false (fun same => cleanPath_ne_of_colon [] same.symm) ?_
      exact fun ⟨_, _, notEmpty, _⟩ => notEmpty empty
    · have names : some n = some (String.ofList (dropEndWhile isBlank n.toList)) ↔
          dropEndWhile isBlank n.toList = n.toList := by
        rw [Option.some.injEq, ← String.toList_inj, String.toList_ofList, eq_comm]
      rw [parse_of_name trimmed noColon notEmpty, fits_named_iff, names, eq_comm]
      refine and_congr_right fun same => ?_
      rw [same, or_comm]
      exact ⟨fun sameName => ⟨noColon, notEmpty, sameName⟩, fun ⟨_, _, sameName⟩ => sameName⟩

/-- What is read from the text of an address names the address exactly when it reads back. -/
theorem fits_parse_display_iff {a : Address} {d : ModulePath} (inside : a.specPath = d.text) :
    a.fits (parse a.display) = true ↔ a.ReadsBack := by
  have clean : IsClean a.specPath := inside ▸ isClean_text d
  obtain ⟨specPath, targetName⟩ := a
  cases targetName with
  | none => exact fits_parse_display_none clean
  | some n => exact fits_parse_display_some clean

end RoundTrip

end TerraDeps.Address
