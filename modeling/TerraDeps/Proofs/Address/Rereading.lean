import TerraDeps.Proofs.Address

/-!
# Reading an address a second time

What is read from a text is in a form of its own: the directory is clean, and a name that is kept
has no colon and no blank at its end (`IsRead`). Still the address may be lost when it is written
and read again, since the directory may start with a blank that stood behind slashes, and without a
name it may end with a blank or have a colon inside. In these cases the second reading takes away a
part of the directory; in all others it gives the address back.
-/

set_option autoImplicit false

namespace TerraDeps.Address

open Text

/-- What holds of every address that is read from a text. -/
structure IsRead (a : Address) : Prop where
  clean : IsClean a.specPath
  kept : ∀ name ∈ a.targetName, name.toList ≠ [] ∧ ':' ∉ name.toList ∧
    (∀ c ∈ name.toList.getLast?, isBlank c = false) ∧ name ≠ impliedName a.specPath

/-- The directory starts with no blank; where no name follows it, it also ends with no blank, and
has no colon unless it ends with one. -/
def IsRereadable (a : Address) : Prop :=
  (∀ c ∈ a.specPath.toList.head?, isBlank c = false) ∧
  (a.targetName = none →
    (∀ c ∈ a.specPath.toList.getLast?, isBlank c = false) ∧
    (':' ∉ a.specPath.toList ∨ a.specPath.toList.getLast? = some ':'))

variable {a : Address} {p n : String}

section FirstReading

/-- A name that the directory does not imply is kept. -/
theorem named_of_ne (different : n ≠ impliedName p) : named p n = ⟨p, some n⟩ := by
  rw [named, if_neg different]

/-- The address of a clean directory is in the form of those that are read. -/
theorem isRead_ofPath (clean : IsClean p) : IsRead (ofPath p) where
  clean := clean
  kept name noName := by contradiction

/-- A clean directory with a name that has no colon and no blank at its end is in the form of those
that are read. -/
theorem isRead_named (clean : IsClean p) (notEmpty : n.toList ≠ []) (noColon : ':' ∉ n.toList)
    (last : ∀ c ∈ n.toList.getLast?, isBlank c = false) : IsRead (named p n) := by
  by_cases implied : n = impliedName p
  · rw [named, if_pos implied]
    exact isRead_ofPath clean
  · rw [named_of_ne implied]
    refine ⟨clean, fun name same => ?_⟩
    rw [← Option.some.inj same]
    exact ⟨notEmpty, noColon, last, implied⟩

/-- Every address that is read is in this form. -/
theorem isRead_parse (text : String) : IsRead (parse text) := by
  obtain ⟨-, read⟩ | ⟨before, after, whole, noColon, notEmpty, read⟩ := parse_cases text
  · rw [read]
    exact isRead_ofPath (isClean_cleanPath _)
  · -- the name ends where the trimmed text does
    have last : ∀ c ∈ after.getLast?, isBlank c = false := by
      intro c isLast
      refine getLast?_dropEndWhile (s := text.toList.dropWhile isBlank) ?_
      rw [← dropAround, ← trimBlanks, whole,
        List.getLast?_append_of_ne_nil _ (List.cons_ne_nil _ _),
        List.getLast?_cons_of_ne_nil notEmpty]
      exact isLast
    rw [← String.toList_ofList (l := after)] at notEmpty noColon last
    rw [read]
    exact isRead_named (isClean_cleanPath before) notEmpty noColon last

end FirstReading

section SecondReading

/-- An address without a name is rereadable if it reads back. -/
theorem isRereadable_none_iff : IsRereadable ⟨p, none⟩ ↔ ReadsBack ⟨p, none⟩ := by
  simp [IsRereadable, ReadsBack, imp_iff_not_or]

/-- An address with a name is rereadable if its directory starts with no blank. -/
theorem isRereadable_some_iff :
    IsRereadable ⟨p, some n⟩ ↔ ∀ c ∈ p.toList.head?, isBlank c = false := by
  simp [IsRereadable]

/-- With a name that was read, the same name is read again, and the directory without the blanks at
its start. -/
theorem IsRead.parse_display_some (h : IsRead ⟨p, some n⟩) : parse (display ⟨p, some n⟩) =
    named (cleanPath ((if p = "" then "//" else p).toList.dropWhile isBlank)) n := by
  obtain ⟨notEmpty, noColon, last, -⟩ := h.kept n rfl
  have trimmed := trimBlanks_display_some p n
  rw [dropEndWhile_eq_self_iff.mpr last] at trimmed
  rw [parse_of_name trimmed noColon notEmpty, String.ofList_toList]

/-- Of an address that was read, the second reading gives the same address or another directory. -/
theorem IsRead.parse_display (h : IsRead a) :
    (IsRereadable a ∧ parse a.display = a) ∨
    (¬ IsRereadable a ∧ (parse a.display).specPath ≠ a.specPath) := by
  obtain ⟨p, name⟩ := a
  cases name with
  | none =>
    rw [isRereadable_none_iff]
    exact parse_display_none h.clean
  | some n =>
    obtain ⟨-, -, -, notImplied⟩ := h.kept n rfl
    rw [h.parse_display_some, isRereadable_some_iff, ← cleanPath_dropWhile_iff h.clean,
      specPath_named]
    by_cases same : cleanPath ((if p = "" then "//" else p).toList.dropWhile isBlank) = p
    · refine .inl ⟨same, ?_⟩
      rw [same, named_of_ne notImplied]
    · exact .inr ⟨same, same⟩

end SecondReading

/-- An address that is read from any text is read again from its own text exactly when it is
rereadable, as it is at the root; of any other not even the directory is read again. -/
theorem parse_display_parse_iff (text : String) :
    let a := parse text
    (parse a.display = a ↔ IsRereadable a) ∧
    ((parse a.display).specPath = a.specPath ↔ IsRereadable a) ∧
    (a.specPath = "" → IsRereadable a) := by
  intro a
  have empty (atRoot : a.specPath = "") : IsRereadable a := by simp [IsRereadable, atRoot]
  obtain ⟨rereadable, same⟩ | ⟨fails, other⟩ := (isRead_parse text).parse_display
  · have directory := congrArg specPath same
    exact ⟨iff_of_true same rereadable, iff_of_true directory rereadable, empty⟩
  · have different (same : parse a.display = a) : False := other (congrArg specPath same)
    exact ⟨iff_of_false different fails, iff_of_false other fails, empty⟩

/-- The name that the directory implies is not kept, and without it the directory is cut at its own
colon. -/
example : parse "a:b/c:c" = ⟨"a:b/c", none⟩ ∧ parse "a:b/c" = ⟨"a", some "b/c"⟩ := by decide

end TerraDeps.Address
