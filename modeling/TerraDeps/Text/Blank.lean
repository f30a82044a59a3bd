import TerraDeps.Text.CharRange

/-!
# Blank characters and trimming

A character is blank when it has the Unicode property White_Space. Trimming removes blanks at the
ends of a text and nothing inside it.
-/

set_option autoImplicit false

namespace TerraDeps.Text

/-- The code points with the property White_Space. -/
def blankRanges : List (Nat × Nat) := [
  (0x9, 0xD), (0x20, 0x20), (0x85, 0x85), (0xA0, 0xA0), (0x1680, 0x1680), (0x2000, 0x200A),
  (0x2028, 0x2029), (0x202F, 0x202F), (0x205F, 0x205F), (0x3000, 0x3000)]

/-- Whether the character has the Unicode property White_Space. -/
def isBlank (c : Char) : Bool :=
  inRanges c.toNat blankRanges

/-- The text without the characters at its end that satisfy `p`. -/
def dropEndWhile (p : Char → Bool) (s : List Char) : List Char :=
  (s.reverse.dropWhile p).reverse

/-- The text without the characters at its two ends that satisfy `p`. -/
def dropAround (p : Char → Bool) (s : List Char) : List Char :=
  dropEndWhile p (s.dropWhile p)

section Dropping

variable {p : Char → Bool} {c : Char} {s : List Char}

/-- Nothing is dropped at the front if the first character does not pass the test. -/
theorem dropWhile_eq_self_iff : s.dropWhile p = s ↔ ∀ c ∈ s.head?, p c = false := by
  cases s with
  | nil => simp
  | cons c s =>
    cases stays : p c with
    | true =>
      refine iff_of_false (fun same => ?_) (by simp [stays])
      have short := (List.dropWhile_sublist p (l := s)).length_le
      rw [List.dropWhile_cons_of_pos stays] at same
      rw [same, List.length_cons] at short
      omega
    | false => simp [stays]

/-- Nothing is dropped at the end if the last character does not pass the test. -/
theorem dropEndWhile_eq_self_iff : dropEndWhile p s = s ↔ ∀ c ∈ s.getLast?, p c = false := by
  rw [dropEndWhile, List.reverse_eq_iff, dropWhile_eq_self_iff, List.head?_reverse]

/-- What is left when the end is dropped is part of the text. -/
theorem dropEndWhile_sublist (p : Char → Bool) (s : List Char) : (dropEndWhile p s).Sublist s := by
  have turned := (List.dropWhile_sublist (l := s.reverse) p).reverse
  rwa [List.reverse_reverse] at turned

/-- What is left when both ends are dropped is part of the text. -/
theorem dropAround_sublist (p : Char → Bool) (s : List Char) : (dropAround p s).Sublist s :=
  (dropEndWhile_sublist p _).trans (List.dropWhile_sublist p)

/-- What is left when the end is dropped is the front of the text. -/
theorem dropEndWhile_prefix (p : Char → Bool) (s : List Char) : dropEndWhile p s <+: s := by
  rw [dropEndWhile, ← List.reverse_suffix, List.reverse_reverse]
  exact List.dropWhile_suffix p

/-- What is left ends with a character that is not to be dropped. -/
theorem getLast?_dropEndWhile (h : (dropEndWhile p s).getLast? = some c) : p c = false := by
  rw [dropEndWhile, List.getLast?_reverse] at h
  have first := List.head?_dropWhile_not p s.reverse
  rwa [h] at first

/-- What is left starts with a character that is not to be dropped. -/
theorem head?_dropAround (h : (dropAround p s).head? = some c) : p c = false := by
  obtain ⟨rest, whole⟩ := List.head?_eq_some_iff.mp h
  obtain ⟨ending, same⟩ := dropEndWhile_prefix p (s.dropWhile p)
  rw [← dropAround, whole, List.cons_append] at same
  have first := List.head?_dropWhile_not p s
  rwa [← same] at first

/-- A text stays as it is exactly when neither end is to be dropped. -/
theorem dropAround_eq_self_iff : dropAround p s = s ↔
    (∀ c ∈ s.head?, p c = false) ∧ ∀ c ∈ s.getLast?, p c = false := by
  rw [← dropWhile_eq_self_iff, ← dropEndWhile_eq_self_iff]
  constructor
  · intro h
    have start : s.dropWhile p = s := by
      refine (List.dropWhile_sublist p).eq_of_length_le ?_
      have short := (dropEndWhile_sublist p (s.dropWhile p)).length_le
      rwa [← dropAround, h] at short
    rw [dropAround, start] at h
    exact ⟨start, h⟩
  · rintro ⟨start, ending⟩
    rw [dropAround, start, ending]

/-- What is left stays when the same is to be dropped again. -/
theorem dropAround_dropAround (p : Char → Bool) (s : List Char) :
    dropAround p (dropAround p s) = dropAround p s :=
  dropAround_eq_self_iff.mpr ⟨fun _ first => head?_dropAround first,
    fun _ last => getLast?_dropEndWhile last⟩

/-- Nothing is dropped behind a character that does not pass the test. -/
theorem dropWhile_append_cons (stays : p c = false) (l m : List Char) :
    (l ++ c :: m).dropWhile p = l.dropWhile p ++ c :: m := by
  rw [List.dropWhile_append, List.dropWhile_cons_of_neg (by simpa using stays)]
  split
  · rename_i allDropped
    rw [List.isEmpty_iff.mp allDropped, List.nil_append]
  · rfl

/-- Nothing is dropped before a character that does not pass the test. -/
theorem dropEndWhile_append_cons (stays : p c = false) (l m : List Char) :
    dropEndWhile p (l ++ c :: m) = l ++ c :: dropEndWhile p m := by
  have turned : (l ++ c :: m).reverse = m.reverse ++ c :: l.reverse := by simp
  rw [dropEndWhile, turned, dropWhile_append_cons stays, dropEndWhile]
  simp

/-- On either side of a character that stays, only the far end is dropped. -/
theorem dropAround_append_cons (stays : p c = false) (l m : List Char) :
    dropAround p (l ++ c :: m) = l.dropWhile p ++ c :: dropEndWhile p m := by
  rw [dropAround, dropWhile_append_cons stays, dropEndWhile_append_cons stays]

/-- What passes the test at the end is dropped altogether. -/
theorem dropEndWhile_append_of_all {t : List Char} (all : ∀ c ∈ t, p c = true) (s : List Char) :
    dropEndWhile p (s ++ t) = dropEndWhile p s := by
  have turned : ∀ c ∈ t.reverse, p c = true := fun c inside => all c (List.mem_reverse.mp inside)
  rw [dropEndWhile, List.reverse_append, List.dropWhile_append_of_pos turned, dropEndWhile]

/-- What is to be dropped at the end makes no difference. -/
theorem dropAround_append_of_all {t : List Char} (all : ∀ c ∈ t, p c = true) (s : List Char) :
    dropAround p (s ++ t) = dropAround p s := by
  rw [dropAround, List.dropWhile_append, dropAround]
  split
  · rename_i allDropped
    have dropped : t.dropWhile p = [] := by
      rw [← List.append_nil t, List.dropWhile_append_of_pos all, List.dropWhile_nil]
    rw [dropped, List.isEmpty_iff.mp allDropped]
  · exact dropEndWhile_append_of_all all _

/-- No character that fails the test is dropped at the front. -/
theorem count_dropWhile (stays : p c = false) (s : List Char) :
    (s.dropWhile p).count c = s.count c := by
  have dropped : (s.takeWhile p).count c = 0 := by
    refine List.count_eq_zero.mpr fun inside => ?_
    rw [List.all_eq_true.mp List.all_takeWhile c inside] at stays
    contradiction
  have whole := congrArg (List.count c) (List.takeWhile_append_dropWhile (p := p) (l := s))
  rwa [List.count_append, dropped, Nat.zero_add] at whole

/-- No character that fails the test is dropped at the end. -/
theorem count_dropEndWhile (stays : p c = false) (s : List Char) :
    (dropEndWhile p s).count c = s.count c := by
  rw [dropEndWhile, List.count_reverse, count_dropWhile stays, List.count_reverse]

/-- No character that fails the test is dropped at either end. -/
theorem count_dropAround (stays : p c = false) (s : List Char) :
    (dropAround p s).count c = s.count c := by
  rw [dropAround, count_dropEndWhile stays, count_dropWhile stays]

end Dropping

/-- The characters without blanks at the two ends. -/
def trimBlanks (s : List Char) : List Char :=
  dropAround isBlank s

/-- The text without blanks at its two ends. -/
def trim (s : String) : String :=
  String.ofList (trimBlanks s.toList)

/-- A trimmed text has nothing more to trim. -/
theorem trim_trim (s : String) : trim (trim s) = trim s := by
  rw [trim, trim, String.toList_ofList, trimBlanks, trimBlanks, dropAround_dropAround]

end TerraDeps.Text
