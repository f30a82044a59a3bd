import Mathlib.Data.List.Induction
import Mathlib.Data.Nat.Digits.Defs
import TerraDeps.Native.Quoted

/-!
# Strings that are written down and read back

A text is written as a quoted string character by character, and for each character there may be
several ways: itself, a short escape, or its code in hexadecimal digits of either case. Only the
sign of a template before a brace is bound to one form, which writes the sign twice. Reading any of
these forms up to the closing quote gives the text.
-/

set_option autoImplicit false

namespace TerraDeps.Native

open Text

/-- The digits are hexadecimal and write the number, the first of them counting most. -/
def WritesNumber (digits : List Char) (n : ℕ) : Prop :=
  ∃ values : List ℕ, digits.map hexValue? = values.map some ∧ Nat.ofDigits 16 values.reverse = n

/-- The characters that have a short escape, after the letter or sign of the escape. -/
def shortEscapes : List (Char × Char) :=
  [('n', '\n'), ('t', '\t'), ('r', '\r'), ('"', '"'), ('\\', '\\')]

/-- The ways in which a character is written in a quoted string. -/
inductive IsSpelling (c : Char) : List Char → Prop
  | itself (notQuote : c ≠ '"') (notBackslash : c ≠ '\\') (notNewline : c ≠ '\n') :
      IsSpelling c [c]
  | short {sign : Char} (listed : (sign, c) ∈ shortEscapes) : IsSpelling c ['\\', sign]
  | unicode {digits : List Char} (four : digits.length = 4) (code : WritesNumber digits c.toNat) :
      IsSpelling c ('\\' :: 'u' :: digits)
  | longUnicode {digits : List Char} (eight : digits.length = 8)
      (code : WritesNumber digits c.toNat) : IsSpelling c ('\\' :: 'U' :: digits)

/-- The ways in which a text is written in a quoted string. -/
inductive IsWritten : List Char → List Char → Prop
  | nil : IsWritten [] []
  | template {sign : Char} {text written : List Char} (isSign : sign = '$' ∨ sign = '%')
      (later : IsWritten text written) :
      IsWritten (sign :: '{' :: text) (sign :: sign :: '{' :: written)
  | char {c : Char} {text spelling written : List Char}
      (noTemplate : ¬ ((c = '$' ∨ c = '%') ∧ text.head? = some '{'))
      (first : IsSpelling c spelling) (later : IsWritten text written) :
      IsWritten (c :: text) (spelling ++ written)

/-- Every character has a spelling. -/
theorem exists_isSpelling (c : Char) : ∃ spelling, IsSpelling c spelling := by
  by_cases escaped : c = '"' ∨ c = '\\' ∨ c = '\n'
  · obtain rfl | rfl | rfl := escaped
    · exact ⟨['\\', '"'], IsSpelling.short (by decide)⟩
    · exact ⟨['\\', '\\'], IsSpelling.short (by decide)⟩
    · exact ⟨['\\', 'n'], IsSpelling.short (by decide)⟩
  · push Not at escaped
    exact ⟨[c], IsSpelling.itself escaped.1 escaped.2.1 escaped.2.2⟩

/-- Every text can be written. -/
theorem exists_isWritten (text : List Char) : ∃ written, IsWritten text written := by
  induction text using List.twoStepInduction with
  | nil => exact ⟨[], IsWritten.nil⟩
  | singleton c =>
    obtain ⟨spelling, first⟩ := exists_isSpelling c
    exact ⟨spelling ++ [], IsWritten.char (by simp) first IsWritten.nil⟩
  | cons_cons c d text ih ih' =>
    by_cases template : (c = '$' ∨ c = '%') ∧ d = '{'
    · obtain ⟨isSign, rfl⟩ := template
      obtain ⟨written, later⟩ := ih
      exact ⟨_, IsWritten.template isSign later⟩
    · obtain ⟨spelling, first⟩ := exists_isSpelling c
      obtain ⟨written, later⟩ := ih' d
      exact ⟨spelling ++ written, IsWritten.char (by simpa using template) first later⟩

section Digits

variable {digits rest : List Char} {line n count : ℕ} {c : Char}

/-- Hexadecimal digits are read as a number behind the value that was read before. -/
theorem hexNumberFrom?_eq {values : List ℕ} (h : digits.map hexValue? = values.map some)
    (value : ℕ) :
    hexNumberFrom? value digits = some (Nat.ofDigits 16 (values.reverse ++ [value])) := by
  induction digits generalizing values value with
  | nil =>
    obtain rfl : values = [] := by simpa using h.symm
    simp [hexNumberFrom?]
  | cons d digits ih =>
    cases values with
    | nil => simp at h
    | cons v values =>
      obtain ⟨digit, later⟩ := List.cons.inj h
      have joined : Nat.ofDigits 16 [16 * value + v] = Nat.ofDigits 16 [v, value] := by
        simp [Nat.ofDigits_cons]
        ring
      rw [hexNumberFrom?, digit, Option.bind_some, ih later, List.reverse_cons, List.append_assoc,
        Nat.ofDigits_append, joined, ← Nat.ofDigits_append]
      rfl

/-- Digits that write a number are read as it. -/
theorem hexNumberFrom?_of_writesNumber (h : WritesNumber digits n) :
    hexNumberFrom? 0 digits = some n := by
  obtain ⟨values, digit, rfl⟩ := h
  rw [hexNumberFrom?_eq digit, Nat.ofDigits_append]
  simp

/-- A number that is written with some digits is read. -/
theorem hexNumber?_eq (h : WritesNumber digits n) (notEmpty : digits ≠ []) :
    hexNumber? digits = some n := by
  rw [← hexNumberFrom?_of_writesNumber h]
  obtain ⟨values, digit, -⟩ := h
  cases digits with
  | nil => exact absurd rfl notEmpty
  | cons d digits =>
    cases values with
    | nil => simp at digit
    | cons v values =>
      -- a plus sign is no digit
      have notSign : d ≠ '+' := by
        rintro rfl
        have noDigit : hexValue? '+' = none := by decide
        simp [noDigit] at digit
      unfold hexNumber?
      split
      · rename_i same
        exact absurd (List.cons.inj same).1 notSign
      · rename_i same
        rw [same]
      · contradiction

/-- The code of a character gives the character. -/
theorem charOfCode?_toNat (c : Char) : charOfCode? c.toNat = some c := by
  have valid : c.toNat < 0xD800 ∨ (0xDFFF < c.toNat ∧ c.toNat < 0x110000) := c.valid
  rw [charOfCode?, if_pos valid, Char.ofNat_toNat]

/-- An escape is read as the character whose code its digits give. -/
theorem unicodeEscape_of_hexNumber? (length : digits.length = count)
    (number : hexNumber? digits = some c.toNat) :
    unicodeEscape line count (digits ++ rest) = .ok (c, rest) := by
  have taken : (digits ++ rest).take count = digits := by
    rw [← length, List.take_left']
    rfl
  have dropped : (digits ++ rest).drop count = rest := by
    rw [← length, List.drop_left']
    rfl
  simp only [unicodeEscape, taken, dropped, length, if_true, number, Option.bind_some,
    charOfCode?_toNat]

/-- An escape with the digits of a character's code is read as the character. -/
theorem unicodeEscape_eq (length : digits.length = count) (positive : 0 < count)
    (code : WritesNumber digits c.toNat) :
    unicodeEscape line count (digits ++ rest) = .ok (c, rest) := by
  apply unicodeEscape_of_hexNumber? length
  apply hexNumber?_eq code
  rintro rfl
  simp at length
  omega

end Digits

section Parts

variable {c sign : Char} {text spelling written rest : List Char} {start line : ℕ}

/-- The escapes of one character are read as the characters that they stand for. -/
theorem escape_of_short (listed : (sign, c) ∈ shortEscapes) :
    escape line (sign :: rest) = .ok (c, rest) := by
  simp only [shortEscapes, List.mem_cons, Prod.mk.injEq, List.not_mem_nil, or_false] at listed
  obtain ⟨rfl, rfl⟩ | ⟨rfl, rfl⟩ | ⟨rfl, rfl⟩ | ⟨rfl, rfl⟩ | ⟨rfl, rfl⟩ := listed
  all_goals rfl

/-- A backslash in a string starts an escape sequence. -/
theorem part_backslash (s : List Char) :
    part start line ('\\' :: s) = (escape line s).map fun (d, after) => (.chars [d], after) := rfl

/-- A doubled sign before a brace stands for the sign and the brace. -/
theorem part_template (isSign : sign = '$' ∨ sign = '%') :
    part start line (sign :: sign :: '{' :: rest) = .ok (.chars [sign, '{'], rest) := by
  obtain rfl | rfl := isSign <;> simp [part, isTemplateSign]

/-- A character that needs no escape and opens no template stands for itself. -/
theorem part_itself (notQuote : c ≠ '"') (notBackslash : c ≠ '\\') (notNewline : c ≠ '\n')
    (noBrace : c = '$' ∨ c = '%' → rest.head? ≠ some '{')
    (noDouble : c = '$' ∨ c = '%' → ¬ [c, '{'] <+: rest) :
    part start line (c :: rest) = .ok (.chars [c], rest) := by
  rw [part, if_neg notNewline, if_neg notQuote, if_neg notBackslash]
  by_cases isSign : c = '$' ∨ c = '%'
  · have single : [c, '{'].isPrefixOf rest = false := by
      rw [Bool.eq_false_iff]
      exact fun double => noDouble isSign (List.isPrefixOf_iff_prefix.mp double)
    simp [single, noBrace isSign]
  · have plain : isTemplateSign c = false := by simpa [isTemplateSign] using isSign
    simp [plain]

/-- What is written starts with a brace only if the text does. -/
theorem IsWritten.head?_eq (h : IsWritten text written) (brace : written.head? = some '{') :
    text.head? = some '{' := by
  cases h with
  | nil => simp at brace
  | template isSign later =>
    obtain rfl | rfl := isSign <;> simp at brace
  | char noTemplate first later =>
    cases first with
    | itself => simpa using brace
    | short | unicode | longUnicode => simp at brace

/-- After the first sign of what is written stands no brace, so that no template opens. -/
theorem IsWritten.head?_tail_ne (h : IsWritten text (sign :: written))
    (isSign : sign = '$' ∨ sign = '%') : written.head? ≠ some '{' := by
  generalize whole : sign :: written = w at h
  cases h with
  | nil => simp at whole
  | template isSign' later =>
    obtain ⟨rfl, rfl⟩ := List.cons.inj whole
    obtain rfl | rfl := isSign <;> simp
  | char noTemplate first later =>
    cases first with
    | itself =>
      obtain ⟨rfl, rfl⟩ := List.cons.inj whole
      exact fun brace => noTemplate ⟨isSign, later.head?_eq brace⟩
    | short | unicode | longUnicode =>
      have notSign : sign = '\\' := (List.cons.inj whole).1
      obtain rfl | rfl := isSign <;> contradiction

/-- Reading takes a character from any spelling of it that opens no template. -/
theorem part_of_spelling (h : IsSpelling c spelling)
    (noBrace : c = '$' ∨ c = '%' → rest.head? ≠ some '{')
    (noDouble : c = '$' ∨ c = '%' → ¬ [c, '{'] <+: rest) :
    part start line (spelling ++ rest) = .ok (.chars [c], rest) := by
  cases h with
  | itself notQuote notBackslash notNewline =>
    exact part_itself notQuote notBackslash notNewline noBrace noDouble
  | short listed =>
    rw [List.cons_append, part_backslash, List.cons_append, escape_of_short listed]
    rfl
  | unicode four code =>
    have read : escape line ('u' :: (_ ++ rest)) = .ok (c, rest) :=
      unicodeEscape_eq four (by decide) code
    rw [List.cons_append, part_backslash, List.cons_append, read]
    rfl
  | longUnicode eight code =>
    have read : escape line ('U' :: (_ ++ rest)) = .ok (c, rest) :=
      unicodeEscape_eq eight (by decide) code
    rw [List.cons_append, part_backslash, List.cons_append, read]
    rfl

/-- Between what is written and its closing quote no template opens. -/
theorem IsWritten.not_double_prefix (h : IsWritten text written)
    (isSign : sign = '$' ∨ sign = '%') : ¬ [sign, '{'] <+: written ++ '"' :: rest := by
  rintro ⟨after, whole⟩
  cases written with
  | nil =>
    have quote : sign = '"' := (List.cons.inj whole).1
    obtain rfl | rfl := isSign <;> contradiction
  | cons first written =>
    obtain ⟨rfl, later⟩ := List.cons.inj whole
    cases written with
    | nil => simp at later
    | cons second written =>
      obtain ⟨rfl, -⟩ := List.cons.inj later
      exact h.head?_tail_ne isSign rfl

/-- A text that does not start with a brace is not written with one first. -/
theorem IsWritten.head?_append_ne (h : IsWritten text written) (noBrace : text.head? ≠ some '{') :
    (written ++ '"' :: rest).head? ≠ some '{' := by
  cases written with
  | nil => simp
  | cons first written => exact fun brace => noBrace (h.head?_eq brace)

end Parts

section Literals

variable {text written rest : List Char} {start line : ℕ}

/-- A quote ends a literal. -/
theorem literal_of_close {s : List Char} (h : part start line s = .ok (.close, rest)) :
    literal start line s = .ok (⟨[], false⟩, ⟨line, rest⟩) := by
  rw [literal_eq, h]

/-- The characters of a part come before those of the rest of the literal. -/
theorem literal_of_chars {s : List Char} (h : part start line s = .ok (.chars text, rest)) :
    literal start line s =
      (literal start line rest).map fun (l, c) => ({ l with text := text ++ l.text }, c) := by
  rw [literal_eq, h]

/-- A text that is written down in any way is read back up to the closing quote. -/
theorem literal_of_isWritten (h : IsWritten text written) :
    literal start line (written ++ '"' :: rest) = .ok (⟨text, false⟩, ⟨line, rest⟩) := by
  -- by the way the text is written; what is left to see at a sign is that no brace can follow it
  induction h with
  | nil => exact literal_of_close rfl
  | template isSign later ih =>
    rw [List.cons_append, List.cons_append, List.cons_append,
      literal_of_chars (part_template isSign), ih]
    rfl
  | @char c text spelling written noTemplate first later ih =>
    have noBrace (isSign : c = '$' ∨ c = '%') : (written ++ '"' :: rest).head? ≠ some '{' :=
      later.head?_append_ne fun brace => noTemplate ⟨isSign, brace⟩
    have noDouble (isSign : c = '$' ∨ c = '%') : ¬ [c, '{'] <+: written ++ '"' :: rest :=
      later.not_double_prefix isSign
    rw [List.append_assoc, literal_of_chars (part_of_spelling first noBrace noDouble), ih]
    rfl

end Literals

end TerraDeps.Native
