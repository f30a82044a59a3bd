import Mathlib.Data.List.Basic
import TerraDeps.Json.Reader
import TerraDeps.Proofs.Native.Quoted

/-!
# Texts of JSON values

The grammar says which texts write a value: blanks may stand around every element and every key, and
each character of a string may be written as itself, by a short escape, or by its code, a character
beyond the first 65536 by two surrogates. Numbers are left out, since the values that are read here
hold none.

The reader goes through a text once, with a stack of what is open. For each part of the grammar
`Part.IsRead` says where the reader gets from the start of the part to its end; every text of a part
is read so (`Writes.isRead`), as long as no more arrays and objects are open than the reader allows.
-/

set_option autoImplicit false

namespace TerraDeps.Json

open Text
open Native (WritesNumber)

/-! ## The grammar -/

/-- The escapes of one character, with the character that each stands for. -/
def shortEscapes : List (Char × Char) :=
  [('"', '"'), ('\\', '\\'), ('/', '/'), ('b', '\x08'), ('f', '\x0c'), ('n', '\n'), ('r', '\r'),
    ('t', '\t')]

/-- The ways in which a character is written in a string. -/
inductive IsSpelling (c : Char) : List Char → Prop
  | itself (notQuote : c ≠ '"') (notBackslash : c ≠ '\\') (notControl : 0x20 ≤ c.toNat) :
      IsSpelling c [c]
  | short {sign : Char} (listed : (sign, c) ∈ shortEscapes) : IsSpelling c ['\\', sign]
  | unicode {digits : List Char} (four : digits.length = 4) (code : WritesNumber digits c.toNat) :
      IsSpelling c ('\\' :: 'u' :: digits)
  | surrogates {digits digits' : List Char} {high low : ℕ} (four : digits.length = 4)
      (code : WritesNumber digits high) (isHigh : 0xD800 ≤ high ∧ high ≤ 0xDBFF)
      (four' : digits'.length = 4) (code' : WritesNumber digits' low)
      (isLow : 0xDC00 ≤ low ∧ low ≤ 0xDFFF)
      (pair : c.toNat = (high - 0xD800) * 0x400 + (low - 0xDC00) + 0x10000) :
      IsSpelling c ('\\' :: 'u' :: digits ++ '\\' :: 'u' :: digits')

/-- The ways in which a text is written between the quotes of a string. -/
inductive IsWritten : List Char → List Char → Prop
  | nil : IsWritten [] []
  | char {c : Char} {text spelling written : List Char} (first : IsSpelling c spelling)
      (later : IsWritten text written) : IsWritten (c :: text) (spelling ++ written)

/-- Blanks, as many as one likes. -/
def IsGap (s : List Char) : Prop :=
  ∀ c ∈ s, c ∈ [' ', '\t', '\n', '\r']

/-- What a stretch of a text can stand for. -/
inductive Part where
  | value (v : Json)
  /-- A value with the blanks around it. -/
  | element (v : Json)
  /-- The elements of an array, one at least. -/
  | elements (vs : List Json)
  /-- A key with its value, and the blanks around both. -/
  | member (key : String) (v : Json)
  /-- The members of an object, one at least. -/
  | members (ms : List (String × Json))

/-- The ways in which a part is written. -/
inductive Writes : Part → List Char → Prop
  | null : Writes (.value .null) "null".toList
  | boolTrue : Writes (.value (.bool true)) "true".toList
  | boolFalse : Writes (.value (.bool false)) "false".toList
  | string {s : String} {w : List Char} (text : IsWritten s.toList w) :
      Writes (.value (.string s)) ('"' :: w ++ ['"'])
  | emptyArray {gap : List Char} (blank : IsGap gap) :
      Writes (.value (.array [])) ('[' :: gap ++ [']'])
  | array {vs : List Json} {w : List Char} (inside : Writes (.elements vs) w) :
      Writes (.value (.array vs)) ('[' :: w ++ [']'])
  | emptyObject {gap : List Char} (blank : IsGap gap) :
      Writes (.value (.object [])) ('{' :: gap ++ ['}'])
  | object {ms : List (String × Json)} {w : List Char} (distinct : (ms.map Prod.fst).Nodup)
      (inside : Writes (.members ms) w) : Writes (.value (.object ms)) ('{' :: w ++ ['}'])
  | element {v : Json} {w gap gap' : List Char} (blank : IsGap gap) (inside : Writes (.value v) w)
      (blank' : IsGap gap') : Writes (.element v) (gap ++ w ++ gap')
  | lastElement {v : Json} {w : List Char} (inside : Writes (.element v) w) :
      Writes (.elements [v]) w
  | moreElements {v : Json} {vs : List Json} {w w' : List Char} (first : Writes (.element v) w)
      (later : Writes (.elements vs) w') : Writes (.elements (v :: vs)) (w ++ ',' :: w')
  | member {key : String} {v : Json} {w w' gap gap' : List Char} (blank : IsGap gap)
      (text : IsWritten key.toList w) (blank' : IsGap gap') (inside : Writes (.element v) w') :
      Writes (.member key v) (gap ++ '"' :: w ++ '"' :: gap' ++ ':' :: w')
  | lastMember {key : String} {v : Json} {w : List Char} (inside : Writes (.member key v) w) :
      Writes (.members [(key, v)]) w
  | moreMembers {key : String} {v : Json} {ms : List (String × Json)} {w w' : List Char}
      (first : Writes (.member key v) w) (later : Writes (.members ms) w') :
      Writes (.members ((key, v) :: ms)) (w ++ ',' :: w')

/-- The text is one of the value. -/
def IsText (v : Json) (text : String) : Prop :=
  Writes (.element v) text.toList

/-! ## Every character, string, array and object can be written -/

/-- A number below 65536 is written with four hexadecimal digits. -/
theorem exists_writesNumber {n : ℕ} (h : n < 65536) :
    ∃ digits, digits.length = 4 ∧ WritesNumber digits n := by
  refine ⟨[hexDigit (n / 4096), hexDigit (n / 256 % 16), hexDigit (n / 16 % 16), hexDigit (n % 16)],
    rfl, [n / 4096, n / 256 % 16, n / 16 % 16, n % 16], ?_, ?_⟩
  · simp only [List.map_cons, List.map_nil]
    rw [hexValue?_hexDigit _ (by omega), hexValue?_hexDigit _ (by omega),
      hexValue?_hexDigit _ (by omega), hexValue?_hexDigit _ (by omega)]
  · simp only [List.reverse_cons, List.reverse_nil, List.nil_append, List.cons_append,
      Nat.ofDigits_cons, Nat.ofDigits_nil]
    omega

/-- Every character can be written in a string. -/
theorem exists_isSpelling (c : Char) : ∃ spelling, IsSpelling c spelling := by
  by_cases escaped : c = '"' ∨ c = '\\'
  · obtain rfl | rfl := escaped
    · exact ⟨['\\', '"'], .short (by decide)⟩
    · exact ⟨['\\', '\\'], .short (by decide)⟩
  · push Not at escaped
    by_cases control : 0x20 ≤ c.toNat
    · exact ⟨_, .itself escaped.1 escaped.2 control⟩
    · obtain ⟨digits, four, code⟩ := exists_writesNumber (n := c.toNat) (by omega)
      exact ⟨_, .unicode four code⟩

/-- Every text can be written between quotes. -/
theorem exists_isWritten (text : List Char) : ∃ written, IsWritten text written := by
  induction text with
  | nil => exact ⟨[], .nil⟩
  | cons c text ih =>
    obtain ⟨spelling, first⟩ := exists_isSpelling c
    obtain ⟨written, later⟩ := ih
    exact ⟨spelling ++ written, .char first later⟩

/-- Characters that need no escape are written as they are. -/
theorem isWritten_self {text : List Char}
    (plain : (text.all fun c => c != '"' && c != '\\' && 0x20 ≤ c.toNat) = true) :
    IsWritten text text := by
  induction text with
  | nil => exact .nil
  | cons c text ih =>
    obtain ⟨first, later⟩ := Bool.and_eq_true_iff.mp plain
    simp only [Bool.and_eq_true, bne_iff_ne, decide_eq_true_eq] at first
    exact .char (.itself first.1.1 first.1.2 first.2) (ih later)

/-- Every string can be written. -/
theorem exists_writes_string (s : String) : ∃ w, Writes (.value (.string s)) w := by
  obtain ⟨w, text⟩ := exists_isWritten s.toList
  exact ⟨_, .string text⟩

/-- Nothing is a gap. -/
theorem isGap_nil : IsGap [] := by
  simp [IsGap]

/-- A value that can be written can be written as an element. -/
theorem exists_writes_element {v : Json} (h : ∃ w, Writes (.value v) w) :
    ∃ w, Writes (.element v) w := by
  obtain ⟨w, inside⟩ := h
  exact ⟨_, .element isGap_nil inside isGap_nil⟩

/-- An array whose elements can be written can be written. -/
theorem exists_writes_array {vs : List Json} (h : ∀ v ∈ vs, ∃ w, Writes (.value v) w) :
    ∃ w, Writes (.value (.array vs)) w := by
  have inside (notEmpty : vs ≠ []) : ∃ w, Writes (.elements vs) w := by
    induction vs with
    | nil => contradiction
    | cons v vs ih =>
      obtain ⟨first, later⟩ := List.forall_mem_cons.mp h
      obtain ⟨w, first⟩ := exists_writes_element first
      cases vs with
      | nil => exact ⟨w, .lastElement first⟩
      | cons v' vs =>
        obtain ⟨w', later⟩ := ih later (List.cons_ne_nil v' vs)
        exact ⟨_, .moreElements first later⟩
  by_cases empty : vs = []
  · rw [empty]
    exact ⟨_, .emptyArray isGap_nil⟩
  · obtain ⟨w, inside⟩ := inside empty
    exact ⟨_, .array inside⟩

/-- An object without repeated keys whose values can be written can be written. -/
theorem exists_writes_object {ms : List (String × Json)} (distinct : (ms.map Prod.fst).Nodup)
    (h : ∀ m ∈ ms, ∃ w, Writes (.value m.2) w) : ∃ w, Writes (.value (.object ms)) w := by
  have member (m : String × Json) (hm : ∃ w, Writes (.value m.2) w) :
      ∃ w, Writes (.member m.1 m.2) w := by
    obtain ⟨w, text⟩ := exists_isWritten m.1.toList
    obtain ⟨w', inside⟩ := exists_writes_element hm
    exact ⟨_, .member isGap_nil text isGap_nil inside⟩
  have inside (notEmpty : ms ≠ []) : ∃ w, Writes (.members ms) w := by
    clear distinct
    induction ms with
    | nil => contradiction
    | cons m ms ih =>
      obtain ⟨first, later⟩ := List.forall_mem_cons.mp h
      obtain ⟨w, first⟩ := member m first
      cases ms with
      | nil => exact ⟨w, .lastMember first⟩
      | cons m' ms =>
        obtain ⟨w', later⟩ := ih later (List.cons_ne_nil m' ms)
        exact ⟨_, .moreMembers first later⟩
  by_cases empty : ms = []
  · rw [empty]
    exact ⟨_, .emptyObject isGap_nil⟩
  · obtain ⟨w, inside⟩ := inside empty
    exact ⟨_, .object distinct inside⟩

/-! ## Reading strings -/

section Strings

variable {digits text spelling written rest after : List Char} {line n : ℕ} {c d sign : Char}

/-- Four hexadecimal digits are read as the number that they write. -/
theorem hex4_eq (four : digits.length = 4) (code : WritesNumber digits n) :
    hex4 line (digits ++ rest) = .ok (n, rest) := by
  obtain ⟨values, digit, rfl⟩ := code
  have count : values.length = 4 := by
    have same := congrArg List.length digit
    simpa [four] using same.symm
  obtain ⟨p, q, r, s, rfl⟩ := List.length_eq_four.mp four
  obtain ⟨a, b, c, d, rfl⟩ := List.length_eq_four.mp count
  simp only [List.map_cons, List.map_nil, List.cons.injEq, and_true] at digit
  obtain ⟨ha, hb, hc, hd⟩ := digit
  have number : Nat.ofDigits 16 [a, b, c, d].reverse = 4096 * a + 256 * b + 16 * c + d := by
    simp only [List.reverse_cons, List.reverse_nil, List.nil_append, List.cons_append,
      Nat.ofDigits_cons, Nat.ofDigits_nil]
    omega
  rw [number]
  simp [hex4, ha, hb, hc, hd]

/-- The escapes of one character are read as the characters that they stand for. -/
theorem escapeSequence_of_short (listed : (sign, c) ∈ shortEscapes) :
    escapeSequence line (sign :: rest) = .ok (c, rest) := by
  simp only [shortEscapes, List.mem_cons, Prod.mk.injEq, List.not_mem_nil, or_false] at listed
  obtain ⟨rfl, rfl⟩ | ⟨rfl, rfl⟩ | ⟨rfl, rfl⟩ | ⟨rfl, rfl⟩ | ⟨rfl, rfl⟩ | ⟨rfl, rfl⟩ | ⟨rfl, rfl⟩ |
    ⟨rfl, rfl⟩ := listed
  all_goals rfl

/-- An escape by a number starts with the letter `u`. -/
theorem escapeSequence_u (s : List Char) :
    escapeSequence line ('u' :: s) = unicodeEscape line s := rfl

/-- The number of a character is read as the character. -/
theorem unicodeEscape_of_code (four : digits.length = 4) (code : WritesNumber digits c.toNat) :
    unicodeEscape line (digits ++ rest) = .ok (c, rest) := by
  have valid : c.toNat < 0xD800 ∨ (0xDFFF < c.toNat ∧ c.toNat < 0x110000) := c.valid
  simp only [unicodeEscape, hex4_eq four code]
  rw [if_neg (by omega), if_neg (by omega), Char.ofNat_toNat]

/-- The two numbers of a surrogate pair are read as the character that the pair stands for. -/
theorem unicodeEscape_of_surrogates {digits' : List Char} {high low : ℕ}
    (four : digits.length = 4) (code : WritesNumber digits high)
    (isHigh : 0xD800 ≤ high ∧ high ≤ 0xDBFF) (four' : digits'.length = 4)
    (code' : WritesNumber digits' low) (isLow : 0xDC00 ≤ low ∧ low ≤ 0xDFFF)
    (pair : c.toNat = (high - 0xD800) * 0x400 + (low - 0xDC00) + 0x10000) :
    unicodeEscape line (digits ++ '\\' :: 'u' :: (digits' ++ rest)) = .ok (c, rest) := by
  simp only [unicodeEscape, hex4_eq four code]
  rw [if_neg (by omega), if_pos isHigh]
  simp only [lowSurrogate, if_true, hex4_eq four' code', if_pos isLow, ← pair, Char.ofNat_toNat]

/-- A quote ends a string. -/
theorem stringRest_quote : stringRest line ('"' :: rest) = .ok ([], rest) := by
  rw [stringRest, if_pos rfl]

/-- A character that needs no escape stands for itself. -/
theorem stringRest_itself (notQuote : c ≠ '"') (notBackslash : c ≠ '\\')
    (notControl : 0x20 ≤ c.toNat) : stringRest line (c :: rest) =
      (stringRest line rest).map fun (text, left) => (c :: text, left) := by
  rw [stringRest, if_neg notQuote, if_neg notBackslash, if_neg (by omega)]

/-- A backslash starts an escape sequence. -/
theorem stringRest_escape (h : escapeSequence line rest = .ok (d, after)) :
    stringRest line ('\\' :: rest) =
      (stringRest line after).map fun (text, left) => (d :: text, left) := by
  rw [stringRest, if_neg (by decide), if_pos rfl]
  split
  · rename_i found
    rw [h] at found
    contradiction
  · rename_i found
    obtain ⟨rfl, rfl⟩ := Prod.mk.inj (Except.ok.inj (h.symm.trans found))
    rfl

/-- A character is read back from each of its spellings. -/
theorem stringRest_of_isSpelling (h : IsSpelling c spelling) : stringRest line (spelling ++ rest) =
    (stringRest line rest).map fun (text, left) => (c :: text, left) := by
  cases h with
  | itself notQuote notBackslash notControl =>
    exact stringRest_itself notQuote notBackslash notControl
  | short listed => exact stringRest_escape (escapeSequence_of_short listed)
  | unicode four code => exact stringRest_escape (unicodeEscape_of_code four code)
  | surrogates four code isHigh four' code' isLow pair =>
    rw [List.cons_append, List.cons_append, List.append_assoc, List.cons_append, List.cons_append,
      List.cons_append]
    refine stringRest_escape ?_
    rw [escapeSequence_u]
    exact unicodeEscape_of_surrogates four code isHigh four' code' isLow pair

/-- A string is read back up to its closing quote, in whatever way it is written. -/
theorem stringRest_of_isWritten (h : IsWritten text written) :
    stringRest line (written ++ '"' :: rest) = .ok (text, rest) := by
  induction h with
  | nil => exact stringRest_quote
  | char first _ ih =>
    rw [List.append_assoc, stringRest_of_isSpelling first, ih]
    rfl

end Strings

/-! ## Reading values -/

mutual

/-- How many arrays and objects are open at a time in a value. -/
def depth : Json → ℕ
  | .array vs => depthOfElements vs + 1
  | .object ms => depthOfMembers ms + 1
  | _ => 0

/-- The greatest depth of the elements. -/
def depthOfElements : List Json → ℕ
  | [] => 0
  | v :: vs => max (depth v) (depthOfElements vs)

/-- The greatest depth of the members. -/
def depthOfMembers : List (String × Json) → ℕ
  | [] => 0
  | (_, v) :: ms => max (depth v) (depthOfMembers ms)

end

/-- Reading the text leads from one state of the reader to another, on whatever line it stands and
whatever comes behind it. -/
def Reads (expect : Expect) (opened : List Frame) (s : List Char) (expect' : Expect)
    (opened' : List Frame) : Prop :=
  ∀ line rest, ∃ line', read expect opened line (s ++ rest) = read expect' opened' line' rest

section Steps

variable {expect expect' expect'' : Expect} {opened opened' opened'' outer : List Frame}
  {s s' w : List Char} {first : Bool} {v : Json} {done : List Json}
  {members : List (String × Json)} {key text : String}

/-- Nothing is read without a change of state. -/
theorem Reads.nil : Reads expect opened [] expect opened :=
  fun line _ => ⟨line, rfl⟩

/-- Two texts are read one after the other. -/
theorem Reads.append (h : Reads expect opened s expect' opened')
    (h' : Reads expect' opened' s' expect'' opened'') :
    Reads expect opened (s ++ s') expect'' opened'' := by
  intro line rest
  obtain ⟨line', read⟩ := h line (s' ++ rest)
  obtain ⟨line'', read'⟩ := h' line' rest
  exact ⟨line'', by rw [List.append_assoc, read, read']⟩

/-- A gap is read without a change of state. -/
theorem reads_gap (blank : IsGap s) : Reads expect opened s expect opened := by
  induction s with
  | nil => exact Reads.nil
  | cons c s ih =>
    obtain ⟨listed, later⟩ := List.forall_mem_cons.mp blank
    have isBlank : isSpace c = true := by
      simp only [List.mem_cons, List.not_mem_nil, or_false] at listed
      obtain rfl | rfl | rfl | rfl := listed <;> rfl
    intro line rest
    obtain ⟨line', skipped⟩ := ih later (lineAfter line c) rest
    refine ⟨line', ?_⟩
    rw [List.cons_append, read_blank isBlank, skipped]

/-- A scalar is read where a value is expected. -/
theorem reads_scalar {c : Char} (notBlank : isSpace c = false) (noClose : c ≠ ']')
    (h : ∀ line rest, start line c (w ++ rest) = .ok (.scalar v, rest)) :
    Reads (.value first) opened (c :: w) (.after v) opened := fun line rest =>
  ⟨line, by rw [List.cons_append, read_value_of_start notBlank noClose (h line rest)]⟩

/-- An opening bracket starts an array, if there is room for one more level. -/
theorem reads_openArray (room : opened.length < maxDepth) :
    Reads (.value first) opened ['['] (.value true) (.array [] :: opened) := by
  intro line rest
  refine ⟨line, ?_⟩
  rw [List.singleton_append, read_value_of_start (by decide) (by decide) rfl]
  exact if_neg (Nat.not_le_of_lt room)

/-- An opening brace starts an object, if there is room for one more level. -/
theorem reads_openObject (room : opened.length < maxDepth) :
    Reads (.value first) opened ['{'] (.key true []) opened := by
  intro line rest
  refine ⟨line, ?_⟩
  rw [List.singleton_append, read_value_of_start (by decide) (by decide) rfl]
  exact if_neg (Nat.not_le_of_lt room)

/-- A closing bracket right after the opening one gives an array without elements. -/
theorem reads_closeEmptyArray :
    Reads (.value true) (.array done :: outer) [']'] (.after (.array [])) outer := fun line rest =>
  ⟨line, by rw [List.singleton_append, read, if_neg (by decide)]⟩

/-- A closing brace where the first key may stand gives an object without members. -/
theorem reads_closeEmptyObject :
    Reads (.key true members) opened ['}'] (.after (.object members)) opened := fun line rest =>
  ⟨line, by rw [List.singleton_append, read, if_neg (by decide), if_neg (by decide),
    if_pos (by decide)]⟩

/-- A written string is read where a key is expected. -/
theorem reads_key (h : IsWritten key.toList w) :
    Reads (.key first members) opened ('"' :: w ++ ['"']) (.colon members key) opened := by
  intro line rest
  refine ⟨line, ?_⟩
  rw [List.append_assoc, List.cons_append, List.singleton_append, read, if_neg (by decide),
    if_pos rfl]
  have text : stringRest line (w ++ '"' :: rest) = .ok (key.toList, rest) :=
    stringRest_of_isWritten h
  split <;> rename_i found <;> rw [text] at found
  · contradiction
  · obtain ⟨rfl, rfl⟩ := Prod.mk.inj (Except.ok.inj found)
    rw [String.ofList_toList]

/-- A colon after a key leads to its value. -/
theorem reads_colon :
    Reads (.colon members key) opened [':'] (.value false) (.member members key :: opened) :=
  fun line rest => ⟨line, by rw [List.singleton_append, read, if_neg (by decide), if_pos rfl]⟩

/-- A comma after an element leads to the next one. -/
theorem reads_nextElement :
    Reads (.after v) (.array done :: outer) [','] (.value false) (.array (v :: done) :: outer) :=
  fun line rest => ⟨line, by rw [List.singleton_append, read, if_neg (by decide), if_pos rfl]⟩

/-- A closing bracket after an element gives the array. -/
theorem reads_closeArray :
    Reads (.after v) (.array done :: outer) [']'] (.after (.array (v :: done).reverse)) outer :=
  fun line rest => ⟨line, by
    rw [List.singleton_append, read, if_neg (by decide), if_neg (by decide), if_pos rfl]⟩

/-- A comma after a member leads to the next key. -/
theorem reads_nextMember :
    Reads (.after v) (.member members key :: outer) [','] (.key false (putMember key v members))
      outer :=
  fun line rest => ⟨line, by rw [List.singleton_append, read, if_neg (by decide), if_pos rfl]⟩

/-- A closing brace after a member gives the object. -/
theorem reads_closeObject :
    Reads (.after v) (.member members key :: outer) ['}']
      (.after (.object (putMember key v members))) outer :=
  fun line rest => ⟨line, by
    rw [List.singleton_append, read, if_neg (by decide), if_neg (by decide), if_pos rfl]⟩

end Steps

/-- A new key is put at the end. -/
theorem putMember_of_not_mem {key : String} {v : Json} {ms : List (String × Json)}
    (h : key ∉ ms.map Prod.fst) : putMember key v ms = ms ++ [(key, v)] := by
  induction ms with
  | nil => rfl
  | cons m ms ih =>
    obtain ⟨other, later⟩ := not_or.mp (mt List.mem_cons.mpr h)
    rw [putMember, if_neg (Ne.symm other), ih later, List.cons_append]

/-- If no key comes twice, the next key is put behind those that are there. -/
theorem putMember_of_nodup {key : String} {v : Json} {done ms : List (String × Json)}
    (distinct : ((done ++ (key, v) :: ms).map Prod.fst).Nodup) :
    putMember key v done = done ++ [(key, v)] := by
  rw [List.map_append, List.map_cons] at distinct
  have apart := (List.nodup_append.mp distinct).2.2
  exact putMember_of_not_mem fun known => apart key known key List.mem_cons_self rfl

/-- Where the reader gets by a text of the part, if there is room for the depth of the part. -/
def Part.IsRead (w : List Char) : Part → Prop
  | value v | element v => ∀ first opened, opened.length + v.depth ≤ maxDepth →
      Reads (.value first) opened w (.after v) opened
  | elements vs => ∀ first done outer, outer.length + 1 + depthOfElements vs ≤ maxDepth →
      Reads (.value first) (.array done :: outer) (w ++ [']'])
        (.after (.array (done.reverse ++ vs))) outer
  | member key v => ∀ first done opened, opened.length + 1 + v.depth ≤ maxDepth →
      Reads (.key first done) opened w (.after v) (.member done key :: opened)
  | members ms => ∀ first done opened, opened.length + 1 + depthOfMembers ms ≤ maxDepth →
      ((done ++ ms).map Prod.fst).Nodup →
      Reads (.key first done) opened (w ++ ['}']) (.after (.object (done ++ ms))) opened

/-- Every text of a part is read. -/
theorem Writes.isRead {part : Part} {w : List Char} (h : Writes part w) : part.IsRead w := by
  -- Induction on how the part is written. `room` bounds the levels that the part adds to those that
  -- are open, and `distinct` keeps every member at the end of its object.
  induction h with
  | null | boolTrue | boolFalse =>
    exact fun first opened _ => reads_scalar (by decide) (by decide) fun _ _ => rfl
  | string text =>
    intro first opened _
    rw [List.cons_append]
    refine reads_scalar (by decide) (by decide) fun line rest => ?_
    rw [List.append_assoc, List.singleton_append]
    simp [start, stringRest_of_isWritten text, Except.map]
  | emptyArray blank =>
    intro first opened room
    simp only [depth, depthOfElements] at room
    exact ((reads_openArray (by omega)).append (reads_gap blank)).append reads_closeEmptyArray
  | array inside ih =>
    intro first opened room
    simp only [depth] at room
    exact (reads_openArray (by omega)).append (ih true [] opened (by omega))
  | emptyObject blank =>
    intro first opened room
    simp only [depth, depthOfMembers] at room
    exact ((reads_openObject (by omega)).append (reads_gap blank)).append reads_closeEmptyObject
  | object distinct inside ih =>
    intro first opened room
    simp only [depth] at room
    exact (reads_openObject (by omega)).append (ih true [] opened (by omega) distinct)
  | element blank inside blank' ih =>
    intro first opened room
    exact ((reads_gap blank).append (ih first opened room)).append (reads_gap blank')
  | @lastElement v w inside ih =>
    intro first done outer room
    simp only [depthOfElements, Nat.max_zero] at room
    have read := ih first (.array done :: outer) (by simp only [List.length_cons]; omega)
    simpa using read.append reads_closeArray
  | @moreElements v vs w w' first later ihFirst ihLater =>
    intro isFirst done outer room
    simp only [depthOfElements] at room
    have read := ihFirst isFirst (.array done :: outer) (by simp only [List.length_cons]; omega)
    have readLater := ihLater false (v :: done) outer (by omega)
    simpa using (read.append reads_nextElement).append readLater
  | @member key v w w' gap gap' blank text blank' inside ih =>
    intro first done opened room
    have readKey : Reads (.key first done) opened (gap ++ ('"' :: w ++ ['"'])) (.colon done key)
        opened := (reads_gap blank).append (reads_key text)
    have readColon : Reads (.colon done key) opened (gap' ++ [':']) (.value false)
        (.member done key :: opened) := (reads_gap blank').append reads_colon
    have readValue := ih false (.member done key :: opened) (by simp only [List.length_cons]; omega)
    simpa using (readKey.append readColon).append readValue
  | @lastMember key v w inside ih =>
    intro first done opened room distinct
    simp only [depthOfMembers, Nat.max_zero] at room
    have read := (ih first done opened room).append reads_closeObject
    rwa [putMember_of_nodup distinct] at read
  | @moreMembers key v ms w w' first later ihFirst ihLater =>
    intro isFirst done opened room distinct
    simp only [depthOfMembers] at room
    have read := (ihFirst isFirst done opened (by omega)).append reads_nextMember
    rw [putMember_of_nodup distinct] at read
    have readLater := ihLater false (done ++ [(key, v)]) opened (by omega) (by simpa using distinct)
    simpa using read.append readLater

/-- A text of a value that is not nested too deeply is read back. -/
theorem parse_of_isText {v : Json} {text : String} (h : IsText v text)
    (room : v.depth ≤ maxDepth) : parse text = .ok v := by
  have read := Writes.isRead h false [] (by simpa using room)
  obtain ⟨line, read⟩ := read 1 []
  rw [List.append_nil] at read
  rw [parse, read, Json.read]

end TerraDeps.Json
