import TerraDeps.Proofs.Native.Balance
import TerraDeps.Proofs.Native.Lines
import TerraDeps.Proofs.Native.Rendering

/-!
# Templates nested in strings

A quoted string may hold templates, a template strings, and these templates again. `Writes` says
what is well nested, for both at once. Reading follows it: the reader of strings and that of
templates, which hands over to the first at each quote, leave off where the nesting says
(`Writes.isRead`), so that a string is one token however many braces and quotes its templates hold.
-/

set_option autoImplicit false

namespace TerraDeps.Native

/-- The digits of an escape write a number, possibly after a plus sign. -/
def WritesCode (digits : List Char) (n : ℕ) : Prop :=
  WritesNumber digits n ∨ ∃ more, digits = '+' :: more ∧ WritesNumber more n

/-- The escapes of a character, after the backslash. -/
inductive IsEscape (c : Char) : List Char → Prop
  | short {sign : Char} (listed : (sign, c) ∈ shortEscapes) : IsEscape c [sign]
  | unicode {digits : List Char} (four : digits.length = 4) (code : WritesCode digits c.toNat) :
      IsEscape c ('u' :: digits)
  | longUnicode {digits : List Char} (eight : digits.length = 8)
      (code : WritesCode digits c.toNat) : IsEscape c ('U' :: digits)

/-- An item of a quoted string. -/
inductive Item where
  | plain (c : Char)
  /-- An escape of the character. -/
  | escape (c : Char)
  /-- The sign of a template, written twice before a brace. -/
  | doubled (sign : Char)
  /-- A template that opens with the sign. -/
  | template (sign : Char)
  deriving DecidableEq, Repr

/-- The text that an item stands for; a template stands for none. -/
def Item.text : Item → List Char
  | plain c => [c]
  | escape c => [c]
  | doubled sign => [sign, '{']
  | template _ => []

/-- Whether the item is a template. -/
def Item.isTemplate : Item → Bool
  | template _ => true
  | _ => false

/-- The token of a string on a line: the text of its items, and whether one is a template. -/
def stringToken (items : List Item) (line : ℕ) : Token :=
  ⟨.str (String.ofList (items.flatMap Item.text)) (items.any Item.isTemplate), line⟩

/-- What stands between two quotes, item by item, or between the braces of a template. -/
inductive Body where
  | string (items : List Item)
  | template

/-- The ways in which a body is written, with all that is nested in it. A sign that stands for
itself has no brace and no template of its own kind right after it. -/
inductive Writes : Body → List Char → Prop
  | empty : Writes (.string []) []
  | plain {c : Char} {items : List Item} {s : List Char} (notQuote : c ≠ '"')
      (notBackslash : c ≠ '\\') (notNewline : c ≠ '\n')
      (noBrace : c = '$' ∨ c = '%' → items.head? ≠ some (.plain '{'))
      (noTemplate : c = '$' ∨ c = '%' → items.head? ≠ some (.template c))
      (later : Writes (.string items) s) : Writes (.string (.plain c :: items)) (c :: s)
  | escape {c : Char} {spelling : List Char} {items : List Item} {s : List Char}
      (isEscape : IsEscape c spelling) (later : Writes (.string items) s) :
      Writes (.string (.escape c :: items)) ('\\' :: (spelling ++ s))
  | doubled {sign : Char} {items : List Item} {s : List Char} (isSign : sign = '$' ∨ sign = '%')
      (later : Writes (.string items) s) :
      Writes (.string (.doubled sign :: items)) (sign :: sign :: '{' :: s)
  | template {sign : Char} {items : List Item} {t s : List Char}
      (isSign : sign = '$' ∨ sign = '%') (inner : Writes .template t)
      (later : Writes (.string items) s) :
      Writes (.string (.template sign :: items)) (sign :: '{' :: (t ++ '}' :: s))
  | done : Writes .template []
  | char {c : Char} {t : List Char} (notOpen : c ≠ '{') (notClose : c ≠ '}') (notQuote : c ≠ '"')
      (later : Writes .template t) : Writes .template (c :: t)
  | group {t u : List Char} (inner : Writes .template t) (later : Writes .template u) :
      Writes .template ('{' :: (t ++ '}' :: u))
  | quoted {items : List Item} {s u : List Char} (inner : Writes (.string items) s)
      (later : Writes .template u) : Writes .template ('"' :: (s ++ '"' :: u))

section Escapes

variable {digits spelling rest : List Char} {c : Char} {line n : ℕ}

/-- A code with more than one digit is read as its number. -/
theorem hexNumber?_of_writesCode (h : WritesCode digits n) (long : 1 < digits.length) :
    hexNumber? digits = some n := by
  obtain number | ⟨more, rfl, number⟩ := h
  · apply hexNumber?_eq number
    rintro rfl
    contradiction
  · cases more with
    | nil => contradiction
    | cons d more => exact hexNumberFrom?_of_writesNumber number

/-- An escape sequence is read as the character that it stands for. -/
theorem IsEscape.escape_eq (h : IsEscape c spelling) :
    Native.escape line (spelling ++ rest) = .ok (c, rest) := by
  cases h with
  | short listed => exact escape_of_short listed
  | unicode four code =>
    exact unicodeEscape_of_hexNumber? four (hexNumber?_of_writesCode code (by omega))
  | longUnicode eight code =>
    exact unicodeEscape_of_hexNumber? eight (hexNumber?_of_writesCode code (by omega))

/-- An escape sequence has no line end. -/
theorem IsEscape.newline_not_mem (h : IsEscape c spelling) : '\n' ∉ spelling := by
  cases h with
  | short listed =>
    simp only [shortEscapes, List.mem_cons, Prod.mk.injEq, List.not_mem_nil, or_false] at listed
    rw [List.mem_singleton]
    rintro rfl
    simp at listed
  | unicode four code =>
    have number := hexNumber?_of_writesCode code (by omega)
    simp [not_mem_of_hexNumber? number (c := '\n') rfl (by decide)]
  | longUnicode eight code =>
    have number := hexNumber?_of_writesCode code (by omega)
    simp [not_mem_of_hexNumber? number (c := '\n') rfl (by decide)]

end Escapes

section Signs

variable {items : List Item} {s rest : List Char} {sign : Char}

/-- What is written starts with a brace only as its first item. -/
theorem Writes.head?_eq (h : Writes (.string items) s) (brace : s.head? = some '{') :
    items.head? = some (.plain '{') := by
  cases h with
  | empty => simp at brace
  | plain =>
    obtain rfl := Option.some.inj brace
    rfl
  | escape => simp at brace
  | doubled isSign | template isSign =>
    obtain rfl := Option.some.inj brace
    simp at isSign

/-- A sign and a brace are written only to open a template. -/
theorem Writes.head?_eq_template (h : Writes (.string items) (sign :: '{' :: s))
    (isSign : sign = '$' ∨ sign = '%') : items.head? = some (.template sign) := by
  generalize whole : sign :: '{' :: s = w at h
  cases h with
  | empty => simp at whole
  | plain notQuote notBackslash notNewline noBrace noTemplate later =>
    obtain ⟨rfl, rfl⟩ := List.cons.inj whole
    exact absurd (later.head?_eq rfl) (noBrace isSign)
  | escape =>
    obtain ⟨rfl, -⟩ := List.cons.inj whole
    simp at isSign
  | doubled =>
    obtain ⟨rfl, same⟩ := List.cons.inj whole
    obtain ⟨rfl, -⟩ := List.cons.inj same
    simp at isSign
  | template =>
    obtain ⟨rfl, -⟩ := List.cons.inj whole
    rfl

/-- Items that do not start with a plain brace are not written with a brace first. -/
theorem Writes.head?_append_ne (h : Writes (.string items) s)
    (noBrace : items.head? ≠ some (.plain '{')) : (s ++ '"' :: rest).head? ≠ some '{' := by
  cases s with
  | nil => simp
  | cons c s => exact fun brace => noBrace (h.head?_eq brace)

/-- Items that do not start with a template of the sign are not written with the sign and a brace
first. -/
theorem Writes.not_prefix (h : Writes (.string items) s) (isSign : sign = '$' ∨ sign = '%')
    (noTemplate : items.head? ≠ some (.template sign)) :
    ¬ [sign, '{'] <+: s ++ '"' :: rest := by
  rintro ⟨after, whole⟩
  match s with
  | [] =>
    obtain ⟨rfl, -⟩ := List.cons.inj whole
    simp at isSign
  | [c] =>
    have same := (List.cons.inj whole).2
    simp at same
  | c :: d :: s =>
    obtain ⟨rfl, same⟩ := List.cons.inj whole
    obtain ⟨rfl, -⟩ := List.cons.inj same
    exact noTemplate (h.head?_eq_template isSign)

end Signs

section Skipping

variable {start line : ℕ} {s : List Char}

/-- The inner frames are closed before the outer ones. -/
theorem skip_inner (inner outer : List Frame) :
    skip (inner ++ outer) line s =
      (skip inner line s).bind fun after => skip outer after.line after.rest := by
  fun_induction skip inner line s with
  | case1 => rfl
  | case2 line start groups inner =>
    rw [List.cons_append, skip.eq_def]
    rfl
  | case3 line start groups inner rest ih =>
    rw [List.cons_append, skip_template, if_pos rfl, ← List.cons_append, ih]
  | case4 line start inner rest _ ih =>
    rw [List.cons_append, skip_template, if_neg (by decide), if_pos rfl, ih]
  | case5 line start inner rest groups _ ih =>
    rw [List.cons_append, skip_template, if_neg (by decide), if_pos rfl]
    exact ih
  | case6 line start groups inner rest _ _ ih =>
    rw [List.cons_append, skip_template, if_neg (by decide), if_neg (by decide), if_pos rfl,
      ← List.cons_append, ← List.cons_append, ih]
  | case7 line start groups inner c rest notOpen notClose notQuote ih =>
    rw [List.cons_append, skip_template, if_neg notOpen, if_neg notClose, if_neg notQuote]
    simp only [dite_eq_ite] at ih
    exact ih
  | case8 line s start inner err read =>
    rw [List.cons_append, skip_quoted, read]
    rfl
  | case9 line s start inner rest read ih =>
    rw [List.cons_append, skip_quoted, read]
    exact ih
  | case10 line s start inner text rest read ih =>
    rw [List.cons_append, skip_quoted, read]
    exact ih
  | case11 line s start inner rest read ih =>
    rw [List.cons_append, skip_quoted, read]
    exact ih

/-- A string in a template is passed over as it is read elsewhere. -/
theorem skip_literal (outer : List Frame) :
    skip (.quoted start :: outer) line s =
      (literal start line s).bind fun (_, after) => skip outer after.line after.rest := by
  fun_induction literal start line s with
  | case1 line s err read =>
    rw [skip_quoted, read]
    rfl
  | case2 line s rest read =>
    rw [skip_quoted, read]
    rfl
  | case3 line s text rest read ih =>
    rw [skip_quoted, read]
    show skip (.quoted start :: outer) line rest = _
    rw [ih]
    cases literal start line rest <;> rfl
  | case4 line s rest read err inner =>
    rw [skip_quoted, read]
    show skip ([.template line 0] ++ .quoted start :: outer) line rest = _
    rw [skip_inner, inner]
    rfl
  | case5 line s rest read after inner ih =>
    rw [skip_quoted, read]
    show skip ([.template line 0] ++ .quoted start :: outer) line rest = _
    rw [skip_inner, inner]
    show skip (.quoted start :: outer) after.line after.rest = _
    rw [ih]
    cases literal start after.line after.rest <;> rfl

end Skipping

/-- Where reading leaves off: after the quote that follows the items of a string, or before
whatever follows the body of a template, whose braces are then as many as before. -/
def Body.IsRead (s : List Char) : Body → Prop
  | string items => ∀ (start line : ℕ) (rest : List Char),
      literal start line (s ++ '"' :: rest) =
        .ok (⟨items.flatMap Item.text, items.any Item.isTemplate⟩, ⟨line + s.count '\n', rest⟩)
  | template => ∀ (start groups line : ℕ) (outer : List Frame) (rest : List Char),
      skip (.template start groups :: outer) line (s ++ rest) =
        skip (.template start groups :: outer) (line + s.count '\n') rest

section Items

variable {items : List Item} {item : Item} {spelling s t u : List Char} {sign c : Char}

/-- An item that is no template is read before those that follow it. -/
theorem isRead_item (noTemplate : item.isTemplate = false) (noNewline : '\n' ∉ spelling)
    (read : ∀ (start line : ℕ) (rest : List Char),
      part start line (spelling ++ (s ++ '"' :: rest)) = .ok (.chars item.text, s ++ '"' :: rest))
    (later : (Body.string items).IsRead s) :
    (Body.string (item :: items)).IsRead (spelling ++ s) := by
  intro start line rest
  rw [List.append_assoc, literal_of_chars (read start line rest), later start line rest,
    List.count_append, List.count_eq_zero_of_not_mem noNewline, Nat.zero_add]
  simp [Except.map, noTemplate]

/-- After the brace that closes a template, reading goes on in the string around it. -/
theorem isRead_template (isSign : sign = '$' ∨ sign = '%') (inner : Body.template.IsRead t)
    (later : (Body.string items).IsRead s) :
    (Body.string (.template sign :: items)).IsRead (sign :: '{' :: (t ++ '}' :: s)) := by
  intro start line rest
  have opens : part start line (sign :: '{' :: (t ++ ('}' :: (s ++ '"' :: rest)))) =
      .ok (.openTemplate, t ++ ('}' :: (s ++ '"' :: rest))) := by
    obtain rfl | rfl := isSign <;> rfl
  have closes : skip [.template line 0] line (t ++ ('}' :: (s ++ '"' :: rest))) =
      .ok ⟨line + t.count '\n', s ++ '"' :: rest⟩ := by
    rw [inner line 0 line [], skip_template, if_neg (by decide), if_pos rfl]
    show skip [] _ _ = _
    rw [skip]
  have lines : (sign :: '{' :: (t ++ '}' :: s)).count '\n' = t.count '\n' + s.count '\n' := by
    obtain rfl | rfl := isSign <;> simp
  have whole : sign :: '{' :: (t ++ '}' :: s) ++ '"' :: rest =
      sign :: '{' :: (t ++ ('}' :: (s ++ '"' :: rest))) := by
    simp
  rw [whole, literal_eq, opens]
  simp only
  rw [closes]
  simp only
  rw [later, lines, Nat.add_assoc]
  rfl

/-- A character in a template other than braces and quotes is passed over. -/
theorem isRead_char (notOpen : c ≠ '{') (notClose : c ≠ '}') (notQuote : c ≠ '"')
    (later : Body.template.IsRead t) : Body.template.IsRead (c :: t) := by
  intro start groups line outer rest
  rw [List.cons_append, skip_template, if_neg notOpen, if_neg notClose, if_neg notQuote, later,
    nextLine_add_count]

/-- Within a group one more brace is open, and after it as many as before. -/
theorem isRead_group (inner : Body.template.IsRead t) (later : Body.template.IsRead u) :
    Body.template.IsRead ('{' :: (t ++ '}' :: u)) := by
  intro start groups line outer rest
  have lines : ('{' :: (t ++ '}' :: u)).count '\n' = t.count '\n' + u.count '\n' := by simp
  have whole : '{' :: (t ++ '}' :: u) ++ rest = '{' :: (t ++ ('}' :: (u ++ rest))) := by simp
  rw [whole, skip_template, if_pos rfl, inner, skip_template, if_neg (by decide), if_pos rfl]
  show skip (.template start groups :: outer) _ _ = _
  rw [later, lines, Nat.add_assoc]

/-- A string in a template is read by the reader of strings, and its templates with it. -/
theorem isRead_quoted (inner : (Body.string items).IsRead s) (later : Body.template.IsRead u) :
    Body.template.IsRead ('"' :: (s ++ '"' :: u)) := by
  intro start groups line outer rest
  have lines : ('"' :: (s ++ '"' :: u)).count '\n' = s.count '\n' + u.count '\n' := by simp
  have whole : '"' :: (s ++ '"' :: u) ++ rest = '"' :: (s ++ '"' :: (u ++ rest)) := by simp
  rw [whole, skip_template, if_neg (by decide), if_neg (by decide), if_pos rfl, skip_literal,
    inner]
  show skip (.template start groups :: outer) _ _ = _
  rw [later, lines, Nat.add_assoc]

end Items

/-- What is well nested is read to its end. -/
theorem Writes.isRead {body : Body} {s : List Char} (h : Writes body s) : body.IsRead s := by
  -- one induction for strings and templates, as each nests in the other
  induction h with
  | empty => exact fun start line rest => literal_of_close rfl
  | @plain c items s notQuote notBackslash notNewline noBrace noTemplate later ih =>
    show (Body.string _).IsRead ([c] ++ s)
    apply isRead_item rfl
    · simpa using notNewline.symm
    · intro start line rest
      apply part_itself notQuote notBackslash notNewline
      · exact fun isSign => later.head?_append_ne (noBrace isSign)
      · exact fun isSign => later.not_prefix isSign (noTemplate isSign)
    · exact ih
  | @escape c spelling items s isEscape later ih =>
    show (Body.string _).IsRead ('\\' :: spelling ++ s)
    apply isRead_item rfl
    · simpa using isEscape.newline_not_mem
    · intro start line rest
      rw [List.cons_append, part_backslash, isEscape.escape_eq]
      rfl
    · exact ih
  | @doubled sign items s isSign later ih =>
    show (Body.string _).IsRead ([sign, sign, '{'] ++ s)
    apply isRead_item rfl
    · obtain rfl | rfl := isSign <;> simp
    · exact fun start line rest => part_template isSign
    · exact ih
  | template isSign inner later ihInner ihLater => exact isRead_template isSign ihInner ihLater
  | done => exact fun start groups line outer rest => rfl
  | char notOpen notClose notQuote later ih => exact isRead_char notOpen notClose notQuote ih
  | group inner later ihInner ihLater => exact isRead_group ihInner ihLater
  | quoted inner later ihInner ihLater => exact isRead_quoted ihInner ihLater

/-- Reading gets from one place of a text to another, and these are the tokens in between. -/
inductive Reads : Cursor → List Token → Cursor → Prop
  | refl (place : Cursor) : Reads place [] place
  | gap {line : ℕ} {c : Char} {s : List Char} {next place : Cursor} {tokens : List Token}
      (passed : step line c s = .ok (none, next)) (later : Reads next tokens place) :
      Reads ⟨line, c :: s⟩ tokens place
  | token {line : ℕ} {c : Char} {s : List Char} {kind : TokenKind} {next place : Cursor}
      {tokens : List Token} (read : step line c s = .ok (some kind, next))
      (later : Reads next tokens place) : Reads ⟨line, c :: s⟩ (⟨kind, line⟩ :: tokens) place

/-- The tokens of a text are those up to a place that reading gets to and those from there on. -/
theorem Reads.tokenizeFrom_eq {start place : Cursor} {before : List Token}
    (h : Reads start before place) : tokenizeFrom start.line start.rest =
      (tokenizeFrom place.line place.rest).map fun later => before ++ later := by
  induction h with
  | refl place =>
    cases tokenizeFrom place.line place.rest <;> rfl
  | gap passed later ih =>
    show tokenizeFrom _ (_ :: _) = _
    rw [tokenizeFrom_of_gap passed]
    exact ih
  | @token line c s kind next place tokens read later ih =>
    show tokenizeFrom line (c :: s) = _
    rw [tokenizeFrom_of_token read, ih]
    cases tokenizeFrom place.line place.rest <;> rfl

section Strings

variable {items : List Item} {s after : List Char} {line p q : ℕ} {tokens : List Token}

/-- The items of a string give one token. -/
theorem tokenizeFrom_string (h : Writes (.string items) s) :
    tokenizeFrom line ('"' :: (s ++ '"' :: after)) =
      (tokenizeFrom (line + s.count '\n') after).map fun later => stringToken items line :: later :=
  tokenizeFrom_literal (h.isRead line line after)

/-- A block whose `source` has templates is refused. -/
theorem scan_ne_ok_of_templated {text name value : String} {found : List ModuleBlock}
    (h : tokenize text = .ok tokens) (header : IsHeader tokens p name)
    (isArgument : IsArgument tokens p "source" q)
    (templated : kindAt? tokens (q + 2) = some (.str value true)) : scan text ≠ .ok found := by
  intro accepted
  rw [scan, h] at accepted
  obtain ⟨plain, literal⟩ := (hasPlainSource_of_blocks accepted header).literal q isArgument
  rw [templated] at literal
  simp at literal

/-- A well nested string is one token, at any place of a text, and what stands in its templates is
no token; as the value of a `source`, a string with templates is refused. -/
theorem tokenize_string (h : Writes (.string items) s) :
    tokenize (String.ofList ('"' :: (s ++ ['"']))) =
      .ok [stringToken items 1] ∧
    ∀ (text : String) (before : List Token) (line : ℕ) (after : List Char),
      Reads ⟨1, text.toList⟩ before ⟨line, '"' :: (s ++ '"' :: after)⟩ →
        tokenize text = ((tokenizeFrom (line + s.count '\n') after).map fun later =>
          before ++ stringToken items line :: later) ∧
        (items.any Item.isTemplate = true →
          ∀ (tokens : List Token) (p q : ℕ) (name : String), tokenize text = .ok tokens →
            IsHeader tokens p name → IsArgument tokens p "source" q → before.length = q + 2 →
              ∀ found, scan text ≠ .ok found) := by
  refine ⟨?_, ?_⟩
  · rw [tokenize, String.toList_ofList, tokenizeFrom_string h, tokenizeFrom]
    rfl
  · intro text before line after reads
    have whole : tokenize text = ((tokenizeFrom (line + s.count '\n') after).map fun later =>
        before ++ stringToken items line :: later) := by
      rw [tokenize]
      refine reads.tokenizeFrom_eq.trans ?_
      show (tokenizeFrom line ('"' :: (s ++ '"' :: after))).map _ = _
      rw [tokenizeFrom_string h]
      cases tokenizeFrom (line + s.count '\n') after <;> rfl
    refine ⟨whole, ?_⟩
    intro templated tokens p q name read header isArgument atValue found
    apply scan_ne_ok_of_templated read header isArgument
    rw [read] at whole
    -- the token at the value is the string that was read, marked as having a template
    cases later : tokenizeFrom (line + s.count '\n') after with
    | error err =>
      rw [later] at whole
      contradiction
    | ok more =>
      rw [later] at whole
      rw [Except.ok.inj whole, kindAt?, ← atValue, List.getElem?_append_right (le_refl _),
        Nat.sub_self, List.getElem?_cons_zero, stringToken, templated]
      rfl

/-- A closing brace in a string, an opening brace in a template of that string, and all of it in the
template of a `source`. -/
theorem tokenize_string_nested :
    let items : List Item := [.plain 'a', .template '$']
    let s : List Char := ['a', '$', '{', '"', '}', '%', '{', '"', '{', '"', '}', '"', '}']
    let text := "module a\x7bsource=\"a$\x7b\"\x7d%\x7b\"\x7b\"\x7d\"\x7d\"\x7d"
    Writes (.string items) s ∧
    tokenize (String.ofList ('"' :: (s ++ ['"']))) = .ok [⟨.str "a" true, 1⟩] ∧
    ∀ found, scan text ≠ .ok found := by
  intro items s text
  have braceString : Writes (.string [.plain '{']) ['{'] :=
    .plain (by decide) (by decide) (by decide) (by decide) (by decide) .empty
  have inner : Writes .template ['"', '{', '"'] := .quoted braceString .done
  have nested : Writes (.string [.plain '}', .template '%']) ['}', '%', '{', '"', '{', '"', '}'] :=
    .plain (by decide) (by decide) (by decide) (by decide) (by decide)
      (.template (.inr rfl) inner .empty)
  have outer : Writes .template ['"', '}', '%', '{', '"', '{', '"', '}', '"'] :=
    .quoted nested .done
  have written : Writes (.string items) s :=
    .plain (by decide) (by decide) (by decide) (by decide) (by decide)
      (.template (.inl rfl) outer .empty)
  obtain ⟨alone, within⟩ := tokenize_string written
  refine ⟨written, alone, ?_⟩
  have chars : text.toList = ['m', 'o', 'd', 'u', 'l', 'e', ' ', 'a', '{', 's', 'o', 'u', 'r', 'c',
      'e', '='] ++ '"' :: (s ++ ['"', '}']) := by
    decide +kernel
  have reads : Reads ⟨1, text.toList⟩ [⟨.ident "module", 1⟩, ⟨.ident "a", 1⟩, ⟨.openBrace, 1⟩,
      ⟨.ident "source", 1⟩, ⟨.equals, 1⟩] ⟨1, '"' :: (s ++ '"' :: ['}'])⟩ := by
    rw [chars]
    exact .token rfl (.gap rfl (.token rfl (.token rfl (.token rfl (.token rfl (.refl _))))))
  obtain ⟨whole, refused⟩ := within text _ 1 ['}'] reads
  rw [tokenizeFrom_closeBrace, tokenizeFrom] at whole
  refine refused rfl _ 0 3 "a" whole ?_ ?_ rfl
  · exact ⟨rfl, trivial, rfl, .inr rfl, rfl⟩
  · refine ⟨le_refl _, ?_, rfl, .inr (.inl rfl), rfl, rfl⟩
    intro r first last
    obtain rfl : r = 3 := by omega
    decide

end Strings

end TerraDeps.Native
