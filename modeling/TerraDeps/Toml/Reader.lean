import TerraDeps.Toml.Quoted
import TerraDeps.Toml.Scalar

/-!
# Reading TOML

A document is a list of statements, one a line: a header opens a table, an assignment gives a value
to a dotted key of the open table. `parse` gives the entries of the whole document, or nothing if
the text is no TOML. Arrays and tables in braces may run over several lines, with comments, and may
end with a comma; in braces lines may also end around an equals sign. How deep values lie in one
another and how many parts a key has are limited.
-/

set_option autoImplicit false

namespace TerraDeps.Toml

open Text

/-- How many arrays and tables in braces may lie within one another. -/
def nestingLimit : Nat := 80

/-- How many parts a dotted key may have. -/
def keyLimit : Nat := 80

/-- What is left of a text of which something was read. -/
abbrev Rest (s : List Char) := { rest : List Char // rest.length < s.length }

/-- A reading of `s`, provided that it took something. -/
def progress {α : Type} (s : List Char) (read : Option (α × List Char)) : Option (α × Rest s) :=
  read.bind fun (a, rest) => if h : rest.length < s.length then some (a, ⟨rest, h⟩) else none

/-- The text after spaces, tabs, line ends and comments, the first of which may be open; nothing if
a comment holds what it must not. -/
def skipFiller (inComment : Bool) : List Char → Option (List Char)
  | [] => some []
  | '\n' :: rest => skipFiller false rest
  | '\r' :: '\n' :: rest => skipFiller false rest
  | c :: rest =>
    if inComment then if isPlain c then skipFiller true rest else none
    else if isGap c then skipFiller false rest
    else if c = '#' then skipFiller true rest
    else some (c :: rest)

/-- Filler is skipped without making the text longer. -/
theorem length_skipFiller_le {inComment : Bool} {s rest : List Char}
    (h : skipFiller inComment s = some rest) : rest.length ≤ s.length := by
  fun_induction skipFiller inComment s with
  | case1 | case8 => exact Option.some.inj h ▸ Nat.le_refl _
  | case2 | case4 | case6 | case7 =>
    rename_i ih
    exact Nat.le_succ_of_le (ih h)
  | case3 inComment rest ih => exact Nat.le_succ_of_le (Nat.le_succ_of_le (ih h))
  | case5 => contradiction

/-- The next character that counts, and the text after it. -/
def nextChar? (s : List Char) : Option (Char × Rest s) :=
  match h : skipFiller false s with
  | some (c :: rest) => some (c, ⟨rest, length_skipFiller_le h⟩)
  | _ => none

/-- What is left after three steps that each take something is less than the text. -/
theorem length_lt_of_steps {s rest u more : List Char} {c : Char} (hc : rest.length < s.length)
    (hu : u.length < (c :: rest).length) (hd : more.length < u.length) :
    more.length < s.length := by
  rw [List.length_cons] at hu
  omega

/-- Whether a character may stand in a key without quotes. -/
def isKeyChar (c : Char) : Bool :=
  c.isAlphanum || c == '_' || c == '-'

/-- Reads one part of a dotted key. -/
def simpleKey? (s : List Char) : Option (String × List Char) :=
  match lineText? s with
  | some found => some found
  | none =>
    match s.takeWhile isKeyChar with
    | [] => none
    | key => some (String.ofList key, s.dropWhile isKeyChar)

/-- Reads the parts of a dotted key and the gap after them. -/
def keyParts? (s : List Char) : Option (List String × List Char) :=
  match progress s (simpleKey? s) with
  | none => none
  | some (key, ⟨rest, _⟩) =>
    match _h : skipGaps rest with
    | '.' :: more => (keyParts? (skipGaps more)).map fun (keys, after) => (key :: keys, after)
    | after => some ([key], after)
termination_by s.length
decreasing_by
  have first := length_skipGaps_le rest
  have second := length_skipGaps_le more
  simp only [_h, List.length_cons] at first
  omega

/-- Reads a dotted key that is not too long, and the gap after it. -/
def keyPath? (s : List Char) : Option (List String × List Char) :=
  (keyParts? s).filter fun (path, _) => path.length ≤ keyLimit

/-- The text after what may stand beside an equals sign: spaces and tabs, in braces also line ends
and comments. -/
def skipBeside (inBraces : Bool) (s : List Char) : Option (List Char) :=
  if inBraces then skipFiller false s else some (skipGaps s)

/-- Reads a dotted key, the equals sign after it and what stands beside the sign. -/
def keyAndSign? (inBraces : Bool) (s : List Char) : Option (List String × List Char) :=
  match keyPath? s with
  | none => none
  | some (path, rest) =>
    match skipBeside inBraces rest with
    | some ('=' :: after) => (skipBeside inBraces after).map fun left => (path, left)
    | _ => none

/-- Reads a text or a word. -/
def scalar? (s : List Char) : Option (Value × List Char) :=
  match quoted? s with
  | some (text, rest) => some (.text text, rest)
  | none =>
    let (word, rest) := splitWord s
    (wordValue? word).map fun v => (v, rest)

mutual

/-- Reads a value that may hold others up to `levels` deep. -/
def value? (levels : Nat) (s : List Char) : Option (Value × Rest s) :=
  match levels, s with
  | _, [] => none
  | 0, c :: rest =>
    if c = '[' ∨ c = '{' then none else progress (c :: rest) (scalar? (c :: rest))
  | within + 1, c :: rest =>
    if c = '[' then
      match items? within rest with
      | none => none
      | some (items, ⟨after, h⟩) => some (.array items, ⟨after, Nat.lt_succ_of_lt h⟩)
    else if c = '{' then
      match fields? within [] rest with
      | none => none
      | some (entries, ⟨after, h⟩) => some (.table .closed entries, ⟨after, Nat.lt_succ_of_lt h⟩)
    else progress (c :: rest) (scalar? (c :: rest))
termination_by (s.length, 0)

/-- Reads the values of an array, after its bracket or a comma. -/
def items? (levels : Nat) (s : List Char) : Option (List Value × Rest s) :=
  match nextChar? s with
  | none => none
  | some (c, ⟨rest, hc⟩) =>
    if c = ']' then some ([], ⟨rest, hc⟩)
    else
      match value? levels (c :: rest) with
      | none => none
      | some (v, ⟨u, hu⟩) =>
        match nextChar? u with
        | none => none
        | some (d, ⟨more, hd⟩) =>
          have shorter : more.length < s.length := length_lt_of_steps hc hu hd
          if d = ']' then some ([v], ⟨more, shorter⟩)
          else if d = ',' then
            match items? levels more with
            | none => none
            | some (vs, ⟨after, h⟩) => some (v :: vs, ⟨after, Nat.lt_trans h shorter⟩)
          else none
termination_by (s.length, 1)
decreasing_by
  · rw [List.length_cons]; omega
  · omega

/-- Reads an assignment. -/
def pair? (inBraces : Bool) (levels : Nat) (s : List Char) :
    Option ((List String × Value) × Rest s) :=
  match progress s (keyAndSign? inBraces s) with
  | none => none
  | some (path, ⟨rest, h⟩) =>
    match value? levels rest with
    | none => none
    | some (v, ⟨after, ha⟩) => some ((path, v), ⟨after, Nat.lt_trans ha h⟩)
termination_by (s.length, 0)

/-- Reads the entries of a table in braces, after its brace or a comma, on top of `entries`. -/
def fields? (levels : Nat) (entries : Entries) (s : List Char) : Option (Entries × Rest s) :=
  match nextChar? s with
  | none => none
  | some (c, ⟨rest, hc⟩) =>
    if c = '}' then some (entries, ⟨rest, hc⟩)
    else
      match pair? true levels (c :: rest) with
      | none => none
      | some ((path, v), ⟨u, hu⟩) =>
        match assign path v entries, nextChar? u with
        | some more, some (d, ⟨left, hd⟩) =>
          have shorter : left.length < s.length := length_lt_of_steps hc hu hd
          if d = '}' then some (more, ⟨left, shorter⟩)
          else if d = ',' then
            match fields? levels more left with
            | none => none
            | some (all, ⟨after, h⟩) => some (all, ⟨after, Nat.lt_trans h shorter⟩)
          else none
        | _, _ => none
termination_by (s.length, 1)
decreasing_by
  · rw [List.length_cons]; omega
  · omega

end

/-- One line of a document. -/
inductive Statement where
  /-- A header, in double brackets if `repeated`. -/
  | header (repeated : Bool) (path : List String)
  /-- A value for a key of the open table. -/
  | assignment (path : List String) (v : Value)

/-- Reads a statement. -/
def statement? (s : List Char) : Option (Statement × List Char) :=
  match s with
  | '[' :: '[' :: rest =>
    match keyPath? (skipGaps rest) with
    | some (path, ']' :: ']' :: after) => some (.header true path, after)
    | _ => none
  | '[' :: rest =>
    match keyPath? (skipGaps rest) with
    | some (path, ']' :: after) => some (.header false path, after)
    | _ => none
  | s => (pair? false nestingLimit s).map fun ((path, v), after) => (.assignment path v, after.val)

/-- The text after the rest of a line that holds no more than a comment. -/
def endLine? (s : List Char) : Option (List Char) :=
  match skipGaps s with
  | [] => some []
  | '#' :: rest => skipFiller true rest
  | c :: rest => if isLineEnd c rest then some (dropLineEnd (c :: rest)) else none

/-- Reads the statements of a document. -/
def statements? (s : List Char) : Option (List Statement) :=
  match skipFiller false s with
  | none => none
  | some [] => some []
  | some (c :: t) =>
    match progress s ((statement? (c :: t)).bind fun (st, u) =>
        (endLine? u).map fun rest => (st, rest)) with
    | none => none
    | some (st, ⟨rest, _⟩) => (statements? rest).map (st :: ·)
termination_by s.length

/-- The entries of a table after the assignments up to the next header. -/
def fill (entries : Entries) : List Statement → Option Entries
  | .assignment path v :: rest =>
    match assign path v entries with
    | none => none
    | some more => fill more rest
  | _ => some entries

/-- The entries of a document after the tables whose headers are still to come. -/
def addTables (entries : Entries) : List Statement → Option Entries
  | [] => some entries
  | .assignment _ _ :: rest => addTables entries rest
  | .header repeated path :: rest =>
    match openTable repeated (fun es => fill es rest) path entries with
    | none => none
    | some more => addTables more rest

/-- The entries of a document. -/
def entriesOf (statements : List Statement) : Option Entries :=
  match fill [] statements with
  | none => none
  | some entries => addTables entries statements

/-- The text without a byte order mark at its start. -/
def dropMark : List Char → List Char
  | '\uFEFF' :: rest => rest
  | s => s

/-- Reads a document. -/
def parse (text : String) : Option Entries :=
  (statements? (dropMark text.toList)).bind entriesOf

end TerraDeps.Toml
