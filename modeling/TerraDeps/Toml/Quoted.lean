import TerraDeps.Text.Hex

/-!
# Quoted texts in TOML

Texts stand in double quotes, with escapes, or in single quotes, as they are. Three quotes instead
of one open a text of several lines: a line end right after them does not count, and of up to five
quotes at its end the last three close it. A backslash at the end of a line joins it with the next
text.
-/

set_option autoImplicit false

namespace TerraDeps.Toml

open Text

/-- Whether a character may stand in a comment or on a line of a text. -/
def isPlain (c : Char) : Bool :=
  c == '\t' || (0x20 ≤ c.toNat && c.toNat != 0x7F)

/-- Whether a line ends at `c`, which `rest` follows. -/
def isLineEnd (c : Char) (rest : List Char) : Bool :=
  c == '\n' || (c == '\r' && rest.head? == some '\n')

/-- Whether a character is a space or a tab. -/
def isGap (c : Char) : Bool :=
  c == ' ' || c == '\t'

/-- The text without spaces and tabs at its start. -/
def skipGaps (s : List Char) : List Char :=
  s.dropWhile isGap

/-- Gaps are skipped without making the text longer. -/
theorem length_skipGaps_le (s : List Char) : (skipGaps s).length ≤ s.length :=
  (List.dropWhile_suffix _).length_le

/-- The character of a code point, unless it has none. -/
def charOf? (n : Nat) : Option Char :=
  if n.isValidChar then some (Char.ofNat n) else none

/-- The character that the next `digits` hexadecimal digits name, and how many there are. -/
def hexEscape? (digits : Nat) (s : List Char) : Option (Char × Nat) :=
  if (s.take digits).length = digits then do
    let values ← (s.take digits).mapM hexValue?
    let c ← charOf? (values.foldl (fun n d => 16 * n + d) 0)
    return (c, digits)
  else none

/-- The character that an escape stands for, after its backslash, and how many characters write
it. -/
def escape? : List Char → Option (Char × Nat)
  | 'b' :: _ => some ('\x08', 1)
  | 't' :: _ => some ('\t', 1)
  | 'n' :: _ => some ('\n', 1)
  | 'f' :: _ => some ('\x0c', 1)
  | 'r' :: _ => some ('\r', 1)
  | 'e' :: _ => some ('\x1b', 1)
  | '"' :: _ => some ('"', 1)
  | '\\' :: _ => some ('\\', 1)
  | 'x' :: rest => (hexEscape? 2 rest).map fun (c, used) => (c, used + 1)
  | 'u' :: rest => (hexEscape? 4 rest).map fun (c, used) => (c, used + 1)
  | 'U' :: rest => (hexEscape? 8 rest).map fun (c, used) => (c, used + 1)
  | _ => none

/-- What a text that closes here still holds, and what follows it. -/
def closing? (quote : Char) (multiline : Bool) (s : List Char) :
    Option (List Char × List Char) :=
  let count := (s.takeWhile (· == quote)).length
  if multiline then
    if 3 ≤ count then some (List.replicate (min count 5 - 3) quote, s.drop (min count 5)) else none
  else if 1 ≤ count then some ([], s.drop 1)
  else none

/-- Whether only spaces and tabs come before the end of the line. -/
def lineEndsHere (s : List Char) : Bool :=
  match skipGaps s with
  | c :: rest => isLineEnd c rest
  | [] => false

/-- Reads a text in double quotes after the opening ones. While `joining` holds, blanks and line
ends are skipped. -/
def basicRest (multiline joining : Bool) (s : List Char) : Option (List Char × List Char) :=
  match closing? '"' multiline s with
  | some found => some found
  | none =>
    match s with
    | [] => none
    | c :: rest =>
      if c = '\\' then
        match escape? rest with
        | some (d, used) =>
          (basicRest multiline false (rest.drop used)).map fun (text, left) => (d :: text, left)
        | none => if multiline && lineEndsHere rest then basicRest multiline true rest else none
      else if joining && (isGap c || isLineEnd c rest) then basicRest multiline true rest
      else if isPlain c || (multiline && isLineEnd c rest) then
        (basicRest multiline false rest).map fun (text, left) => (c :: text, left)
      else none
termination_by s.length
decreasing_by all_goals (simp only [List.length_cons, List.length_drop]; omega)

/-- Reads a text in single quotes after the opening ones. -/
def literalRest (multiline : Bool) (s : List Char) : Option (List Char × List Char) :=
  match closing? '\'' multiline s with
  | some found => some found
  | none =>
    match s with
    | [] => none
    | c :: rest =>
      if isPlain c || (multiline && isLineEnd c rest) then
        (literalRest multiline rest).map fun (text, left) => (c :: text, left)
      else none

/-- The text after a line end at its start, if there is one. -/
def dropLineEnd : List Char → List Char
  | '\n' :: rest => rest
  | '\r' :: '\n' :: rest => rest
  | s => s

/-- Reads a quoted text of one line. -/
def lineText? : List Char → Option (String × List Char)
  | '"' :: rest => (basicRest false false rest).map fun (text, left) => (String.ofList text, left)
  | '\'' :: rest => (literalRest false rest).map fun (text, left) => (String.ofList text, left)
  | _ => none

/-- Reads a quoted text of one or several lines. -/
def quoted? : List Char → Option (String × List Char)
  | '"' :: '"' :: '"' :: rest =>
    (basicRest true false (dropLineEnd rest)).map fun (text, left) => (String.ofList text, left)
  | '\'' :: '\'' :: '\'' :: rest =>
    (literalRest true (dropLineEnd rest)).map fun (text, left) => (String.ofList text, left)
  | s => lineText? s

end TerraDeps.Toml
