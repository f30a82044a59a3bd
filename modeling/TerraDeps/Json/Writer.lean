import TerraDeps.Json.Value
import TerraDeps.Text.Hex

/-!
# Writing JSON

`Json.compact` writes a value without blanks. Strings escape the quote, the backslash and the
control characters below U+0020 and nothing else; doubles are written with the fewest digits that
read back, positionally from 1e-5 up to 1e16 and with an exponent elsewhere. `Json.pretty` writes
one element or member to a line, indented by two spaces for each array or object around it.
-/

set_option autoImplicit false

namespace TerraDeps.Json

open Decimal Text

/-- A character as it stands in a written string. -/
def writtenChar (c : Char) : List Char :=
  if c = '"' then ['\\', '"']
  else if c = '\\' then ['\\', '\\']
  else if c = '\n' then ['\\', 'n']
  else if c = '\r' then ['\\', 'r']
  else if c = '\t' then ['\\', 't']
  else if c = '\x08' then ['\\', 'b']
  else if c = '\x0c' then ['\\', 'f']
  else if c.toNat < 0x20 then
    ['\\', 'u', '0', '0', hexDigit (c.toNat / 16), hexDigit (c.toNat % 16)]
  else [c]

/-- A text between quotes. -/
def writtenString (s : String) : List Char :=
  '"' :: s.toList.flatMap writtenChar ++ ['"']

/-- A whole number with its sign, also if that is plus. -/
def signedText (n : Int) : List Char :=
  (if n < 0 then '-' else '+') :: n.natAbs.repr.toList

/-- The digits of a positive double as a number text. -/
def decimalText (d : Digits) : List Char :=
  let e := d.pointExponent - 1
  if -5 ≤ e ∧ e < 0 then
    '0' :: '.' :: List.replicate (-d.pointExponent).toNat '0' ++ d.digits
  else if 0 ≤ e ∧ e < 16 then
    let count := d.pointExponent.toNat
    let whole := d.digits.take count
    let part := d.digits.drop count
    whole ++ List.replicate (count - whole.length) '0' ++
      '.' :: (if part.isEmpty then ['0'] else part)
  else
    let mantissa := match d.digits with
      | [] => ['0']
      | [digit] => [digit]
      | digit :: more => digit :: '.' :: more
    mantissa ++ 'e' :: signedText e

/-- A number text. -/
def writtenNumber : JsonNumber → List Char
  | .int n => (toString n).toList
  | .double negative x =>
    (if negative then ['-'] else []) ++
      if x.mantissa = 0 then ['0', '.', '0'] else decimalText (shortest x)

mutual

/-- A value without blanks. -/
def written : Json → List Char
  | .null => "null".toList
  | .bool true => "true".toList
  | .bool false => "false".toList
  | .number n => writtenNumber n
  | .string s => writtenString s
  | .array [] => ['[', ']']
  | .array (v :: vs) => '[' :: written v ++ writtenItems vs ++ [']']
  | .object [] => ['{', '}']
  | .object ((k, v) :: ms) =>
    '{' :: writtenString k ++ ':' :: written v ++ writtenMembers ms ++ ['}']

/-- The elements after the first, each after a comma. -/
def writtenItems : List Json → List Char
  | [] => []
  | v :: vs => ',' :: written v ++ writtenItems vs

/-- The members after the first, each after a comma. -/
def writtenMembers : List (String × Json) → List Char
  | [] => []
  | (k, v) :: ms => ',' :: writtenString k ++ ':' :: written v ++ writtenMembers ms

end

/-- A line end with the indentation of the line after it. -/
def newLine (depth : Nat) : List Char :=
  '\n' :: List.replicate (2 * depth) ' '

mutual

/-- A value over several lines, inside `depth` arrays and objects. -/
def laidOut (depth : Nat) : Json → List Char
  | .array (v :: vs) =>
    '[' :: newLine (depth + 1) ++ laidOut (depth + 1) v ++ laidOutItems (depth + 1) vs ++
      newLine depth ++ [']']
  | .object ((k, v) :: ms) =>
    '{' :: newLine (depth + 1) ++ writtenString k ++ ':' :: ' ' :: laidOut (depth + 1) v ++
      laidOutMembers (depth + 1) ms ++ newLine depth ++ ['}']
  | j => written j

/-- The elements after the first, each on a line after a comma. -/
def laidOutItems (depth : Nat) : List Json → List Char
  | [] => []
  | v :: vs => ',' :: newLine depth ++ laidOut depth v ++ laidOutItems depth vs

/-- The members after the first, each on a line after a comma. -/
def laidOutMembers (depth : Nat) : List (String × Json) → List Char
  | [] => []
  | (k, v) :: ms =>
    ',' :: newLine depth ++ writtenString k ++ ':' :: ' ' :: laidOut depth v ++
      laidOutMembers depth ms

end

/-- The text of a value over several lines. -/
def pretty (j : Json) : String :=
  String.ofList (laidOut 0 j)

/-- The text of a value without blanks. -/
def compact (j : Json) : String :=
  String.ofList (written j)

end TerraDeps.Json
