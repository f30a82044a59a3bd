import TerraDeps.Text.Hex
import TerraDeps.Text.Pieces
import TerraDeps.Toml.Quoted
import TerraDeps.Toml.Table

/-!
# Words that are TOML values

Numbers, truth values, dates and times are written without quotes. A word is judged by what follows
its first digits: `-` or `:` makes it a date or a time, a point or an exponent anywhere makes it a
floating-point number, and else it is an integer. Underscores stand between digits, and a decimal
number has no needless zeros at its start. Of an integer no more is asked at first: what has its
shape and writes no number all the same, like `0x` and `1_a`, is a `malformed` value.
-/

set_option autoImplicit false

namespace TerraDeps.Toml

open Text

/-- Whether a character may stand in a word. -/
def isWordChar (c : Char) : Bool :=
  !(isGap c || c == '\r' || c == '\n' || c == '#' || c == '=' || c == ',' || c == '[' || c == ']' ||
    c == '{' || c == '}')

/-- The digits of a number, without the single underscores between them. -/
def digits? (isDigit : Char → Bool) (s : List Char) : Option (List Char) :=
  let groups := pieces (· == '_') s
  if groups.all fun g => !g.isEmpty && g.all isDigit then some groups.flatten else none

/-- The number that digits write in a base. -/
def ofDigits (base : Nat) (digits : List Char) : Nat :=
  digits.foldl (fun n c => base * n + (hexValue? c).getD 0) 0

/-- Whether a character is a digit of a base up to sixteen. -/
def isDigitOf (base : Nat) (c : Char) : Bool :=
  match hexValue? c with
  | some d => d < base
  | none => false

/-- Whether a sign stands before a number, and the text after it. -/
def splitSign : List Char → Bool × List Char
  | '-' :: rest => (true, rest)
  | '+' :: rest => (false, rest)
  | s => (false, s)

/-- Whether every underscore stands between two digits, the first of them perhaps after a sign
alone. -/
def underscoresFit (isDigit : Char → Bool) (word : List Char) : Bool :=
  match pieces (· == '_') word with
  | first :: next :: later =>
    (first.length == 1 || first.getLast?.any isDigit) &&
      (next :: later).all (fun g => g.head?.any isDigit) &&
      (next :: later).dropLast.all fun g => g.getLast?.any isDigit
  | _ => true

/-- Whether the text starts with a zero and more follows. -/
def hasNeedlessZero (s : List Char) : Bool :=
  s.head? == some '0' && s != ['0']

/-- Whether a character is a digit or an underscore. -/
def isDigitOrUnderscore (c : Char) : Bool :=
  c.isDigit || c == '_'

/-- The text after digits and underscores, if there is a digit among them. -/
def afterDigits? (s : List Char) : Option (List Char) :=
  if (s.takeWhile isDigitOrUnderscore).any Char.isDigit then some (s.dropWhile isDigitOrUnderscore)
  else none

/-- The text after the whole part of a floating-point number, of whose digits a zero is the first
only if it is the only one. -/
def afterWhole? (s : List Char) : Option (List Char) :=
  let whole := s.takeWhile isDigitOrUnderscore
  if whole.head? == some '0' && 1 < whole.countP Char.isDigit then none else afterDigits? s

/-- The text after a point with digits, if a point comes next. -/
def afterFraction? : List Char → Option (List Char)
  | '.' :: rest => afterDigits? rest
  | s => some s

/-- The text after an exponent, if one comes next. -/
def afterExponent? : List Char → Option (List Char)
  | 'e' :: rest => afterDigits? (splitSign rest).2
  | 'E' :: rest => afterDigits? (splitSign rest).2
  | s => some s

/-- Whether a word writes a floating-point number with digits. -/
def isFloat (word : List Char) : Bool :=
  (((afterWhole? (splitSign word).2).bind afterFraction?).bind afterExponent?).any List.isEmpty &&
    underscoresFit Char.isDigit word

/-- Whether a character shows that a number has a fraction or an exponent. -/
def isFloatMark (c : Char) : Bool :=
  c == '.' || c == 'e' || c == 'E'

/-- The value of a word that is an integer to all appearances. -/
def decimalValue (word : List Char) : Value :=
  let (negative, digits) := splitSign (word.filter (· != '_'))
  if digits.all Char.isDigit then
    .integer (if negative then -(ofDigits 10 digits : Int) else (ofDigits 10 digits : Int))
  else .malformed (String.ofList word)

/-- The value of a number whose base a letter after its first zero names; without digits it is
malformed. -/
def radixValue? (word : List Char) (base : Nat) (digits : List Char) : Option Value :=
  if digits.isEmpty then some (.malformed (String.ofList word))
  else (digits? (isDigitOf base) digits).map fun ds => .integer (ofDigits base ds)

/-- The number that exactly as many digits as `s` has write. -/
def fixed? (s : List Char) : Option Nat :=
  if s.all Char.isDigit then some (ofDigits 10 s) else none

/-- The number of days in a month. -/
def daysIn (year month : Nat) : Nat :=
  if month = 2 then
    if year % 4 = 0 ∧ (year % 100 ≠ 0 ∨ year % 400 = 0) then 29 else 28
  else if month = 4 ∨ month = 6 ∨ month = 9 ∨ month = 11 then 30
  else 31

/-- Whether the text is a date. -/
def isDate (s : List Char) : Bool :=
  match s with
  | [y1, y2, y3, y4, '-', m1, m2, '-', d1, d2] =>
    match fixed? [y1, y2, y3, y4], fixed? [m1, m2], fixed? [d1, d2] with
    | some year, some month, some day =>
      1 ≤ month && month ≤ 12 && 1 ≤ day && day ≤ daysIn year month
    | _, _, _ => false
  | _ => false

/-- Whether the text is an hour and a minute. -/
def isHourMinute (s : List Char) : Bool :=
  match s with
  | [h1, h2, ':', m1, m2] =>
    match fixed? [h1, h2], fixed? [m1, m2] with
    | some hour, some minute => hour ≤ 23 && minute ≤ 59
    | _, _ => false
  | _ => false

/-- Whether the text is nothing, or a colon, seconds and perhaps a fraction of them. -/
def isSeconds : List Char → Bool
  | [] => true
  | ':' :: s1 :: s2 :: rest =>
    (match fixed? [s1, s2] with
    | some seconds => seconds ≤ 60
    | none => false) &&
      match rest with
      | [] => true
      | '.' :: fraction => !fraction.isEmpty && fraction.all Char.isDigit
      | _ => false
  | _ => false

/-- Whether the text is a time of day. -/
def isTimeOfDay (s : List Char) : Bool :=
  isHourMinute (s.take 5) && isSeconds (s.drop 5)

/-- Whether the text is a time of day that says how far from universal time it is. -/
def isOffsetTime (s : List Char) : Bool :=
  match s.reverse with
  | 'Z' :: rest => isTimeOfDay rest.reverse
  | 'z' :: rest => isTimeOfDay rest.reverse
  | m2 :: m1 :: ':' :: h2 :: h1 :: sign :: rest =>
    (sign == '+' || sign == '-') && isHourMinute [h1, h2, ':', m1, m2] && isTimeOfDay rest.reverse
  | _ => false

/-- Whether a word writes a date, a time of day or both. -/
def isTime (word : List Char) : Bool :=
  isTimeOfDay word || isDate word ||
    (isDate (word.take 10) &&
      match word.drop 10 with
      | sep :: rest =>
        (sep == 'T' || sep == 't' || sep == ' ') && (isTimeOfDay rest || isOffsetTime rest)
      | [] => false)

/-- The value of a word that starts with a digit, an underscore or a sign. -/
def numberValue? (word : List Char) : Option Value :=
  let unsigned := (splitSign word).2
  let after := unsigned.dropWhile Char.isDigit
  if after.head? == some '-' || after.head? == some ':' then
    if isTime word then some (.time (String.ofList word)) else none
  else if after.any isFloatMark then
    if isFloat word then some (.float (String.ofList word)) else none
  else if unsigned.isEmpty || hasNeedlessZero unsigned || after.contains ' ' then none
  else if (after.isEmpty || after.head? == some '_') && underscoresFit (isDigitOf 16) word then
    some (decimalValue word)
  else none

/-- Whether a word names an infinity or the value that is no number. -/
def isSpecialFloat (word : List Char) : Bool :=
  (splitSign word).2 = "inf".toList || (splitSign word).2 = "nan".toList

/-- The value that a word writes. -/
def wordValue? (word : List Char) : Option Value :=
  if word = "true".toList then some (.boolean true)
  else if word = "false".toList then some (.boolean false)
  else if isSpecialFloat word then some (.float (String.ofList word))
  else match word with
    | '0' :: 'x' :: digits => radixValue? word 16 digits
    | '0' :: 'o' :: digits => radixValue? word 8 digits
    | '0' :: 'b' :: digits => radixValue? word 2 digits
    | _ => numberValue? word

/-- Whether more of a word follows the spaces and tabs at the start of the text. -/
def goesOn (s : List Char) : Bool :=
  (skipGaps s).head?.any fun c => isWordChar c && c != '"' && c != '\''

/-- The word at the start of the text. Spaces and tabs belong to it if more of it follows them, as
between a date and a time of day. -/
def splitWord : List Char → List Char × List Char
  | [] => ([], [])
  | c :: rest =>
    if isWordChar c || (isGap c && goesOn rest) then
      let (word, left) := splitWord rest
      (c :: word, left)
    else ([], c :: rest)

end TerraDeps.Toml
