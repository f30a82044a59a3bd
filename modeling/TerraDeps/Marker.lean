import TerraDeps.Text.Blank
import TerraDeps.Text.Letter
import TerraDeps.Text.Pieces

/-!
# Marker files

A marker file makes its directory a build unit by calling `terraform_module(...)`. A comment runs
from a `#` outside quotes to the end of its line; `stripComments` takes comments off and leaves all
lines in place. `declarations` finds the calls in what is left, each with the value of the first
`name = "…"` among its arguments.
-/

set_option autoImplicit false

namespace TerraDeps.Marker

open Text

/-- A call in a marker file. -/
structure Declaration where
  /-- The name given to the unit, if any. -/
  name : Option String
  /-- The line on which the call starts, counted from one. -/
  line : Nat
  deriving DecidableEq, Repr

/-- The function whose call declares a unit. -/
def callee : List Char := "terraform_module".toList

/-- Whether a character opens a quoted string. -/
def isQuote (c : Char) : Bool :=
  c == '"' || c == '\''

/-- The quote that is open after a character, given the one open before it. -/
def quoteAfter (quote : Option Char) (c : Char) : Option Char :=
  match quote with
  | none => if isQuote c then some c else none
  | some q => if c = q then none else some q

/-- The part of a line before its comment, when the quote `quote` is open at its start. -/
def beforeComment (quote : Option Char) : List Char → List Char
  | [] => []
  | c :: rest =>
    if quote.isNone && c == '#' then [] else c :: beforeComment (quoteAfter quote c) rest

/-- A line without the carriage return at its end. -/
def dropReturn (line : List Char) : List Char :=
  if line.getLast? = some '\r' then line.dropLast else line

/-- The lines of a text, without the line feeds that end them and a carriage return before each. A
last line without a line feed counts unless it is empty. -/
def linesOf (s : List Char) : List (List Char) :=
  let all := pieces (· == '\n') s
  all.dropLast.map dropReturn ++ (all.getLast?.toList.filter fun last => !last.isEmpty)

/-- The text with its comments taken off, line by line. -/
def stripComments (s : List Char) : List Char :=
  ['\n'].intercalate ((linesOf s).map (beforeComment none))

/-- The text up to the parenthesis that closes a call, when `depth` more are open; parentheses
within quotes do not count. All the text if the call is never closed. -/
def arguments (depth : Nat) (quote : Option Char) : List Char → List Char
  | [] => []
  | c :: rest =>
    let inside := quoteAfter quote c
    if quote.isNone && c == '(' then c :: arguments (depth + 1) inside rest
    else if quote.isNone && c == ')' then
      match depth with
      | 0 => []
      | depth + 1 => c :: arguments depth inside rest
    else c :: arguments depth inside rest

/-- The text after blanks and then the character `c`. -/
def afterBlanksAnd? (c : Char) (s : List Char) : Option (List Char) :=
  match s.dropWhile isBlank with
  | d :: rest => if d = c then some rest else none
  | [] => none

/-- The text after `word` at the start of the text. -/
def afterWord? (word s : List Char) : Option (List Char) :=
  if word.isPrefixOf s then some (s.drop word.length) else none

/-- The text after an opening of a call at the start of the text. -/
def afterCall? (s : List Char) : Option (List Char) :=
  (afterWord? callee s).bind (afterBlanksAnd? '(')

/-- The value of a `name = "…"` at the start of the text. -/
def nameHere? (s : List Char) : Option String :=
  match ((afterWord? "name".toList s).bind (afterBlanksAnd? '=')).map (·.dropWhile isBlank) with
  | some (q :: rest) =>
    if isQuote q && rest.contains q then some (String.ofList (rest.takeWhile (· != q))) else none
  | _ => none

/-- The value of the first `name = "…"` of the text that does not follow a word character. -/
def name? (previousIsWord : Bool) : List Char → Option String
  | [] => none
  | c :: rest =>
    match if previousIsWord then none else nameHere? (c :: rest) with
    | some name => some name
    | none => name? (isWord c) rest

/-- The calls in a text without comments, which starts on line `line`. -/
def calls (line : Nat) (previousIsWord : Bool) : List Char → List Declaration
  | [] => []
  | c :: rest =>
    let more := calls (if c = '\n' then line + 1 else line) (isWord c) rest
    match if previousIsWord then none else afterCall? (c :: rest) with
    | some after => ⟨name? false (arguments 0 none after), line⟩ :: more
    | none => more

/-- The declarations of a marker file, in order. -/
def declarations (text : String) : List Declaration :=
  calls 1 false (stripComments text.toList)

end TerraDeps.Marker
