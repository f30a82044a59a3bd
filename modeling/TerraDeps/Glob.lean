/-!
# Glob patterns

A pattern is a list of tokens that a path must be made of. `?` is any character, `*` any run of
characters, slashes and leading dots among them, and `[…]` or `[!…]` one character of a set or
outside it. `**` stands for whole directories: between slashes it is an empty run or a run that
ends with a slash, and at the end of a pattern it is any run. Everything else is itself.
`Pattern.parse` reads a pattern and `Pattern.fits` tests a path.
-/

set_option autoImplicit false

namespace TerraDeps.Glob

/-- One token of a pattern. -/
inductive Token where
  /-- This character. -/
  | literal (c : Char)
  /-- Any one character. -/
  | one
  /-- One character within some of the ranges, or outside all of them if `negated`. -/
  | set (negated : Bool) (ranges : List (Char × Char))
  /-- Any run of characters. -/
  | run
  /-- Any number of whole directories, each with its slash. -/
  | directories
  deriving DecidableEq, Repr

/-- What is wrong with a pattern. -/
inductive Problem where
  /-- More than two stars in a row. -/
  | starRun
  /-- Two stars that are not a whole part of the path. -/
  | partialComponent
  /-- A bracket without a set. -/
  | unclosedSet
  deriving DecidableEq, Repr

/-- Why a text is no pattern, and near which character. -/
structure Fault where
  position : Nat
  problem : Problem
  deriving DecidableEq, Repr

/-- The problem in words. -/
def Problem.message : Problem → String
  | starRun => "wildcards are either regular `*` or recursive `**`"
  | partialComponent => "recursive wildcards must form a single path component"
  | unclosedSet => "invalid range pattern"

/-- The fault in words. -/
def Fault.message (f : Fault) : String :=
  s!"Pattern syntax error near position {f.position}: {f.problem.message}"

/-- The ranges that the inside of a set names: `a-z` is a range, any other character itself. -/
def rangesOf : List Char → List (Char × Char)
  | a :: '-' :: b :: rest => (a, b) :: rangesOf rest
  | c :: rest => (c, c) :: rangesOf rest
  | [] => []

/-- A set after its opening bracket, with what follows the closing one. The first character is a
member whatever it is. -/
def takeSet? (s : List Char) : Option (Token × { rest : List Char // rest.length < s.length }) :=
  match s with
  | '!' :: first :: more =>
    match h : more.dropWhile (· != ']') with
    | [] => none
    | _ :: rest => some (.set true (rangesOf (first :: more.takeWhile (· != ']'))), ⟨rest, by
        have cut := (List.dropWhile_suffix (l := more) (· != ']')).length_le
        rw [h] at cut
        simp only [List.length_cons] at *
        omega⟩)
  | ['!'] => none
  | first :: more =>
    match h : more.dropWhile (· != ']') with
    | [] => none
    | _ :: rest => some (.set false (rangesOf (first :: more.takeWhile (· != ']'))), ⟨rest, by
        have cut := (List.dropWhile_suffix (l := more) (· != ']')).length_le
        rw [h] at cut
        simp only [List.length_cons] at *
        omega⟩)
  | [] => none

/-- The tokens of the rest of a pattern, which follows `previous`; `total` is the length of the
whole pattern. -/
def tokens (total : Nat) (previous : Option Char) (s : List Char) : Except Fault (List Token) :=
  let position := total - s.length
  match s with
  | [] => .ok []
  | '?' :: rest => (tokens total (some '?') rest).map (.one :: ·)
  | '[' :: rest =>
    match takeSet? rest with
    | none => .error ⟨position, .unclosedSet⟩
    | some (set, ⟨after, _⟩) => (tokens total (some ']') after).map (set :: ·)
  | ['*'] => .ok [.run]
  | '*' :: '*' :: '*' :: _ => .error ⟨position + 2, .starRun⟩
  | '*' :: '*' :: rest =>
    if previous = none ∨ previous = some '/' then
      match rest with
      | [] => .ok [.run]
      | ['/'] => .ok [.run]
      | '/' :: after => (tokens total (some '/') after).map (.directories :: ·)
      | _ => .error ⟨position + 2, .partialComponent⟩
    else .error ⟨position - 1, .partialComponent⟩
  | '*' :: rest => (tokens total (some '*') rest).map (.run :: ·)
  | c :: rest => (tokens total (some c) rest).map (.literal c :: ·)
termination_by s.length

/-- A pattern for paths. -/
structure Pattern where
  /-- What a path must be made of. -/
  tokens : List Token
  deriving DecidableEq, Repr

/-- Whether a character lies within some of the ranges. -/
def inRanges (c : Char) (ranges : List (Char × Char)) : Bool :=
  ranges.any fun (low, high) => low ≤ c && c ≤ high

/-- The text and all that is left after dropping some of its start. -/
def suffixes : List Char → List (List Char)
  | [] => [[]]
  | c :: rest => (c :: rest) :: suffixes rest

/-- What may follow each slash of the text. -/
def afterSlashes : List Char → List (List Char)
  | [] => []
  | c :: rest => if c = '/' then rest :: afterSlashes rest else afterSlashes rest

/-- What may be left of a text after a token took its part. -/
def Token.remainders (s : List Char) : Token → List (List Char)
  | .literal c => match s with
    | d :: rest => if c = d then [rest] else []
    | [] => []
  | .one => match s with
    | _ :: rest => [rest]
    | [] => []
  | .set negated ranges => match s with
    | d :: rest => if inRanges d ranges == negated then [] else [rest]
    | [] => []
  | .run => suffixes s
  | .directories => s :: afterSlashes s

/-- Whether a text is made of the tokens, one after the other. -/
def consistsOf : List Token → List Char → Bool
  | [], s => s.isEmpty
  | t :: ts, s => (t.remainders s).any (consistsOf ts)

namespace Pattern

/-- Reads a pattern. -/
def parse (text : String) : Except Fault Pattern :=
  (Glob.tokens text.length none text.toList).map Pattern.mk

/-- Whether a path is made as the pattern says. -/
def fits (p : Pattern) (path : String) : Bool :=
  consistsOf p.tokens path.toList

end Pattern

end TerraDeps.Glob
