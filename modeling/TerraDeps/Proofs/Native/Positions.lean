import Mathlib.Data.Set.Insert
import Mathlib.Order.Bounds.Basic
import TerraDeps.Native.Blocks
import TerraDeps.Proofs.Traversal

/-!
# Positions in a stream of tokens

What a module block and its arguments are, said of positions in the stream and of no reader: a
position has a `depth` in braces, may be the start of a line, and may be that of a module header or
of an argument. A reader that goes on token by token and counts braces has `Reached` a position when
its count and its flag are the position's depth and line start.
-/

set_option autoImplicit false

namespace TerraDeps.Native

/-- The kind of the token at a position, if there is one. -/
def kindAt? (tokens : List Token) (p : ℕ) : Option TokenKind :=
  tokens[p]?.map Token.kind

/-- The number of opening braces minus that of closing braces before the position. -/
def depth (tokens : List Token) (p : ℕ) : ℤ :=
  (tokens.take p).countP (fun t => t.kind = .openBrace) -
    (tokens.take p).countP fun t => t.kind = .closeBrace

/-- The position is the first or follows a line end or a brace. -/
def IsLineStart (tokens : List Token) : ℕ → Prop
  | 0 => True
  | p + 1 => kindAt? tokens p = some .newline ∨ kindAt? tokens p = some .openBrace ∨
      kindAt? tokens p = some .closeBrace

/-- A top-level line starts at the position with the keyword `module`, a label and a brace. -/
structure IsHeader (tokens : List Token) (p : ℕ) (name : String) : Prop where
  topLevel : depth tokens p = 0
  lineStart : IsLineStart tokens p
  keyword : kindAt? tokens p = some (.ident "module")
  label : kindAt? tokens (p + 1) = some (.str name false) ∨
    kindAt? tokens (p + 1) = some (.ident name)
  brace : kindAt? tokens (p + 2) = some .openBrace

/-- A line starts at `q` with an argument that stands directly in the body of the block whose header
starts at `p`. -/
structure IsArgument (tokens : List Token) (p : ℕ) (argument : String) (q : ℕ) : Prop where
  inBody : p + 3 ≤ q
  notClosed : ∀ r, p + 3 ≤ r → r ≤ q → 0 < depth tokens r
  direct : depth tokens q = 1
  lineStart : IsLineStart tokens q
  name : kindAt? tokens q = some (.ident argument)
  equals : kindAt? tokens (q + 1) = some .equals

/-- The positions of a block's arguments of a name. -/
def arguments (tokens : List Token) (p : ℕ) (argument : String) : Set ℕ :=
  {q | IsArgument tokens p argument q}

/-- The text of a string token, and no text for any other or for the end. -/
def textOf : Option TokenKind → String
  | some (.str text _) => text
  | _ => ""

/-- What the `source` arguments at the positions say: there is none, or there is one and its value
is a string without templates. -/
def IsSource (tokens : List Token) (positions : Set ℕ) : Option String → Prop
  | none => positions = ∅
  | some text => ∃ q, positions = {q} ∧ kindAt? tokens (q + 2) = some (.str text false)

/-- What the `version` arguments at the positions say: there is none, or the last decides. -/
def IsVersion (tokens : List Token) (positions : Set ℕ) : Option String → Prop
  | none => positions = ∅
  | some text => ∃ q, IsGreatest positions q ∧ text = textOf (kindAt? tokens (q + 2))

/-- The block is the one whose header starts at the position. -/
structure IsBlock (tokens : List Token) (p : ℕ) (block : ModuleBlock) : Prop where
  header : IsHeader tokens p block.name
  line : tokens[p]?.map Token.line = some block.line
  source : IsSource tokens (arguments tokens p "source") block.source
  version : IsVersion tokens (arguments tokens p "version") block.version

section

variable {tokens rest : List Token} {t : Token} {p q opened : ℕ} {lineStart : Bool}

/-- The kind at a position is that of the first token from there on. -/
theorem kindAt_eq_head? (h : tokens.drop q = rest) :
    kindAt? tokens q = rest.head?.map Token.kind := by
  rw [kindAt?, ← List.head?_drop, h]

/-- The kind at the position of a token is its kind. -/
theorem kindAt_of_drop (h : tokens.drop q = t :: rest) : kindAt? tokens q = some t.kind :=
  kindAt_eq_head? h

/-- One position later, the depth has changed by the brace in between, if there is one. -/
theorem depth_succ (h : tokens.drop q = t :: rest) :
    depth tokens (q + 1) = depth tokens q +
      (if t.kind = .openBrace then 1 else 0) - (if t.kind = .closeBrace then 1 else 0) := by
  simp only [depth, take_succ_of_drop h, List.countP_append, List.countP_singleton,
    decide_eq_true_eq]
  split <;> split <;> push_cast <;> omega

/-- A line starts right behind a token that starts one. -/
theorem isLineStart_succ (h : tokens.drop q = t :: rest) :
    IsLineStart tokens (q + 1) ↔ t.kind.startsLine = true := by
  rw [IsLineStart, kindAt_of_drop h]
  cases t.kind <;> simp [TokenKind.startsLine]

/-- A reader that has counted `opened` open braces and goes on with `rest` stands at position `q`;
`lineStart` says whether a line starts there. -/
structure Reached (tokens : List Token) (q opened : ℕ) (lineStart : Bool) (rest : List Token) :
    Prop where
  drop : tokens.drop q = rest
  depth : depth tokens q = opened
  lineStart_iff : lineStart = true ↔ IsLineStart tokens q

/-- A reader starts at the first token, with no brace open and at the start of a line. -/
theorem reached_start (tokens : List Token) : Reached tokens 0 0 true tokens where
  drop := rfl
  depth := rfl
  lineStart_iff := by simp [IsLineStart]

namespace Reached

/-- The next token of a reader has the kind at its position. -/
theorem kindAt (atQ : Reached tokens q opened lineStart (t :: rest)) :
    kindAt? tokens q = some t.kind :=
  kindAt_of_drop atQ.drop

/-- Behind an opening brace a reader has one more brace open. -/
theorem openBrace (atQ : Reached tokens q opened lineStart (t :: rest))
    (kind : t.kind = .openBrace) : Reached tokens (q + 1) (opened + 1) true rest where
  drop := drop_succ_of_drop atQ.drop
  depth := by
    rw [depth_succ atQ.drop, atQ.depth, kind]
    simp
  lineStart_iff := by simp [isLineStart_succ atQ.drop, kind, TokenKind.startsLine]

/-- Behind a closing brace a reader has one brace less open. -/
theorem closeBrace (atQ : Reached tokens q (opened + 1) lineStart (t :: rest))
    (kind : t.kind = .closeBrace) : Reached tokens (q + 1) opened true rest where
  drop := drop_succ_of_drop atQ.drop
  depth := by
    rw [depth_succ atQ.drop, atQ.depth, kind]
    simp
  lineStart_iff := by simp [isLineStart_succ atQ.drop, kind, TokenKind.startsLine]

/-- Behind any other token a reader has as many braces open as before. -/
theorem other (atQ : Reached tokens q opened lineStart (t :: rest))
    (notOpen : t.kind ≠ .openBrace) (notClose : t.kind ≠ .closeBrace) :
    Reached tokens (q + 1) opened t.kind.startsLine rest where
  drop := drop_succ_of_drop atQ.drop
  depth := by
    rw [depth_succ atQ.drop, atQ.depth, if_neg notOpen, if_neg notClose]
    simp
  lineStart_iff := (isLineStart_succ atQ.drop).symm

end Reached

end

end TerraDeps.Native
