/-!
# Module blocks and what can be wrong with them

A `ModuleBlock` is one `module` block of a Terraform file, in either of the two syntaxes. A
`ScanError` says why the blocks of a file cannot be read: a cause, and the line where it shows.
-/

set_option autoImplicit false

namespace TerraDeps

/-- A `module` block of a source file. -/
structure ModuleBlock where
  /-- The block's label. -/
  name : String
  /-- The `source` argument, if there is one. -/
  source : Option String
  /-- The `version` argument, if there is one. -/
  version : Option String
  /-- The line of the `module` keyword, counted from 1; 0 where lines are not known. -/
  line : Nat
  deriving DecidableEq, Repr

/-- A cause for which a file's module blocks cannot be read. -/
inductive ScanProblem where
  | unterminatedComment
  | unterminatedString
  | unterminatedTemplate
  | invalidEscape (c : Char)
  | invalidUnicode (digits : String)
  | heredocOpenerNotAlone (marker : String)
  | unterminatedHeredoc (marker : String)
  | unexpectedClose
  | unclosedBrace
  | unclosedModule (name : String)
  | duplicateSource (name : String)
  | sourceNotLiteral (name : String)
  | missingSource (name : String)
  | invalidDocument
  | modulesNotObject
  | moduleNotObject (name : String)
  deriving DecidableEq, Repr

/-- The cause in words. -/
def ScanProblem.message : ScanProblem → String
  | unterminatedComment => "unterminated block comment"
  | unterminatedString => "unterminated string"
  | unterminatedTemplate => "unterminated template sequence"
  | invalidEscape c => s!"invalid escape sequence '\\" ++ s!"{c}'"
  | invalidUnicode digits => s!"invalid unicode escape '{digits}'"
  | heredocOpenerNotAlone marker => s!"heredoc <<{marker} must end its line"
  | unterminatedHeredoc marker => s!"unterminated heredoc <<{marker}"
  | unexpectedClose => "unexpected '\x7d'"
  | unclosedBrace => "unclosed '\x7b'"
  | unclosedModule name => s!"unclosed module \"{name}\" block"
  | duplicateSource name => s!"module \"{name}\": duplicate source argument"
  | sourceNotLiteral name => s!"module \"{name}\": source must be a literal string"
  | missingSource name => s!"module \"{name}\" has no source argument"
  | invalidDocument => "invalid JSON"
  | modulesNotObject => "\"module\" must be an object keyed by module name"
  | moduleNotObject name => s!"module \"{name}\" must be an object"

/-- Why the blocks of a file cannot be read. -/
structure ScanError where
  /-- The line where the problem starts, counted from 1; 0 where lines are not known. -/
  line : Nat
  /-- The cause. -/
  problem : ScanProblem
  deriving DecidableEq, Repr

/-- The cause in words, without the line. -/
def ScanError.message (e : ScanError) : String :=
  e.problem.message

/-- The line, if it is known, and the cause. -/
def ScanError.display (e : ScanError) : String :=
  if e.line = 0 then e.message else s!"line {e.line}: " ++ e.message

end TerraDeps
