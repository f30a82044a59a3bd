import TerraDeps.Native.Token

/-!
# Module blocks in a stream of tokens

A top-level block is a module block when its line starts with the name `module`, a label and an
opening brace. `moduleBody` reads the arguments `source` and `version` that start a line directly
inside the block and passes over everything nested deeper; `blocks` finds the module blocks between
all other blocks and keeps account of the braces that are open.
-/

set_option autoImplicit false

namespace TerraDeps.Native

/-- Whether what follows the token starts a line. -/
def TokenKind.startsLine : TokenKind → Bool
  | newline => true
  | openBrace => true
  | closeBrace => true
  | _ => false

/-- The label that the token gives a block: a string without templates, or a name. -/
def TokenKind.label? : TokenKind → Option String
  | str value false => some value
  | ident name => some name
  | _ => none

/-- The name and the body of the module block whose keyword stands before the tokens. -/
def header? : List Token → Option (String × List Token)
  | label :: brace :: body =>
    match label.kind.label? with
    | some name => if brace.kind = .openBrace then some (name, body) else none
    | none => none
  | _ => none

/-- A header is a label and an opening brace. -/
theorem header?_eq_some_iff {tokens body : List Token} {name : String} :
    header? tokens = some (name, body) ↔ ∃ label brace, tokens = label :: brace :: body ∧
      label.kind.label? = some name ∧ brace.kind = .openBrace := by
  constructor
  · intro h
    unfold header? at h
    split at h
    · rename_i label brace after
      split at h
      · rename_i labelled
        split at h
        · rename_i opens
          obtain ⟨rfl, rfl⟩ := Prod.mk.inj (Option.some.inj h)
          exact ⟨label, brace, rfl, labelled, opens⟩
        · contradiction
      · contradiction
    · contradiction
  · rintro ⟨label, brace, rfl, labelled, opens⟩
    simp [header?, labelled, opens]

/-- The body behind a header is shorter than the tokens that start with the header. -/
theorem length_header {tokens body : List Token} {name : String}
    (h : header? tokens = some (name, body)) : body.length ≤ tokens.length := by
  obtain ⟨label, brace, rfl, -, -⟩ := header?_eq_some_iff.mp h
  exact Nat.le_succ_of_le (Nat.le_succ_of_le (Nat.le_refl _))

/-- The arguments of a module block that have been read. -/
structure Arguments where
  source : Option String := none
  version : Option String := none
  deriving DecidableEq, Repr

/-- The arguments with one more, whose name stands on line `line` and whose value is the next
token, if any. -/
def Arguments.add (args : Arguments) (module argument : String) (line : Nat)
    (value : Option TokenKind) : Except ScanError Arguments :=
  if argument = "source" then
    if args.source.isSome then .error ⟨line, .duplicateSource module⟩
    else match value with
      | some (.str text false) => .ok { args with source := some text }
      | _ => .error ⟨line, .sourceNotLiteral module⟩
  else if argument = "version" then
    match value with
    | some (.str text _) => .ok { args with version := some text }
    | _ => .ok { args with version := some "" }
  else .ok args

/-- Reads the body of the module block that started on line `line`; `nested` counts the braces that
are open within it, and `lineStart` says whether the next token starts a line. The result is the
block and the tokens after its closing brace. -/
def moduleBody (name : String) (line nested : Nat) (lineStart : Bool) (args : Arguments) :
    List Token → Except ScanError (ModuleBlock × List Token)
  | [] => .error ⟨line, .unclosedModule name⟩
  | t :: rest =>
    match t.kind with
    | .openBrace => moduleBody name line (nested + 1) true args rest
    | .closeBrace =>
      match nested with
      | 0 => .ok (⟨name, args.source, args.version, line⟩, rest)
      | nested + 1 => moduleBody name line nested true args rest
    | .ident argument =>
      match rest with
      | e :: value =>
        if nested = 0 ∧ lineStart ∧ e.kind = .equals then
          match args.add name argument t.line (value.head?.map Token.kind) with
          | .error err => .error err
          | .ok args => moduleBody name line nested false args value
        else moduleBody name line nested false args (e :: value)
      | [] => .error ⟨line, .unclosedModule name⟩
    | kind => moduleBody name line nested kind.startsLine args rest

section BodyEquations

variable {name argument : String} {line nested : Nat} {lineStart : Bool} {args : Arguments}
  {t e : Token} {rest value : List Token}

/-- An opening brace in a block goes one level deeper. -/
theorem moduleBody_openBrace (kind : t.kind = .openBrace) :
    moduleBody name line nested lineStart args (t :: rest) =
      moduleBody name line (nested + 1) true args rest := by
  rw [moduleBody.eq_def]
  simp only [kind]

/-- A closing brace below the level of the block goes one level up. -/
theorem moduleBody_closeBrace (kind : t.kind = .closeBrace) :
    moduleBody name line (nested + 1) lineStart args (t :: rest) =
      moduleBody name line nested true args rest := by
  rw [moduleBody.eq_def]
  simp only [kind]

/-- A closing brace at the level of the block ends it. -/
theorem moduleBody_of_close (kind : t.kind = .closeBrace) :
    moduleBody name line 0 lineStart args (t :: rest) =
      .ok (⟨name, args.source, args.version, line⟩, rest) := by
  rw [moduleBody.eq_def]
  simp only [kind]

/-- A name that starts a line at the level of the block, with an equals sign behind it, is an
argument; any other name is passed over. -/
theorem moduleBody_ident (kind : t.kind = .ident argument) :
    moduleBody name line nested lineStart args (t :: e :: value) =
      if nested = 0 ∧ lineStart ∧ e.kind = .equals then
        match args.add name argument t.line (value.head?.map Token.kind) with
        | .error err => .error err
        | .ok args => moduleBody name line nested false args value
      else moduleBody name line nested false args (e :: value) := by
  rw [moduleBody.eq_def]
  simp only [kind]

/-- A block whose last token is a name is not closed. -/
theorem moduleBody_of_last_ident (kind : t.kind = .ident argument) :
    moduleBody name line nested lineStart args [t] = .error ⟨line, .unclosedModule name⟩ := by
  rw [moduleBody.eq_def]
  simp only [kind]

/-- Any other token in a block is passed over. -/
theorem moduleBody_other (notOpen : t.kind ≠ .openBrace) (notClose : t.kind ≠ .closeBrace)
    (notName : ∀ argument, t.kind ≠ .ident argument) :
    moduleBody name line nested lineStart args (t :: rest) =
      moduleBody name line nested t.kind.startsLine args rest := by
  rw [moduleBody.eq_def]
  cases kind : t.kind <;> simp_all

end BodyEquations

/-- The body of a block leaves fewer tokens than it is read from. -/
theorem length_moduleBody {name : String} {line nested : Nat} {lineStart : Bool}
    {args : Arguments} {tokens after : List Token} {block : ModuleBlock}
    (h : moduleBody name line nested lineStart args tokens = .ok (block, after)) :
    after.length < tokens.length := by
  fun_induction moduleBody name line nested lineStart args tokens with
  | case1 | case5 | case8 => contradiction
  | case3 =>
    obtain ⟨-, rfl⟩ := Prod.mk.inj (Except.ok.inj h)
    exact Nat.lt_succ_self _
  | case2 | case4 | case7 | case9 =>
    rename_i ih
    exact Nat.lt_succ_of_lt (ih h)
  | case6 nested lineStart args t argument kind e value isArgument args' added ih =>
    exact Nat.lt_succ_of_lt (Nat.lt_succ_of_lt (ih h))

/-- The module blocks of the tokens, in order. `opened` holds the lines of the braces that are
open, innermost first, and `lineStart` says whether the next token starts a line. -/
def blocks (opened : List Nat) (lineStart : Bool) (tokens : List Token) :
    Except ScanError (List ModuleBlock) :=
  match tokens with
  | [] =>
    match opened with
    | [] => .ok []
    | line :: _ => .error ⟨line, .unclosedBrace⟩
  | t :: rest =>
    match t.kind with
    | .openBrace => blocks (t.line :: opened) true rest
    | .closeBrace =>
      match opened with
      | [] => .error ⟨t.line, .unexpectedClose⟩
      | _ :: opened => blocks opened true rest
    | kind =>
      if kind = .ident "module" ∧ opened = [] ∧ lineStart then
        match _h : header? rest with
        | none => blocks opened false rest
        | some (name, body) =>
          match _h' : moduleBody name t.line 0 true {} body with
          | .error e => .error e
          | .ok (block, after) => (blocks opened true after).map fun more => block :: more
      else blocks opened kind.startsLine rest
termination_by tokens.length
decreasing_by all_goals first
  | (simp only [List.length_cons]; omega)
  | (have shorter := length_moduleBody (by assumption)
     have := length_header (by assumption)
     simp only [List.length_cons]
     omega)

section Equations

variable {t : Token} {rest body : List Token} {name : String} {opened : List Nat}
  {lineStart : Bool}

/-- An opening brace outside of module blocks is kept account of. -/
theorem blocks_openBrace (kind : t.kind = .openBrace) :
    blocks opened lineStart (t :: rest) = blocks (t.line :: opened) true rest := by
  rw [blocks.eq_def]
  simp only
  split <;> simp_all

/-- A closing brace closes the innermost brace that is open. -/
theorem blocks_closeBrace {line : Nat} (kind : t.kind = .closeBrace) :
    blocks (line :: opened) lineStart (t :: rest) = blocks opened true rest := by
  rw [blocks.eq_def]
  simp only
  split <;> simp_all

/-- A closing brace where none is open is an error. -/
theorem blocks_of_unexpected (kind : t.kind = .closeBrace) :
    blocks [] lineStart (t :: rest) = .error ⟨t.line, .unexpectedClose⟩ := by
  rw [blocks.eq_def]
  simp only
  split <;> simp_all

/-- The name `module` without the rest of a header starts no module block. -/
theorem blocks_of_header?_eq_none (kind : t.kind = .ident "module")
    (unnamed : header? rest = none) :
    blocks [] true (t :: rest) = blocks [] false rest := by
  rw [blocks]
  simp only [kind, and_self, if_true]
  split <;> simp_all

/-- A header is followed by the body of its block and then by more blocks. -/
theorem blocks_of_header? (kind : t.kind = .ident "module")
    (named : header? rest = some (name, body)) : blocks [] true (t :: rest) =
      match moduleBody name t.line 0 true {} body with
      | .error e => .error e
      | .ok (block, after) => (blocks [] true after).map fun more => block :: more := by
  rw [blocks]
  simp only [kind, and_self, if_true]
  split
  · simp_all
  · rename_i found
    obtain ⟨rfl, rfl⟩ := Prod.mk.inj (Option.some.inj (named.symm.trans found))
    split <;> simp_all

/-- Any other token outside of module blocks is passed over. -/
theorem blocks_other (notOpen : t.kind ≠ .openBrace) (notClose : t.kind ≠ .closeBrace)
    (noHeader : ¬ (t.kind = .ident "module" ∧ opened = [] ∧ lineStart = true)) :
    blocks opened lineStart (t :: rest) = blocks opened t.kind.startsLine rest := by
  rw [blocks.eq_def]
  simp only
  split <;> simp_all

end Equations

/-- The module blocks of a native-syntax text, in order. -/
def scan (text : String) : Except ScanError (List ModuleBlock) :=
  match tokenize text with
  | .error e => .error e
  | .ok tokens => blocks [] true tokens

end TerraDeps.Native
