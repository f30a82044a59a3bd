import TerraDeps.Native.Blocks
import TerraDeps.Proofs.Native.Quoted
import TerraDeps.Proofs.Traversal

/-!
# Scanning undoes rendering

Module blocks are rendered line by line, each block with its header, the arguments it has and its
closing brace, and each string in any of the ways in which it can be written. Scanning the lines
finds the blocks again, in order and with the lines where they start.
-/

set_option autoImplicit false

namespace TerraDeps.Native

open Text

/-- A module block before it is given a line. -/
structure Declaration where
  name : String
  source : Option String
  version : Option String

/-- The block of the declaration when it starts on a line. -/
def Declaration.at (d : Declaration) (line : ℕ) : ModuleBlock :=
  ⟨d.name, d.source, d.version, line⟩

/-- The line `module "NAME" {`, its name as it is written. -/
def headerLine (name : List Char) : List Char :=
  "module \"".toList ++ name ++ "\" \x7b".toList

/-- The line of a header, character by character around the name. -/
theorem headerLine_eq (name : List Char) : headerLine name =
    ['m', 'o', 'd', 'u', 'l', 'e', ' ', '"'] ++ name ++ ['"', ' ', '{'] := rfl

/-- The line `  ARGUMENT = "VALUE"`, its value as it is written. -/
def argumentLine (argument : String) (value : List Char) : List Char :=
  "  ".toList ++ argument.toList ++ " = \"".toList ++ value ++ "\"".toList

/-- The lines of a block's argument: none, or one with its value as a quoted string. -/
inductive ArgumentLines (argument : String) : Option String → List (List Char) → Prop
  | absent : ArgumentLines argument none []
  | present {value : String} {written : List Char} (isWritten : IsWritten value.toList written) :
      ArgumentLines argument (some value) [argumentLine argument written]

/-- The lines of a block. -/
inductive BlockLines (d : Declaration) : List (List Char) → Prop
  | lines {name : List Char} {source version : List (List Char)}
      (isWritten : IsWritten d.name.toList name)
      (sourceLines : ArgumentLines "source" d.source source)
      (versionLines : ArgumentLines "version" d.version version) :
      BlockLines d ([headerLine name] ++ source ++ version ++ ["\x7d".toList])

/-- The lines as one text, each with its line end. -/
def joinLines (lines : List (List Char)) : List Char :=
  lines.flatMap fun line => line ++ ['\n']

section Steps

variable {line next : ℕ} {c : Char} {s rest : List Char} {kind : TokenKind}

/-- A gap gives no token. -/
theorem tokenizeFrom_of_gap (h : step line c s = .ok (none, ⟨next, rest⟩)) :
    tokenizeFrom line (c :: s) = tokenizeFrom next rest := by
  rw [tokenizeFrom_cons, h]

/-- A token that is read comes before those of the rest. -/
theorem tokenizeFrom_of_token (h : step line c s = .ok (some kind, ⟨next, rest⟩)) :
    tokenizeFrom line (c :: s) =
      (tokenizeFrom next rest).map fun tokens => ⟨kind, line⟩ :: tokens := by
  rw [tokenizeFrom_cons, h]

/-- A blank gives no token. -/
theorem tokenizeFrom_blank : tokenizeFrom line (' ' :: s) = tokenizeFrom line s :=
  tokenizeFrom_of_gap rfl

/-- A line end gives a token and leads to the next line. -/
theorem tokenizeFrom_newline : tokenizeFrom line ('\n' :: s) =
    (tokenizeFrom (line + 1) s).map fun tokens => ⟨.newline, line⟩ :: tokens :=
  tokenizeFrom_of_token rfl

/-- An opening brace gives a token. -/
theorem tokenizeFrom_openBrace : tokenizeFrom line ('{' :: s) =
    (tokenizeFrom line s).map fun tokens => ⟨.openBrace, line⟩ :: tokens :=
  tokenizeFrom_of_token rfl

/-- A closing brace gives a token. -/
theorem tokenizeFrom_closeBrace : tokenizeFrom line ('}' :: s) =
    (tokenizeFrom line s).map fun tokens => ⟨.closeBrace, line⟩ :: tokens :=
  tokenizeFrom_of_token rfl

/-- An equals sign before a blank gives a token. -/
theorem tokenizeFrom_equals : tokenizeFrom line ('=' :: ' ' :: s) =
    (tokenizeFrom line (' ' :: s)).map fun tokens => ⟨.equals, line⟩ :: tokens :=
  tokenizeFrom_of_token rfl

/-- A word of letters is read up to the blank after it. -/
theorem tokenizeFrom_word {word : List Char} (letters : (c :: word).all Char.isAlpha = true) :
    tokenizeFrom line (c :: word ++ ' ' :: s) =
      (tokenizeFrom line (' ' :: s)).map fun tokens =>
        ⟨.ident (String.ofList (c :: word)), line⟩ :: tokens := by
  have isLetter : ∀ d ∈ c :: word, d.isAlpha = true := List.all_eq_true.mp letters
  have isPart : ∀ d ∈ word, isIdentPart d = true := by
    intro d isMember
    have isAlphabetic := isAlphabetic_of_isAlpha (isLetter d (List.mem_cons_of_mem c isMember))
    simp [isIdentPart, isAlphanumeric, isAlphabetic]
  have taken : (word ++ ' ' :: s).takeWhile isIdentPart = word := by
    rw [List.takeWhile_append_of_pos isPart]
    simp [show isIdentPart ' ' = false by decide]
  have dropped : (word ++ ' ' :: s).dropWhile isIdentPart = ' ' :: s := by
    rw [List.dropWhile_append_of_pos isPart]
    simp [show isIdentPart ' ' = false by decide]
  have isStart : isIdentStart c = true := by
    simp [isIdentStart, isAlphabetic_of_isAlpha (isLetter c List.mem_cons_self)]
  have notSign (d : Char) (h : d.isAlpha = false) : c ≠ d := by
    rintro rfl
    rw [isLetter c List.mem_cons_self] at h
    contradiction
  have noGap : isGap c = false := by
    simp [isGap, notSign ' ' rfl, notSign '\t' rfl, notSign '\r' rfl, notSign '\uFEFF' rfl]
  have token : lexeme line c (word ++ ' ' :: s) =
      .ok (.ident (String.ofList (c :: word)), ⟨line, ' ' :: s⟩) := by
    rw [lexeme, if_neg (notSign '\n' rfl), if_neg (notSign '"' rfl), if_neg (notSign '{' rfl),
      if_neg (notSign '}' rfl), if_pos isStart, taken, dropped]
  refine tokenizeFrom_of_token ?_
  simp [step, noGap, notSign '#' rfl, notSign '/' rfl, token, Except.map]

/-- A quoted string is one token, which ends where reading its text does. -/
theorem tokenizeFrom_literal {l : Literal} (read : literal line line s = .ok (l, ⟨next, rest⟩)) :
    tokenizeFrom line ('"' :: s) = (tokenizeFrom next rest).map fun tokens =>
      ⟨.str (String.ofList l.text) l.templated, line⟩ :: tokens := by
  apply tokenizeFrom_of_token
  have token : lexeme line '"' s =
      .ok (.str (String.ofList l.text) l.templated, ⟨next, rest⟩) := by
    simp [lexeme, read, Except.map]
  simp [step, isGap, token, Except.map]

/-- A string without templates gives one token with its text. -/
theorem tokenizeFrom_quoted {text : String} {written : List Char}
    (h : IsWritten text.toList written) : tokenizeFrom line ('"' :: (written ++ '"' :: s)) =
      (tokenizeFrom line s).map fun tokens => ⟨.str text false, line⟩ :: tokens := by
  have read : literal line line (written ++ '"' :: s) = .ok (⟨text.toList, false⟩, ⟨line, s⟩) :=
    literal_of_isWritten h
  rw [tokenizeFrom_literal read, String.ofList_toList]

end Steps

/-- The tokens of a block's argument on a line. -/
def argumentTokens (argument : String) (line : ℕ) : Option String → List Token
  | none => []
  | some value =>
    [⟨.ident argument, line⟩, ⟨.equals, line⟩, ⟨.str value false, line⟩, ⟨.newline, line⟩]

section Lines

variable {d : Declaration} {lines more : List (List Char)} {argument : String}
  {value : Option String} {line : ℕ} {s : List Char}

/-- Two lists of lines are joined one after the other. -/
theorem joinLines_append : joinLines (lines ++ more) = joinLines lines ++ joinLines more :=
  List.flatMap_append

/-- The line of an argument gives its tokens. -/
theorem tokenizeFrom_argument (h : ArgumentLines argument value lines)
    (isWord : argument.toList.all Char.isAlpha = true) (notEmpty : argument ≠ "") :
    tokenizeFrom line (joinLines lines ++ s) =
      (tokenizeFrom (line + lines.length) s).map fun tokens =>
        argumentTokens argument line value ++ tokens := by
  cases h with
  | absent =>
    cases result : tokenizeFrom line s <;> simp [joinLines, argumentTokens, result, Except.map]
  | @present value written isWritten =>
    have hasLetters : argument.toList ≠ [] := by simpa using notEmpty
    obtain ⟨c, word, letters⟩ := List.exists_cons_of_ne_nil hasLetters
    have text : joinLines [argumentLine argument written] ++ s =
        ' ' :: ' ' :: (c :: word ++ ' ' :: '=' :: ' ' :: '"' :: (written ++ '"' :: '\n' :: s)) := by
      simp [joinLines, argumentLine, letters]
    have name : String.ofList (c :: word) = argument := by
      rw [← letters, String.ofList_toList]
    rw [text, tokenizeFrom_blank, tokenizeFrom_blank, tokenizeFrom_word (letters ▸ isWord),
      tokenizeFrom_blank, tokenizeFrom_equals, tokenizeFrom_blank, tokenizeFrom_quoted isWritten,
      tokenizeFrom_newline, name]
    cases tokenizeFrom (line + 1) s <;> rfl

/-- The line of a header gives its tokens. -/
theorem tokenizeFrom_header {name : String} {written : List Char}
    (isWritten : IsWritten name.toList written) :
    tokenizeFrom line (joinLines [headerLine written] ++ s) =
      (tokenizeFrom (line + 1) s).map fun tokens =>
        [⟨.ident "module", line⟩, ⟨.str name false, line⟩, ⟨.openBrace, line⟩, ⟨.newline, line⟩] ++
          tokens := by
  have text : joinLines [headerLine written] ++ s =
      'm' :: ['o', 'd', 'u', 'l', 'e'] ++
        ' ' :: '"' :: (written ++ '"' :: ' ' :: '{' :: '\n' :: s) := by
    simp [joinLines, headerLine_eq]
  have keyword : String.ofList ('m' :: ['o', 'd', 'u', 'l', 'e']) = "module" := rfl
  rw [text, tokenizeFrom_word (by decide), tokenizeFrom_blank, tokenizeFrom_quoted isWritten,
    tokenizeFrom_blank, tokenizeFrom_openBrace, tokenizeFrom_newline, keyword]
  cases tokenizeFrom (line + 1) s <;> rfl

/-- The last line of a block gives its tokens. -/
theorem tokenizeFrom_closing :
    tokenizeFrom line (joinLines ["\x7d".toList] ++ s) =
      (tokenizeFrom (line + 1) s).map fun tokens =>
        [⟨.closeBrace, line⟩, ⟨.newline, line⟩] ++ tokens := by
  have text : joinLines ["\x7d".toList] ++ s = '}' :: '\n' :: s := rfl
  rw [text, tokenizeFrom_closeBrace, tokenizeFrom_newline]
  cases tokenizeFrom (line + 1) s <;> rfl

/-- The tokens of a block whose arguments and closing brace stand on the given lines. -/
def blockTokens (d : Declaration) (line sourceLine versionLine lastLine : ℕ) : List Token :=
  [⟨.ident "module", line⟩, ⟨.str d.name false, line⟩, ⟨.openBrace, line⟩, ⟨.newline, line⟩] ++
    (argumentTokens "source" sourceLine d.source ++
      (argumentTokens "version" versionLine d.version ++
        [⟨.closeBrace, lastLine⟩, ⟨.newline, lastLine⟩]))

/-- The lines of a declaration give the tokens of its block. -/
theorem tokenizeFrom_block (h : BlockLines d lines) (line : ℕ) :
    ∃ sourceLine versionLine lastLine, ∀ s, tokenizeFrom line (joinLines lines ++ s) =
      (tokenizeFrom (line + lines.length) s).map fun tokens =>
        blockTokens d line sourceLine versionLine lastLine ++ tokens := by
  cases h with
  | @lines name source version isWritten sourceLines versionLines =>
    refine ⟨line + 1, line + 1 + source.length, line + 1 + source.length + version.length,
      fun s => ?_⟩
    have length : line + 1 + source.length + version.length + 1 =
        line + ([headerLine name] ++ source ++ version ++ ["\x7d".toList]).length := by
      simp only [List.length_append, List.length_singleton]
      omega
    rw [← length]
    simp only [joinLines_append, List.append_assoc]
    rw [tokenizeFrom_header isWritten, tokenizeFrom_argument sourceLines (by decide) (by decide),
      tokenizeFrom_argument versionLines (by decide) (by decide), tokenizeFrom_closing]
    cases tokenizeFrom (line + 1 + source.length + version.length + 1) s with
    | error e => rfl
    | ok tokens => simp [Except.map, blockTokens]

end Lines

section Blocks

variable {t : Token} {rest body after tokens : List Token} {name : String} {block : ModuleBlock}
  {lineStart : Bool} {line : ℕ}

/-- A line end outside of blocks is passed over. -/
theorem blocks_newline :
    blocks [] lineStart (⟨.newline, line⟩ :: rest) = blocks [] true rest :=
  blocks_other (by simp) (by simp) (by simp)

/-- A header whose body is read gives its block before those of the rest. -/
theorem blocks_of_header (named : header? rest = some (name, body))
    (read : moduleBody name line 0 true {} body = .ok (block, after)) :
    blocks [] true (⟨.ident "module", line⟩ :: rest) =
      (blocks [] true after).map fun more => block :: more := by
  rw [blocks_of_header? rfl named, read]

/-- The body of a block gives back the arguments and leaves what stands behind its brace. -/
theorem moduleBody_arguments (d : Declaration) (line sourceLine versionLine lastLine : ℕ)
    (rest : List Token) :
    moduleBody d.name line 0 true {} (⟨.newline, line⟩ ::
      (argumentTokens "source" sourceLine d.source ++
        (argumentTokens "version" versionLine d.version ++ ⟨.closeBrace, lastLine⟩ :: rest))) =
      .ok (d.at line, rest) := by
  obtain ⟨name, source, version⟩ := d
  cases source <;> cases version <;>
    simp [argumentTokens, moduleBody, Arguments.add, Declaration.at, TokenKind.startsLine]

/-- The tokens of a block give it back and leave what stands behind them. -/
theorem blocks_blockTokens (d : Declaration) (line sourceLine versionLine lastLine : ℕ)
    (rest : List Token) :
    blocks [] true (blockTokens d line sourceLine versionLine lastLine ++ rest) =
      (blocks [] true rest).map fun more => d.at line :: more := by
  have whole : blockTokens d line sourceLine versionLine lastLine ++ rest =
      ⟨.ident "module", line⟩ :: ⟨.str d.name false, line⟩ :: ⟨.openBrace, line⟩ ::
        ⟨.newline, line⟩ :: (argumentTokens "source" sourceLine d.source ++
          (argumentTokens "version" versionLine d.version ++
            ⟨.closeBrace, lastLine⟩ :: ⟨.newline, lastLine⟩ :: rest)) := by
    simp [blockTokens]
  have read := moduleBody_arguments d line sourceLine versionLine lastLine
    (⟨.newline, lastLine⟩ :: rest)
  rw [whole, blocks_of_header rfl read, blocks_newline]

end Blocks

/-- Blocks that are rendered from a line on are found, each on the line after those before it. -/
theorem blocks_of_rendered {declarations : List Declaration} {groups : List (List (List Char))}
    (h : List.Forall₂ BlockLines declarations groups) (line : ℕ) :
    ∃ tokens, tokenizeFrom line (joinLines groups.flatten) = .ok tokens ∧
      blocks [] true tokens =
        .ok (declarations.mapIdx fun i d => d.at (line + (groups.take i).flatten.length)) := by
  induction h generalizing line with
  | nil =>
    refine ⟨[], ?_, ?_⟩
    · simp [joinLines, tokenizeFrom]
    · simp [blocks]
  | @cons d lines declarations groups first _ ih =>
    -- the blocks after the first are rendered from the line on where its lines end
    obtain ⟨tokens, tokenized, found⟩ := ih (line + lines.length)
    obtain ⟨sourceLine, versionLine, lastLine, read⟩ := tokenizeFrom_block first line
    refine ⟨blockTokens d line sourceLine versionLine lastLine ++ tokens, ?_, ?_⟩
    · rw [List.flatten_cons, joinLines_append, read, tokenized]
      rfl
    · rw [blocks_blockTokens, found, List.mapIdx_cons]
      simp [Except.map, Nat.add_assoc]

/-- Every argument has a line, or none if it has no value. -/
theorem exists_argumentLines (argument : String) (value : Option String) :
    ∃ lines, ArgumentLines argument value lines := by
  cases value with
  | none => exact ⟨[], ArgumentLines.absent⟩
  | some value =>
    obtain ⟨written, isWritten⟩ := exists_isWritten value.toList
    exact ⟨_, ArgumentLines.present isWritten⟩

/-- Every declaration has lines. -/
theorem exists_blockLines (d : Declaration) : ∃ lines, BlockLines d lines := by
  obtain ⟨name, isWritten⟩ := exists_isWritten d.name.toList
  obtain ⟨source, sourceLines⟩ := exists_argumentLines "source" d.source
  obtain ⟨version, versionLines⟩ := exists_argumentLines "version" d.version
  exact ⟨_, BlockLines.lines isWritten sourceLines versionLines⟩

/-- Blocks of any names, sources and versions can be rendered. However that is done, scanning the
lines gives the blocks back, in order, each on the line that follows those of the blocks before. -/
theorem scan_rendered (declarations : List Declaration) :
    (∃ groups, List.Forall₂ BlockLines declarations groups) ∧
    ∀ groups, List.Forall₂ BlockLines declarations groups →
      scan (String.ofList (joinLines groups.flatten)) =
        .ok (declarations.mapIdx fun i d => d.at (1 + (groups.take i).flatten.length)) := by
  refine ⟨exists_forall₂_iff.mpr fun d _ => exists_blockLines d, fun groups rendered => ?_⟩
  obtain ⟨tokens, tokenized, found⟩ := blocks_of_rendered rendered 1
  rw [scan, tokenize, String.toList_ofList, tokenized]
  exact found

/-- Of the first source, a dollar sign stands before a template sign and a letter is written by its
code; the second name is a line end. -/
theorem scan_rendered_two_blocks :
    let declarations : List Declaration := [⟨"a", some "$$\x7bx", none⟩, ⟨"\n", none, some "1"⟩]
    let groups := [
      ["module \"a\" \x7b".toList, "  source = \"$$$\x7b\\u0078\"".toList, "\x7d".toList],
      ["module \"\\n\" \x7b".toList, "  version = \"1\"".toList, "\x7d".toList]]
    List.Forall₂ BlockLines declarations groups ∧
      scan (String.ofList (joinLines groups.flatten)) =
        .ok [⟨"a", some "$$\x7bx", none, 1⟩, ⟨"\n", none, some "1", 4⟩] := by
  intro declarations groups
  have code : WritesNumber ['0', '0', '7', '8'] 'x'.toNat := ⟨[0, 0, 7, 8], by decide, by decide⟩
  have letter : IsWritten ['x'] ['\\', 'u', '0', '0', '7', '8'] :=
    .char (by simp) (.unicode rfl code) .nil
  have dollar : IsSpelling '$' ['$'] := .itself (by decide) (by decide) (by decide)
  have source :
      IsWritten ['$', '$', '{', 'x'] ['$', '$', '$', '{', '\\', 'u', '0', '0', '7', '8'] :=
    .char (by simp) dollar (.template (.inl rfl) letter)
  have itself (c : Char) (h : c ≠ '"' ∧ c ≠ '\\' ∧ c ≠ '\n') : IsWritten [c] [c] :=
    .char (by simp) (.itself h.1 h.2.1 h.2.2) .nil
  have lineEnd : IsWritten ['\n'] ['\\', 'n'] := .char (by decide) (.short (by decide)) .nil
  have first : BlockLines ⟨"a", some "$$\x7bx", none⟩ groups[0] :=
    BlockLines.lines (d := ⟨"a", some "$$\x7bx", none⟩) (itself 'a' (by decide)) (.present source)
      .absent
  have second : BlockLines ⟨"\n", none, some "1"⟩ groups[1] :=
    BlockLines.lines (d := ⟨"\n", none, some "1"⟩) lineEnd .absent
      (.present (itself '1' (by decide)))
  have rendered : List.Forall₂ BlockLines declarations groups := .cons first (.cons second .nil)
  exact ⟨rendered, (scan_rendered declarations).2 groups rendered⟩

end TerraDeps.Native
