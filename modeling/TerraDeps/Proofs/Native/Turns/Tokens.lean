import TerraDeps.Proofs.Native.Positions
import TerraDeps.Proofs.Native.Turns.Run

/-!
# Scanning tokens turn by turn

The scanner of blocks as a loop on positions in the stream of tokens: it stands at a position, in or
between module blocks, and one turn moves the position past a token, an argument's name and sign, or
a block's header. It looks ahead at tokens that may be missing; the token it stands at and the one
before it must be there.
-/

set_option autoImplicit false

namespace TerraDeps.Native

/-- The module block that a scanner is in. -/
structure OpenBlock where
  name : String
  line : ℕ
  /-- The number of braces that are open within the block. -/
  nested : ℕ
  args : Arguments
  deriving DecidableEq, Repr

/-- Where a scanner of tokens stands: the lines of the braces that are open, innermost first, the
module block it is in, if any, and the blocks it has found. -/
structure Scanning where
  pos : ℕ
  opened : List ℕ
  block : Option OpenBlock
  found : List ModuleBlock
  deriving DecidableEq, Repr

/-- What a turn of the scanner comes to, if it asks for nothing out of range. -/
abbrev TokensTurn :=
  Option (Turn Scanning (Except ScanError (List ModuleBlock)))

/-- Whether a line starts at the position, by the token before it. -/
def atLineStart? (tokens : List Token) : ℕ → Option Bool
  | 0 => some true
  | pos + 1 => tokens[pos]?.map fun t => t.kind.startsLine

namespace Scanning

/-- The scanner before the first token. -/
def start : Scanning :=
  ⟨0, [], none, []⟩

/-- The scanner past `count` tokens. -/
def past (r : Scanning) (count : ℕ) : Scanning :=
  { r with pos := r.pos + count }

/-- At the keyword of a top-level line: begins a module block if a label and a brace follow. -/
def headerTurn (tokens : List Token) (r : Scanning) : TokensTurn :=
  match tokens[r.pos]? with
  | none => none
  | some t =>
    match (kindAt? tokens (r.pos + 1)).bind TokenKind.label? with
    | none => goesOn (r.past 1)
    | some name =>
      if kindAt? tokens (r.pos + 2) = some .openBrace then
        goesOn { r.past 3 with block := some ⟨name, t.line, 0, {}⟩ }
      else goesOn (r.past 1)

/-- Between module blocks. -/
def outerTurn (tokens : List Token) (r : Scanning) : TokensTurn :=
  match tokens[r.pos]? with
  | none =>
    match r.opened with
    | [] => some (.ends (.ok r.found))
    | line :: _ => fails line .unclosedBrace
  | some t =>
    match t.kind with
    | .openBrace => goesOn { r.past 1 with opened := t.line :: r.opened }
    | .closeBrace =>
      match r.opened with
      | [] => fails t.line .unexpectedClose
      | _ :: opened => goesOn { r.past 1 with opened := opened }
    | kind =>
      if kind = .ident "module" ∧ r.opened = [] then
        match atLineStart? tokens r.pos with
        | none => none
        | some true => headerTurn tokens r
        | some false => goesOn (r.past 1)
      else goesOn (r.past 1)

/-- At a name that starts a line directly in a module block: reads the argument, if it is one. -/
def argumentTurn (tokens : List Token) (r : Scanning) (b : OpenBlock) (argument : String)
    (line : ℕ) : TokensTurn :=
  if kindAt? tokens (r.pos + 1) = some .equals then
    match b.args.add b.name argument line (kindAt? tokens (r.pos + 2)) with
    | .error e => some (.ends (.error e))
    | .ok args => goesOn { r.past 2 with block := some { b with args := args } }
  else goesOn (r.past 1)

/-- In a module block. -/
def innerTurn (tokens : List Token) (r : Scanning) (b : OpenBlock) : TokensTurn :=
  match tokens[r.pos]? with
  | none => fails b.line (.unclosedModule b.name)
  | some t =>
    match t.kind with
    | .openBrace => goesOn { r.past 1 with block := some { b with nested := b.nested + 1 } }
    | .closeBrace =>
      match b.nested with
      | 0 =>
        goesOn { r.past 1 with
          block := none, found := r.found ++ [⟨b.name, b.args.source, b.args.version, b.line⟩] }
      | nested + 1 => goesOn { r.past 1 with block := some { b with nested := nested } }
    | .ident argument =>
      if b.nested = 0 then
        match atLineStart? tokens r.pos with
        | none => none
        | some true => argumentTurn tokens r b argument t.line
        | some false => goesOn (r.past 1)
      else goesOn (r.past 1)
    | _ => goesOn (r.past 1)

/-- One turn of the scanner. -/
def turn (tokens : List Token) (r : Scanning) : TokensTurn :=
  match r.block with
  | none => outerTurn tokens r
  | some b => innerTurn tokens r b

/-- The module blocks of the tokens, as a scanner in the state comes to them. -/
def outcome (tokens : List Token) (r : Scanning) : Except ScanError (List ModuleBlock) :=
  let lineStart := (atLineStart? tokens r.pos).getD false
  match r.block with
  | none => (blocks r.opened lineStart (tokens.drop r.pos)).map fun more => r.found ++ more
  | some b =>
    (moduleBody b.name b.line b.nested lineStart b.args (tokens.drop r.pos)).bind
      fun (block, after) => (blocks r.opened true after).map fun more => r.found ++ block :: more

end Scanning

section Ahead

variable {tokens rest : List Token} {t : Token} {pos line nested : ℕ} {name argument : String}
  {lineStart : Bool} {args : Arguments}

/-- Behind a token, a line starts if the token starts one. -/
theorem atLineStart?_succ (found : tokens[pos]? = some t) :
    atLineStart? tokens (pos + 1) = some t.kind.startsLine := by
  rw [atLineStart?, found, Option.map_some]

/-- The token before a position within the stream is there. -/
theorem exists_atLineStart? (inRange : pos ≤ tokens.length) :
    ∃ lineStart, atLineStart? tokens pos = some lineStart := by
  cases pos with
  | zero => exact ⟨true, rfl⟩
  | succ pos => exact ⟨_, atLineStart?_succ (List.getElem?_eq_getElem inRange)⟩

/-- The kind at the position of a token is its kind. -/
theorem kindAt?_of_getElem? (found : tokens[pos]? = some t) : kindAt? tokens pos = some t.kind := by
  rw [kindAt?, found, Option.map_some]

/-- A label and a brace ahead are a header. -/
theorem header?_drop (tokens : List Token) (pos : ℕ) : header? (tokens.drop pos) =
    ((kindAt? tokens pos).bind TokenKind.label?).bind fun name =>
      if kindAt? tokens (pos + 1) = some .openBrace then some (name, tokens.drop (pos + 2))
      else none := by
  cases label : tokens[pos]? with
  | none =>
    rw [drop_of_getElem?_eq_none label, kindAt?, label]
    rfl
  | some t =>
    rw [drop_of_getElem? label, kindAt?_of_getElem? label]
    cases brace : tokens[pos + 1]? with
    | none =>
      rw [drop_of_getElem?_eq_none brace, kindAt?, brace]
      cases label : t.kind.label? <;> simp [header?, label]
    | some u =>
      rw [drop_of_getElem? brace, kindAt?_of_getElem? brace]
      simp only [header?, Option.bind_some, Option.some_inj]
      cases t.kind.label? <;> rfl

/-- A name in a module block is that of an argument if it starts a line of the block itself and an
equals sign follows. -/
theorem moduleBody_ident_drop (kind : t.kind = .ident argument) (found : tokens[pos]? = some t) :
    moduleBody name line nested lineStart args (tokens.drop pos) =
      if nested = 0 ∧ lineStart ∧ kindAt? tokens (pos + 1) = some .equals then
        match args.add name argument t.line (kindAt? tokens (pos + 2)) with
        | .error e => .error e
        | .ok args => moduleBody name line nested false args (tokens.drop (pos + 2))
      else moduleBody name line nested false args (tokens.drop (pos + 1)) := by
  rw [drop_of_getElem? found]
  cases sign : tokens[pos + 1]? with
  | none =>
    rw [drop_of_getElem?_eq_none sign, moduleBody_of_last_ident kind, kindAt?, sign,
      if_neg (by simp), moduleBody]
  | some e =>
    rw [drop_of_getElem? sign, moduleBody_ident kind, kindAt?_of_getElem? sign,
      kindAt_eq_head? (q := pos + 2) rfl]
    exact if_congr (by rw [Option.some_inj]) rfl rfl

end Ahead

namespace Scanning

/-- A turn from the state goes on in the stream, with the same outcome, or ends with it. -/
abbrev ProceedsFrom (tokens : List Token) : Scanning → Prop :=
  Proceeds (turn tokens) Scanning.pos (fun r => r.pos ≤ tokens.length) (outcome tokens)

section Running

variable {tokens : List Token} {t : Token} {pos : ℕ} {opened : List ℕ} {found : List ModuleBlock}
  {r y : Scanning} {b : OpenBlock}

/-- A turn that goes on in the stream and keeps the outcome. -/
theorem proceeds_of_goesOn (leads : turn tokens r = goesOn y) (further : r.pos < y.pos)
    (inRange : y.pos ≤ tokens.length) (same : y.outcome tokens = r.outcome tokens) :
    ProceedsFrom tokens r :=
  .inl ⟨y, leads, further, inRange, same⟩

/-- Outside of blocks, the outcome is the blocks that were found and those of the rest. -/
theorem outcome_outer {lineStart : Bool} (starts : atLineStart? tokens pos = some lineStart) :
    outcome tokens ⟨pos, opened, none, found⟩ =
      (blocks opened lineStart (tokens.drop pos)).map fun more => found ++ more := by
  simp only [outcome, starts, Option.getD_some]

/-- Within a block, the outcome is the blocks that were found, this one and those of the rest. -/
theorem outcome_inner {lineStart : Bool} (starts : atLineStart? tokens pos = some lineStart) :
    outcome tokens ⟨pos, opened, some b, found⟩ =
      (moduleBody b.name b.line b.nested lineStart b.args (tokens.drop pos)).bind
        fun (block, after) =>
          (blocks opened true after).map fun more => found ++ block :: more := by
  simp only [outcome, starts, Option.getD_some]

/-- Between module blocks, a token that opens, closes and begins nothing is passed over. -/
theorem proceeds_pass (here : tokens[pos]? = some t)
    (leads : turn tokens ⟨pos, opened, none, found⟩ = goesOn ⟨pos + 1, opened, none, found⟩)
    {lineStart : Bool} (starts : atLineStart? tokens pos = some lineStart)
    (same : blocks opened lineStart (tokens.drop pos) =
      blocks opened t.kind.startsLine (tokens.drop (pos + 1))) :
    ProceedsFrom tokens ⟨pos, opened, none, found⟩ := by
  refine proceeds_of_goesOn leads (Nat.lt_succ_self pos) (List.getElem?_eq_some_iff.mp here).1 ?_
  rw [outcome_outer (atLineStart?_succ here), outcome_outer starts, same]

/-- At the keyword of a top-level line, a turn begins the block whose header stands there. -/
theorem proceeds_header (here : tokens[pos]? = some t) (kind : t.kind = .ident "module")
    (starts : atLineStart? tokens pos = some true) :
    ProceedsFrom tokens ⟨pos, [], none, found⟩ := by
  have leads : turn tokens ⟨pos, [], none, found⟩ = headerTurn tokens ⟨pos, [], none, found⟩ := by
    simp [turn, outerTurn, here, kind, starts]
  simp only [headerTurn, here] at leads
  have ahead := header?_drop tokens (pos + 1)
  cases label : (kindAt? tokens (pos + 1)).bind TokenKind.label? with
  | none =>
    rw [label] at leads ahead
    refine proceeds_pass here leads starts ?_
    rw [drop_of_getElem? here, blocks_of_header?_eq_none kind ahead, kind]
    rfl
  | some name =>
    rw [label] at leads ahead
    simp only [Option.bind_some] at leads ahead
    by_cases brace : kindAt? tokens (pos + 2) = some .openBrace
    · rw [if_pos brace] at leads ahead
      obtain ⟨u, next, isOpen⟩ := Option.map_eq_some_iff.mp brace
      refine proceeds_of_goesOn leads (Nat.lt_add_of_pos_right (by decide))
        (List.getElem?_eq_some_iff.mp next).1 ?_
      have bodyStarts : atLineStart? tokens (pos + 3) = some true := by
        rw [atLineStart?_succ next, isOpen]
        rfl
      rw [outcome_outer starts, drop_of_getElem? here, blocks_of_header? kind ahead]
      refine (outcome_inner bodyStarts).trans ?_
      simp only [Nat.add_assoc, Nat.reduceAdd]
      cases moduleBody name t.line 0 true {} (tokens.drop (pos + 3)) with
      | error e => rfl
      | ok read =>
        obtain ⟨block, after⟩ := read
        simp only [Except.bind, past]
        cases blocks [] true after <;> rfl
    · rw [if_neg brace] at leads ahead
      refine proceeds_pass here leads starts ?_
      rw [drop_of_getElem? here, blocks_of_header?_eq_none kind ahead, kind]
      rfl

/-- Every turn outside of blocks proceeds. -/
theorem proceeds_outer (inRange : pos ≤ tokens.length) :
    ProceedsFrom tokens ⟨pos, opened, none, found⟩ := by
  obtain ⟨lineStart, starts⟩ := exists_atLineStart? inRange
  have now : outcome tokens ⟨pos, opened, none, found⟩ = _ := outcome_outer starts
  cases here : tokens[pos]? with
  | none =>
    refine .inr ?_
    rw [now, drop_of_getElem?_eq_none here]
    simp only [turn, outerTurn, here]
    cases opened <;> simp [blocks, fails, Except.map]
  | some t =>
    have inside : pos + 1 ≤ tokens.length := (List.getElem?_eq_some_iff.mp here).1
    have further : pos < pos + 1 := Nat.lt_succ_self pos
    have next := atLineStart?_succ here
    have rest := drop_of_getElem? here
    cases kind : t.kind with
    | openBrace =>
      refine proceeds_of_goesOn (y := ⟨pos + 1, t.line :: opened, none, found⟩)
        (by simp only [turn, outerTurn, here, kind, past]) further inside ?_
      rw [outcome_outer next, now, rest, blocks_openBrace kind, kind]
      rfl
    | closeBrace =>
      cases opened with
      | nil =>
        refine .inr ?_
        rw [now, rest, blocks_of_unexpected kind]
        simp only [turn, outerTurn, here, kind]
        rfl
      | cons line opened =>
        refine proceeds_of_goesOn (y := ⟨pos + 1, opened, none, found⟩)
          (by simp only [turn, outerTurn, here, kind, past]) further inside ?_
        rw [outcome_outer next, now, rest, blocks_closeBrace kind, kind]
        rfl
    | ident name =>
      -- only the keyword at the start of a line outside of all braces begins a block
      by_cases header : name = "module" ∧ opened = [] ∧ lineStart = true
      · obtain ⟨rfl, rfl, rfl⟩ := header
        exact proceeds_header here kind starts
      · refine proceeds_pass here ?_ starts ?_
        · by_cases keyword : name = "module" ∧ opened = []
          · have inLine : lineStart = false := by simpa [keyword] using header
            simp [turn, outerTurn, here, kind, starts, inLine, past]
          · simp [turn, outerTurn, here, kind, past, keyword]
        · rw [rest, blocks_other (by simp [kind]) (by simp [kind]) (by simpa [kind] using header)]
    | str | heredoc | equals | newline | other =>
      refine proceeds_pass here (by simp [turn, outerTurn, here, kind, past]) starts ?_
      rw [rest, blocks_other (by simp [kind]) (by simp [kind]) (by simp [kind])]

/-- In a module block, a token that opens and closes nothing and begins no argument is passed
over. -/
theorem proceeds_inner_pass (here : tokens[pos]? = some t)
    (leads : turn tokens ⟨pos, opened, some b, found⟩ = goesOn ⟨pos + 1, opened, some b, found⟩)
    {lineStart : Bool} (starts : atLineStart? tokens pos = some lineStart)
    (same : moduleBody b.name b.line b.nested lineStart b.args (tokens.drop pos) =
      moduleBody b.name b.line b.nested t.kind.startsLine b.args (tokens.drop (pos + 1))) :
    ProceedsFrom tokens ⟨pos, opened, some b, found⟩ := by
  refine proceeds_of_goesOn leads (Nat.lt_succ_self pos) (List.getElem?_eq_some_iff.mp here).1 ?_
  rw [outcome_inner (atLineStart?_succ here), outcome_inner starts, same]

/-- At a name that starts a line of a module block, a turn reads the argument that stands there. -/
theorem proceeds_argument {name argument : String} {line : ℕ} {args : Arguments}
    (here : tokens[pos]? = some t) (kind : t.kind = .ident argument)
    (starts : atLineStart? tokens pos = some true) :
    ProceedsFrom tokens ⟨pos, opened, some ⟨name, line, 0, args⟩, found⟩ := by
  have leads : turn tokens ⟨pos, opened, some ⟨name, line, 0, args⟩, found⟩ =
      argumentTurn tokens ⟨pos, opened, some ⟨name, line, 0, args⟩, found⟩ ⟨name, line, 0, args⟩
        argument t.line := by
    simp only [turn, innerTurn, here, kind, starts, if_true]
  have read : moduleBody name line 0 true args (tokens.drop pos) = _ :=
    moduleBody_ident_drop kind here
  simp only [argumentTurn] at leads
  by_cases sign : kindAt? tokens (pos + 1) = some .equals
  · rw [if_pos sign] at leads
    rw [if_pos ⟨rfl, rfl, sign⟩] at read
    obtain ⟨e, next, isEquals⟩ := Option.map_eq_some_iff.mp sign
    have valueStarts : atLineStart? tokens (pos + 2) = some false := by
      rw [atLineStart?_succ next, isEquals]
      rfl
    cases added : args.add name argument t.line (kindAt? tokens (pos + 2)) with
    | error e =>
      rw [added] at leads read
      refine .inr (leads.trans ?_)
      rw [outcome_inner starts, read]
      rfl
    | ok args' =>
      rw [added] at leads read
      refine proceeds_of_goesOn leads (Nat.lt_add_of_pos_right (by decide))
        (List.getElem?_eq_some_iff.mp next).1 ?_
      refine (outcome_inner valueStarts).trans ?_
      rw [outcome_inner starts, read]
      rfl
  · rw [if_neg sign] at leads
    refine proceeds_inner_pass here leads starts ?_
    rw [read, if_neg (by simp [sign]), kind]
    rfl

/-- Every turn within a block proceeds. -/
theorem proceeds_inner (inRange : pos ≤ tokens.length) :
    ProceedsFrom tokens ⟨pos, opened, some b, found⟩ := by
  obtain ⟨lineStart, starts⟩ := exists_atLineStart? inRange
  have now : outcome tokens ⟨pos, opened, some b, found⟩ = _ := outcome_inner starts
  cases here : tokens[pos]? with
  | none =>
    refine .inr ?_
    rw [now, drop_of_getElem?_eq_none here, moduleBody]
    simp only [turn, innerTurn, here]
    rfl
  | some t =>
    have inside : pos + 1 ≤ tokens.length := (List.getElem?_eq_some_iff.mp here).1
    have further : pos < pos + 1 := Nat.lt_succ_self pos
    have next := atLineStart?_succ here
    have rest := drop_of_getElem? here
    cases kind : t.kind with
    | openBrace =>
      refine proceeds_of_goesOn
        (y := ⟨pos + 1, opened, some { b with nested := b.nested + 1 }, found⟩)
        (by simp only [turn, innerTurn, here, kind, past]) further inside ?_
      rw [outcome_inner next, now, rest, moduleBody_openBrace kind, kind]
      rfl
    | closeBrace =>
      obtain ⟨name, line, nested, args⟩ := b
      cases nested with
      | zero =>
        refine proceeds_of_goesOn
          (y := ⟨pos + 1, opened, none, found ++ [⟨name, args.source, args.version, line⟩]⟩)
          (by simp only [turn, innerTurn, here, kind, past]) further inside ?_
        rw [outcome_outer next, now, rest, moduleBody_of_close kind, kind]
        simp only [Except.bind, TokenKind.startsLine, List.append_assoc, List.singleton_append]
      | succ nested =>
        refine proceeds_of_goesOn (y := ⟨pos + 1, opened, some ⟨name, line, nested, args⟩, found⟩)
          (by simp only [turn, innerTurn, here, kind, past]) further inside ?_
        rw [outcome_inner next, now, rest, moduleBody_closeBrace kind, kind]
        rfl
    | ident argument =>
      -- only a name at the start of a line and directly in the block begins an argument
      by_cases own : b.nested = 0 ∧ lineStart = true
      · obtain ⟨name, line, nested, args⟩ := b
        obtain ⟨rfl, rfl⟩ := own
        exact proceeds_argument here kind starts
      · refine proceeds_inner_pass here ?_ starts ?_
        · by_cases direct : b.nested = 0
          · have inLine : lineStart = false := by simpa [direct] using own
            simp [turn, innerTurn, here, kind, direct, starts, inLine, past]
          · simp [turn, innerTurn, here, kind, direct, past]
        · rw [moduleBody_ident_drop kind here, if_neg (fun all => own ⟨all.1, all.2.1⟩), kind]
          rfl
    | str | heredoc | equals | newline | other =>
      refine proceeds_inner_pass here (by simp [turn, innerTurn, here, kind, past]) starts ?_
      rw [rest, moduleBody_other (by simp [kind]) (by simp [kind]) (by simp [kind])]

/-- Every turn proceeds. -/
theorem proceeds (inRange : r.pos ≤ tokens.length) : ProceedsFrom tokens r := by
  obtain ⟨pos, opened, block, found⟩ := r
  cases block with
  | none => exact proceeds_outer inRange
  | some b => exact proceeds_inner inRange

end Running

end Scanning

/-- The scanner comes to the module blocks of the tokens, further on with every turn and always in
the stream. -/
theorem runsInRange_blocks (tokens : List Token) : RunsInRange (Scanning.turn tokens) Scanning.pos
    tokens.length Scanning.start (blocks [] true tokens) := by
  have ends : Scanning.start.outcome tokens = blocks [] true tokens := by
    refine (Scanning.outcome_outer rfl).trans ?_
    rw [List.drop_zero]
    cases blocks [] true tokens <;> rfl
  rw [← ends]
  exact runsInRange (fun _ inRange => inRange) (fun _ inRange => Scanning.proceeds inRange)
    (Nat.zero_le _)

/-- Reading any text and scanning any tokens comes to an end: every turn of either loop, in whatever
the loop is within, comes further or ends the loop, none passes the end, and no character, token or
slice is asked for that is not there. The loops end with the tokens of the text and with the module
blocks of the tokens. -/
theorem readers_runInRange :
    (∀ text : String, RunsInRange (Reading.turn text.toList) Reading.pos text.toList.length
      Reading.start (tokenize text)) ∧
    ∀ tokens : List Token, RunsInRange (Scanning.turn tokens) Scanning.pos tokens.length
      Scanning.start (blocks [] true tokens) :=
  ⟨runsInRange_tokenize, runsInRange_blocks⟩

end TerraDeps.Native
