import Mathlib.Data.List.Forall2
import TerraDeps.Proofs.Native.Positions

/-!
# The module blocks that a scan finds

Two readers count braces, one between the module blocks and one inside them. The reader of a body
keeps `BodyInvariant`: the body has not ended, and the arguments it has read are those at the
positions behind it, so that at the closing brace they are all the block's arguments. The reader of
the stream leaves out no header, because none starts between a header and that brace; what a scan
finds is therefore one block for each header of the stream, in order.
-/

set_option autoImplicit false

namespace TerraDeps.Native

variable {tokens rest body after : List Token} {t e : Token} {p q opened nested line : ℕ}
  {lineStart next : Bool} {args more : Arguments} {name argument : String} {block : ModuleBlock}

/-- The positions before `q` of a block's arguments of a name. -/
def argumentsBefore (tokens : List Token) (p : ℕ) (argument : String) (q : ℕ) : Set ℕ :=
  {r | IsArgument tokens p argument r ∧ r < q}

/-- No argument stands before the body of a block. -/
theorem argumentsBefore_body (tokens : List Token) (p : ℕ) (argument : String) :
    argumentsBefore tokens p argument (p + 3) = ∅ := by
  apply Set.eq_empty_of_forall_notMem
  rintro r ⟨isArgument, before⟩
  have := isArgument.inBody
  omega

/-- A token that is no argument adds none. -/
theorem argumentsBefore_succ_of_not (h : ¬ IsArgument tokens p argument q) :
    argumentsBefore tokens p argument (q + 1) = argumentsBefore tokens p argument q := by
  ext r
  constructor
  · rintro ⟨isArgument, before⟩
    have different : r ≠ q := by
      rintro rfl
      exact h isArgument
    exact ⟨isArgument, by omega⟩
  · rintro ⟨isArgument, before⟩
    exact ⟨isArgument, by omega⟩

/-- An argument joins those before it. -/
theorem argumentsBefore_succ (h : IsArgument tokens p argument q) :
    argumentsBefore tokens p argument (q + 1) =
      insert q (argumentsBefore tokens p argument q) := by
  ext r
  constructor
  · rintro ⟨isArgument, before⟩
    obtain rfl | earlier := Nat.lt_succ_iff_lt_or_eq.mp before |>.symm
    · exact .inl rfl
    · exact .inr ⟨isArgument, earlier⟩
  · rintro (rfl | ⟨isArgument, before⟩)
    · exact ⟨h, by omega⟩
    · exact ⟨isArgument, by omega⟩

/-- The name at an argument is that of the argument. -/
theorem IsArgument.eq_of_kindAt {other : String} (h : IsArgument tokens p other q)
    (kind : kindAt? tokens q = some (.ident argument)) : other = argument := by
  have same := h.name
  rw [kind] at same
  simpa using same.symm

/-- No argument starts with the `=` of one. -/
theorem IsArgument.not_succ (h : IsArgument tokens p argument q) (other : String) :
    ¬ IsArgument tokens p other (q + 1) := by
  intro isOther
  have same := isOther.name
  rw [h.equals] at same
  simp at same

/-- Past an argument, its position is added to those of its name and no other position is. -/
theorem IsArgument.argumentsBefore_eq (h : IsArgument tokens p argument q) (other : String) :
    argumentsBefore tokens p other (q + 2) =
      if other = argument then insert q (argumentsBefore tokens p other q)
      else argumentsBefore tokens p other q := by
  rw [argumentsBefore_succ_of_not (h.not_succ other)]
  split
  · rename_i same
    exact argumentsBefore_succ (same ▸ h)
  · rename_i different
    exact argumentsBefore_succ_of_not fun isOther => different (isOther.eq_of_kindAt h.name)

/-- The first source that is read is the source of the block. -/
theorem IsSource.insert {positions : Set ℕ} {text : String}
    (h : IsSource tokens positions none) (value : kindAt? tokens (q + 2) = some (.str text false)) :
    IsSource tokens (insert q positions) (some text) := by
  refine ⟨q, ?_, value⟩
  rw [show positions = ∅ from h, insert_empty_eq]

/-- The latest version that is read is the version of the block. -/
theorem IsVersion.insert {positions : Set ℕ} (earlier : ∀ r ∈ positions, r < q) :
    IsVersion tokens (insert q positions) (some (textOf (kindAt? tokens (q + 2)))) := by
  refine ⟨q, ⟨Set.mem_insert q positions, ?_⟩, rfl⟩
  rintro r (rfl | before)
  · exact Nat.le_refl r
  · exact Nat.le_of_lt (earlier r before)

/-- What adding an argument does to those read before. -/
theorem Arguments.eq_of_add {value : Option TokenKind}
    (h : args.add name argument line value = .ok more) :
    (∃ text, argument = "source" ∧ args.source = none ∧ value = some (.str text false) ∧
      more = { args with source := some text }) ∨
    (argument = "version" ∧ more = { args with version := some (textOf value) }) ∨
    (argument ≠ "source" ∧ argument ≠ "version" ∧ more = args) := by
  unfold Arguments.add at h
  split at h
  · rename_i isSource
    split at h
    · simp at h
    rename_i first
    split at h
    · rename_i text
      exact .inl ⟨text, isSource, by simpa using first, rfl, (Except.ok.inj h).symm⟩
    · simp at h
  split at h
  · rename_i isVersion
    refine .inr (.inl ⟨isVersion, ?_⟩)
    split at h
    · exact (Except.ok.inj h).symm
    · rename_i noText
      have empty : textOf value = "" := by
        unfold textOf
        split
        · rename_i text templated
          exact absurd rfl (noText text templated)
        · rfl
      rw [empty]
      exact (Except.ok.inj h).symm
  · rename_i notSource notVersion
    exact .inr (.inr ⟨notSource, notVersion, (Except.ok.inj h).symm⟩)

/-- What holds at every moment of reading the body of the block whose header starts at `p`: the
reader stands at `q`, inside the body, and has read the arguments before `q`. -/
structure BodyInvariant (tokens : List Token) (p q nested : ℕ) (lineStart : Bool)
    (args : Arguments) (rest : List Token) : Prop where
  reached : Reached tokens q (nested + 1) lineStart rest
  inBody : p + 3 ≤ q
  notClosed : ∀ r, p + 3 ≤ r → r ≤ q → 0 < depth tokens r
  source : IsSource tokens (argumentsBefore tokens p "source" q) args.source
  version : IsVersion tokens (argumentsBefore tokens p "version" q) args.version

namespace BodyInvariant

/-- Going on from a token that no argument starts with keeps the invariant. -/
theorem pass {nested' : ℕ} (inv : BodyInvariant tokens p q nested lineStart args (t :: rest))
    (reached : Reached tokens (q + 1) (nested' + 1) next rest)
    (harmless : ∀ argument, ¬ IsArgument tokens p argument q) :
    BodyInvariant tokens p (q + 1) nested' next args rest where
  reached := reached
  inBody := Nat.le_succ_of_le inv.inBody
  notClosed r first last := by
    obtain rfl | earlier := Nat.le_succ_iff.mp last |>.symm
    · rw [reached.depth]
      omega
    · exact inv.notClosed r first earlier
  source := by
    rw [argumentsBefore_succ_of_not (harmless _)]
    exact inv.source
  version := by
    rw [argumentsBefore_succ_of_not (harmless _)]
    exact inv.version

/-- Only a name is an argument. -/
theorem not_isArgument (inv : BodyInvariant tokens p q nested lineStart args (t :: rest))
    (kind : ∀ name, t.kind ≠ .ident name) (argument : String) :
    ¬ IsArgument tokens p argument q := by
  intro isArgument
  have same := isArgument.name
  rw [inv.reached.kindAt, Option.some_inj] at same
  exact kind argument same

/-- A name that starts a line directly inside a block, with an equals sign behind it, is an
argument. -/
theorem isArgument (inv : BodyInvariant tokens p q 0 true args (t :: e :: rest))
    (kind : t.kind = .ident argument) (equals : e.kind = .equals) :
    IsArgument tokens p argument q where
  inBody := inv.inBody
  notClosed := inv.notClosed
  direct := inv.reached.depth
  lineStart := inv.reached.lineStart_iff.mp rfl
  name := by rw [inv.reached.kindAt, kind]
  equals := by
    rw [kindAt_of_drop (drop_succ_of_drop inv.reached.drop), equals]

/-- Going on from a name that starts no argument keeps the invariant. -/
theorem passName (inv : BodyInvariant tokens p q nested lineStart args (t :: e :: rest))
    (kind : t.kind = .ident argument)
    (reads : ¬ (nested = 0 ∧ lineStart = true ∧ e.kind = .equals)) :
    BodyInvariant tokens p (q + 1) nested false args (e :: rest) := by
  have reached := inv.reached.other (by simp [kind]) (by simp [kind])
  rw [kind] at reached
  refine inv.pass reached fun other isArgument => reads ?_
  have direct := isArgument.direct
  rw [inv.reached.depth] at direct
  have equals := isArgument.equals
  rw [kindAt_of_drop (drop_succ_of_drop inv.reached.drop), Option.some_inj] at equals
  exact ⟨by omega, inv.reached.lineStart_iff.mpr isArgument.lineStart, equals⟩

/-- Reading an argument keeps the invariant. -/
theorem add (inv : BodyInvariant tokens p q 0 true args (t :: e :: rest))
    (kind : t.kind = .ident argument) (equals : e.kind = .equals)
    (added : args.add name argument line (rest.head?.map Token.kind) = .ok more) :
    BodyInvariant tokens p (q + 2) 0 false more rest := by
  have isArgument := inv.isArgument kind equals
  have atEquals : Reached tokens (q + 1) 1 false (e :: rest) := by
    have := inv.reached.other (by simp [kind]) (by simp [kind])
    rwa [kind] at this
  have atValue : Reached tokens (q + 2) 1 false rest := by
    have := atEquals.other (by simp [equals]) (by simp [equals])
    rwa [equals] at this
  have value : rest.head?.map Token.kind = kindAt? tokens (q + 2) :=
    (kindAt_eq_head? atValue.drop).symm
  rw [value] at added
  refine ⟨atValue, by have := inv.inBody; omega, ?_, ?_, ?_⟩
  -- the name and the `=` are no braces, so that the body is open up to the value
  · intro r first last
    by_cases earlier : r ≤ q
    · exact inv.notClosed r first earlier
    · have late : r = q + 1 ∨ r = q + 2 := by omega
      obtain rfl | rfl := late
      · rw [atEquals.depth]
        decide
      · rw [atValue.depth]
        decide
  · have source := inv.source
    rw [isArgument.argumentsBefore_eq]
    obtain ⟨text, rfl, first, literal, rfl⟩ | ⟨rfl, rfl⟩ | ⟨notSource, -, rfl⟩ :=
      Arguments.eq_of_add added
    · rw [first] at source
      exact source.insert literal
    · exact source
    · rw [if_neg (Ne.symm notSource)]
      exact source
  · have version := inv.version
    rw [isArgument.argumentsBefore_eq]
    obtain ⟨text, rfl, -, -, rfl⟩ | ⟨rfl, rfl⟩ | ⟨-, notVersion, rfl⟩ :=
      Arguments.eq_of_add added
    · exact version
    · exact IsVersion.insert fun r before => before.2
    · rw [if_neg (Ne.symm notVersion)]
      exact version

end BodyInvariant

/-- A body that is read to its end keeps the invariant up to the closing brace. -/
theorem bodyInvariant_of_moduleBody
    (inv : BodyInvariant tokens p q nested lineStart args rest)
    (h : moduleBody name line nested lineStart args rest = .ok (block, after)) :
    ∃ r next more t, BodyInvariant tokens p r 0 next more (t :: after) ∧ t.kind = .closeBrace ∧
      block = ⟨name, more.source, more.version, line⟩ := by
  fun_induction moduleBody name line nested lineStart args rest generalizing q with
  | case1 => simp at h
  | case2 nested lineStart args t rest kind ih =>
    refine ih (q := q + 1) ?_ h
    exact inv.pass (inv.reached.openBrace kind) (inv.not_isArgument (by simp [kind]))
  | case3 lineStart args t rest kind =>
    obtain ⟨rfl, rfl⟩ := Prod.mk.inj (Except.ok.inj h)
    exact ⟨q, lineStart, args, t, inv, kind, rfl⟩
  | case4 lineStart args t rest kind nested ih =>
    refine ih (q := q + 1) ?_ h
    exact inv.pass (inv.reached.closeBrace kind) (inv.not_isArgument (by simp [kind]))
  | case5 => simp at h
  | case6 nested lineStart args t argument kind e rest reads more added ih =>
    obtain ⟨rfl, rfl, equals⟩ := reads
    exact ih (inv.add kind equals added) h
  | case7 nested lineStart args t argument kind e rest reads ih =>
    exact ih (inv.passName kind reads) h
  | case8 => simp at h
  | case9 nested lineStart args t rest notOpen notClose notName ih =>
    refine ih (q := q + 1) ?_ h
    exact inv.pass (inv.reached.other notOpen notClose) (inv.not_isArgument notName)

/-- A body that has ended has no arguments but those before its closing brace. -/
theorem BodyInvariant.arguments_eq (inv : BodyInvariant tokens p q 0 lineStart args (t :: rest))
    (closes : t.kind = .closeBrace) (argument : String) :
    arguments tokens p argument = argumentsBefore tokens p argument q := by
  ext r
  constructor
  · intro isArgument
    refine ⟨isArgument, ?_⟩
    by_contra late
    obtain rfl | after := Nat.eq_or_lt_of_not_lt late
    · exact inv.not_isArgument (by simp [closes]) argument isArgument
    · have openAfter := isArgument.notClosed (q + 1) (Nat.le_succ_of_le inv.inBody) after
      rw [(inv.reached.closeBrace closes).depth] at openAfter
      simp at openAfter
  · rintro ⟨isArgument, -⟩
    exact isArgument

/-- A label is a string without templates or a name. -/
theorem label?_eq_some_iff {kind : TokenKind} :
    kind.label? = some name ↔ kind = .str name false ∨ kind = .ident name := by
  cases kind with
  | ident other => simp [TokenKind.label?]
  | str text templated => cases templated <;> simp [TokenKind.label?]
  | _ => simp [TokenKind.label?]

/-- A header is told by its keyword and the two tokens after it. -/
theorem isHeader_iff (atQ : Reached tokens q opened lineStart (t :: rest)) :
    IsHeader tokens q name ↔ t.kind = .ident "module" ∧ opened = 0 ∧ lineStart = true ∧
      ∃ body, header? rest = some (name, body) := by
  have drop := drop_succ_of_drop atQ.drop
  constructor
  · intro header
    have keyword := header.keyword
    rw [atQ.kindAt, Option.some_inj] at keyword
    have topLevel := header.topLevel
    rw [atQ.depth] at topLevel
    refine ⟨keyword, by omega, atQ.lineStart_iff.mpr header.lineStart, ?_⟩
    have labelled := header.label
    rw [kindAt_eq_head? drop] at labelled
    cases rest with
    | nil => simp at labelled
    | cons label rest =>
      have opens := header.brace
      rw [kindAt_eq_head? (drop_succ_of_drop drop)] at opens
      cases rest with
      | nil => simp at opens
      | cons brace body =>
        refine ⟨body, header?_eq_some_iff.mpr ⟨label, brace, rfl, ?_, ?_⟩⟩
        · simpa [label?_eq_some_iff] using labelled
        · simpa using opens
  · rintro ⟨keyword, rfl, rfl, body, found⟩
    obtain ⟨label, brace, rfl, labelled, opens⟩ := header?_eq_some_iff.mp found
    refine ⟨atQ.depth, atQ.lineStart_iff.mp rfl, ?_, ?_, ?_⟩
    · rw [atQ.kindAt, keyword]
    · rw [kindAt_of_drop drop, Option.some_inj, Option.some_inj]
      exact label?_eq_some_iff.mp labelled
    · rw [kindAt_of_drop (drop_succ_of_drop drop), opens]

/-- Before the first token of a body no argument has been read. -/
theorem bodyInvariant_start (header : IsHeader tokens p name)
    (atP : Reached tokens p 0 lineStart (t :: rest))
    (found : header? rest = some (name, after)) :
    BodyInvariant tokens p (p + 3) 0 true {} after := by
  obtain ⟨label, brace, rfl, labelled, opens⟩ := header?_eq_some_iff.mp found
  have atLabel : ∃ next, Reached tokens (p + 1) 0 next (label :: brace :: after) := by
    have keyword := header.keyword
    rw [atP.kindAt, Option.some_inj] at keyword
    exact ⟨_, atP.other (by simp [keyword]) (by simp [keyword])⟩
  obtain ⟨next, atLabel⟩ := atLabel
  have atBrace : ∃ next, Reached tokens (p + 2) 0 next (brace :: after) := by
    obtain kind | kind := label?_eq_some_iff.mp labelled
    all_goals exact ⟨_, atLabel.other (by simp [kind]) (by simp [kind])⟩
  obtain ⟨next, atBrace⟩ := atBrace
  have atBody := atBrace.openBrace opens
  refine ⟨atBody, Nat.le_refl _, ?_, ?_, ?_⟩
  · intro r first last
    obtain rfl : r = p + 3 := Nat.le_antisymm last first
    rw [atBody.depth]
    decide
  · exact argumentsBefore_body tokens p "source"
  · exact argumentsBefore_body tokens p "version"

/-- The blocks are, in order, those whose headers start at `q` or later. -/
def AreBlocksFrom (tokens : List Token) (q : ℕ) (found : List ModuleBlock) : Prop :=
  ∃ positions : List ℕ, positions.Pairwise (· < ·) ∧
    (∀ p, p ∈ positions ↔ q ≤ p ∧ ∃ name, IsHeader tokens p name) ∧
    List.Forall₂ (IsBlock tokens) positions found

/-- No block starts behind the last token. -/
theorem areBlocksFrom_nil (h : tokens.drop q = []) : AreBlocksFrom tokens q [] := by
  refine ⟨[], List.Pairwise.nil, fun p => ?_, List.Forall₂.nil⟩
  simp only [List.not_mem_nil, false_iff, not_and, not_exists]
  intro later name header
  have past : tokens.drop p = [] := by
    rw [List.drop_eq_nil_iff] at h ⊢
    omega
  have keyword := header.keyword
  rw [kindAt_eq_head? past] at keyword
  simp at keyword

/-- Where no header starts, the blocks are those that start later. -/
theorem AreBlocksFrom.of_succ {found : List ModuleBlock}
    (h : AreBlocksFrom tokens (q + 1) found) (noHeader : ∀ name, ¬ IsHeader tokens q name) :
    AreBlocksFrom tokens q found := by
  obtain ⟨positions, sorted, mem_iff, areBlocks⟩ := h
  refine ⟨positions, sorted, fun p => ?_, areBlocks⟩
  rw [mem_iff]
  constructor
  · rintro ⟨later, header⟩
    exact ⟨by omega, header⟩
  · rintro ⟨later, name, header⟩
    have different : p ≠ q := by
      rintro rfl
      exact noHeader name header
    exact ⟨by omega, name, header⟩

/-- A block goes before those that start later, if no other starts between them. -/
theorem AreBlocksFrom.cons {found : List ModuleBlock} (isBlock : IsBlock tokens p block)
    (after : p < q) (noHeader : ∀ r name, p < r → r < q → ¬ IsHeader tokens r name)
    (h : AreBlocksFrom tokens q found) : AreBlocksFrom tokens p (block :: found) := by
  obtain ⟨positions, sorted, mem_iff, areBlocks⟩ := h
  refine ⟨p :: positions, List.pairwise_cons.mpr ⟨fun r hr => ?_, sorted⟩, fun r => ?_,
    List.Forall₂.cons isBlock areBlocks⟩
  · exact Nat.lt_of_lt_of_le after ((mem_iff r).mp hr).1
  · rw [List.mem_cons, mem_iff]
    constructor
    · rintro (rfl | ⟨later, header⟩)
      · exact ⟨Nat.le_refl r, block.name, isBlock.header⟩
      · exact ⟨by omega, header⟩
    · rintro ⟨later, name, header⟩
      by_cases same : r = p
      · exact .inl same
      · have notWithin := noHeader r name
        exact .inr ⟨by by_contra; exact notWithin (by omega) (by omega) header, name, header⟩

/-- A block that is read to its closing brace is the block of its header, and no other header starts
before that brace. -/
theorem isBlock_of_moduleBody (header : IsHeader tokens p name)
    (atP : Reached tokens p 0 lineStart (t :: rest))
    (found : header? rest = some (name, body))
    (read : moduleBody name t.line 0 true {} body = .ok (block, after)) :
    ∃ q, p < q ∧ IsBlock tokens p block ∧ Reached tokens q 0 true after ∧
      ∀ r other, p < r → r < q → ¬ IsHeader tokens r other := by
  obtain ⟨q, next, args, brace, inv, closes, rfl⟩ :=
    bodyInvariant_of_moduleBody (bodyInvariant_start header atP found) read
  have inBody := inv.inBody
  refine ⟨q + 1, by omega, ⟨header, ?_, ?_, ?_⟩, inv.reached.closeBrace closes, ?_⟩
  · rw [getElem?_of_drop atP.drop, Option.map_some]
  · rw [inv.arguments_eq closes]
    exact inv.source
  · rw [inv.arguments_eq closes]
    exact inv.version
  · intro r other afterP beforeEnd isHeader
    by_cases inside : p + 3 ≤ r
    · have deep := inv.notClosed r inside (by omega)
      rw [isHeader.topLevel] at deep
      exact Int.lt_irrefl 0 deep
    · have inHeader : r = p + 1 ∨ r = p + 2 := by omega
      obtain rfl | rfl := inHeader
      · have starts := isHeader.lineStart
        rw [IsLineStart, header.keyword] at starts
        simp at starts
      · have keyword := isHeader.keyword
        rw [header.brace] at keyword
        simp at keyword

/-- The blocks of a stream are found from any position on. -/
theorem areBlocksFrom_of_blocks {opened : List ℕ} {found : List ModuleBlock}
    (atQ : Reached tokens q opened.length lineStart rest)
    (h : blocks opened lineStart rest = .ok found) : AreBlocksFrom tokens q found := by
  -- along the reader: but for a header it goes on by one token, where no header starts; at a header
  -- it goes on behind the block's closing brace
  fun_induction blocks opened lineStart rest generalizing q found with
  | case1 =>
    obtain rfl := Except.ok.inj h
    exact areBlocksFrom_nil atQ.drop
  | case2 => simp at h
  | case3 opened lineStart t rest kind ih =>
    refine (ih (q := q + 1) (atQ.openBrace kind) h).of_succ fun name header => ?_
    simp [((isHeader_iff atQ).mp header).1] at kind
  | case4 => simp at h
  | case5 lineStart t rest kind line opened ih =>
    refine (ih (q := q + 1) (atQ.closeBrace kind) h).of_succ fun name header => ?_
    simp [((isHeader_iff atQ).mp header).1] at kind
  | case6 opened lineStart t rest noHeader notOpen notClose starts ih =>
    have next := atQ.other notOpen notClose
    rw [starts.1] at next
    refine (ih (q := q + 1) next h).of_succ fun name header => ?_
    obtain ⟨-, -, -, body, named⟩ := (isHeader_iff atQ).mp header
    simp [noHeader] at named
  | case7 => simp at h
  | case8 opened lineStart t rest name body named block after read notOpen notClose starts ih =>
    obtain ⟨keyword, rfl, rfl⟩ := starts
    have header := (isHeader_iff atQ).mpr ⟨keyword, rfl, rfl, body, named⟩
    obtain ⟨e, behind, isBlock, atE, noHeader⟩ := isBlock_of_moduleBody header atQ named read
    cases restBlocks : blocks [] true after with
    | error err => simp [restBlocks, Except.map] at h
    | ok later =>
      simp only [restBlocks, Except.map, Except.ok.injEq] at h
      rw [← h]
      exact (ih atE restBlocks).cons isBlock behind noHeader
  | case9 opened lineStart t rest notOpen notClose noHeader ih =>
    refine (ih (q := q + 1) (atQ.other notOpen notClose) h).of_succ fun name header => ?_
    obtain ⟨keyword, topLevel, starts, -⟩ := (isHeader_iff atQ).mp header
    exact noHeader ⟨keyword, List.length_eq_zero_iff.mp topLevel, starts⟩

/-- A scan that succeeds finds the module blocks of the text: one for each header, in order. -/
theorem scan_ok {text : String} {found : List ModuleBlock} (h : scan text = .ok found) :
    ∃ tokens, tokenize text = .ok tokens ∧ ∃ positions : List ℕ,
      positions.Pairwise (· < ·) ∧ (∀ p, p ∈ positions ↔ ∃ name, IsHeader tokens p name) ∧
        List.Forall₂ (IsBlock tokens) positions found := by
  unfold scan at h
  cases tokenized : tokenize text with
  | error err => simp [tokenized] at h
  | ok tokens =>
    simp only [tokenized] at h
    obtain ⟨positions, sorted, mem_iff, areBlocks⟩ :=
      areBlocksFrom_of_blocks (reached_start tokens) h
    refine ⟨tokens, rfl, positions, sorted, fun p => ?_, areBlocks⟩
    simp [mem_iff]

/-- Of the second block, the nested `source` says nothing and the `version` is no string. -/
theorem scan_ok_two_blocks :
    ∃ tokens, tokenize ("module \"net\" \x7b\n  source = \"../net\"\n\x7d\n" ++
        "module db \x7b on \x7b source = 1 \x7d version = 2 \x7d\n") = .ok tokens ∧
      ∃ positions : List ℕ, positions.Pairwise (· < ·) ∧
        (∀ p, p ∈ positions ↔ ∃ name, IsHeader tokens p name) ∧
        List.Forall₂ (IsBlock tokens) positions
          [⟨"net", some "../net", none, 1⟩, ⟨"db", none, some "", 4⟩] :=
  scan_ok (by decide +kernel)

end TerraDeps.Native
