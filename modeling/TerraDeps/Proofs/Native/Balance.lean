import TerraDeps.Proofs.Native.Blocks

/-!
# When a scan succeeds

The braces of a stream are counted by two readers, which hand over to each other at every module
header. Together they accept one condition on the whole stream: its braces balance, and the body of
every module block has at most one `source`, which is a string without templates. A balanced stream
is therefore refused for a `source` only.
-/

set_option autoImplicit false

namespace TerraDeps.Native

/-- No prefix closes more braces than it opens, and in the end all are closed. -/
structure IsBalanced (tokens : List Token) : Prop where
  nonneg : ∀ p, 0 ≤ depth tokens p
  closed : depth tokens tokens.length = 0

/-- The block whose header starts at `p` has at most one `source`, and that is a string without
templates. -/
structure HasPlainSource (tokens : List Token) (p : ℕ) : Prop where
  atMostOne : (arguments tokens p "source").Subsingleton
  literal : ∀ q ∈ arguments tokens p "source",
    ∃ text, kindAt? tokens (q + 2) = some (.str text false)

variable {tokens rest body after : List Token} {t e : Token} {p q opened nested line : ℕ}
  {lineStart : Bool} {args : Arguments} {name argument : String} {block : ModuleBlock}
  {err : ScanError}

/-- Behind the last token the depth is that of all tokens. -/
theorem depth_of_drop_eq_nil (h : tokens.drop q = []) :
    depth tokens tokens.length = depth tokens q := by
  have past : tokens.length ≤ q := List.drop_eq_nil_iff.mp h
  rw [depth, depth, List.take_length, List.take_of_length_le past]

/-- A token that is no brace does not change the depth. -/
theorem depth_succ_of_kindAt {kind : TokenKind} (h : kindAt? tokens q = some kind)
    (notOpen : kind ≠ .openBrace) (notClose : kind ≠ .closeBrace) :
    depth tokens (q + 1) = depth tokens q := by
  cases drop : tokens.drop q with
  | nil => simp [kindAt_eq_head? drop] at h
  | cons t rest =>
    rw [kindAt_of_drop drop, Option.some_inj] at h
    rw [depth_succ drop, h, if_neg notOpen, if_neg notClose]
    omega

/-- A stream that ends while braces are open does not balance. -/
theorem Reached.not_isBalanced (atEnd : Reached tokens q (opened + 1) lineStart []) :
    ¬ IsBalanced tokens := by
  intro balanced
  have closed := balanced.closed
  rw [depth_of_drop_eq_nil atEnd.drop, atEnd.depth] at closed
  omega

/-- A block whose source is read has at most one, without templates. -/
theorem hasPlainSource_of_isSource {source : Option String}
    (h : IsSource tokens (arguments tokens p "source") source) : HasPlainSource tokens p := by
  cases source with
  | none =>
    have noSource : arguments tokens p "source" = ∅ := h
    refine ⟨?_, ?_⟩
    · rw [noSource]
      exact Set.subsingleton_empty
    · intro q isArgument
      rw [noSource] at isArgument
      exact absurd isArgument (Set.notMem_empty q)
  | some text =>
    obtain ⟨q, single, literal⟩ := h
    refine ⟨?_, ?_⟩
    · rw [single]
      exact Set.subsingleton_singleton
    · intro r isArgument
      rw [single] at isArgument
      obtain rfl : r = q := isArgument
      exact ⟨text, literal⟩

/-- An argument is refused only if it is a `source`, and one that is not the first or no literal. -/
theorem Arguments.eq_of_add_eq_error {value : Option TokenKind}
    (h : args.add name argument line value = .error err) :
    argument = "source" ∧
      ((args.source ≠ none ∧ err.problem = .duplicateSource name) ∨
        ((∀ text, value ≠ some (.str text false)) ∧ err.problem = .sourceNotLiteral name)) := by
  unfold Arguments.add at h
  split at h
  · rename_i isSource
    refine ⟨isSource, ?_⟩
    split at h
    · rename_i second
      refine .inl ⟨Option.isSome_iff_ne_none.mp second, ?_⟩
      rw [← Except.error.inj h]
    · split at h
      · simp at h
      · rename_i notLiteral
        refine .inr ⟨notLiteral, ?_⟩
        rw [← Except.error.inj h]
  · split at h
    · split at h <;> simp at h
    · simp at h

/-- What refuses an argument is wrong with the `source` of the block. -/
theorem BodyInvariant.not_hasPlainSource
    (inv : BodyInvariant tokens p q 0 true args (t :: e :: rest))
    (kind : t.kind = .ident argument) (equals : e.kind = .equals)
    (refused : args.add name argument line (rest.head?.map Token.kind) = .error err) :
    ¬ HasPlainSource tokens p ∧
      (err.problem = .duplicateSource name ∨ err.problem = .sourceNotLiteral name) := by
  obtain ⟨rfl, cause⟩ := Arguments.eq_of_add_eq_error refused
  have here : q ∈ arguments tokens p "source" := inv.isArgument kind equals
  obtain ⟨notFirst, problem⟩ | ⟨notLiteral, problem⟩ := cause
  · refine ⟨fun plain => ?_, .inl problem⟩
    obtain ⟨text, found⟩ := Option.ne_none_iff_exists'.mp notFirst
    have source := inv.source
    rw [found] at source
    obtain ⟨r, positions, -⟩ := source
    have earlier : r ∈ argumentsBefore tokens p "source" q := by
      rw [positions]
      exact Set.mem_singleton r
    have same : r = q := plain.atMostOne earlier.1 here
    exact absurd earlier.2 (by omega)
  · refine ⟨fun plain => ?_, .inr problem⟩
    obtain ⟨text, literal⟩ := plain.literal q here
    have drop := drop_succ_of_drop (drop_succ_of_drop inv.reached.drop)
    rw [kindAt_eq_head? drop] at literal
    exact notLiteral text literal

/-- A body is refused because it does not end or because of its `source`. -/
theorem not_isBalanced_or_of_moduleBody
    (inv : BodyInvariant tokens p q nested lineStart args rest)
    (h : moduleBody name line nested lineStart args rest = .error err) :
    ¬ IsBalanced tokens ∨ ¬ HasPlainSource tokens p ∧
      (err.problem = .duplicateSource name ∨ err.problem = .sourceNotLiteral name) := by
  -- the invariant keeps what was read of the body in terms of the whole stream, so that a refusal
  -- in the rest speaks of the stream too
  fun_induction moduleBody name line nested lineStart args rest generalizing q with
  | case1 => exact .inl inv.reached.not_isBalanced
  | case2 nested lineStart args t rest kind ih =>
    refine ih (q := q + 1) ?_ h
    exact inv.pass (inv.reached.openBrace kind) (inv.not_isArgument (by simp [kind]))
  | case3 => simp at h
  | case4 lineStart args t rest kind nested ih =>
    refine ih (q := q + 1) ?_ h
    exact inv.pass (inv.reached.closeBrace kind) (inv.not_isArgument (by simp [kind]))
  | case5 nested lineStart args t argument kind e rest reads cause refused =>
    obtain ⟨rfl, rfl, equals⟩ := reads
    rw [Except.error.inj h] at refused
    exact .inr (inv.not_hasPlainSource kind equals refused)
  | case6 nested lineStart args t argument kind e rest reads more added ih =>
    obtain ⟨rfl, rfl, equals⟩ := reads
    exact ih (inv.add kind equals added) h
  | case7 nested lineStart args t argument kind e rest reads ih =>
    exact ih (inv.passName kind reads) h
  | case8 nested lineStart args t argument kind =>
    have atEnd := inv.reached.other (by simp [kind]) (by simp [kind])
    exact .inl atEnd.not_isBalanced
  | case9 nested lineStart args t rest notOpen notClose notName ih =>
    refine ih (q := q + 1) ?_ h
    exact inv.pass (inv.reached.other notOpen notClose) (inv.not_isArgument notName)

/-- A stream is refused because its braces do not balance or because of the `source` of a block. -/
theorem not_isBalanced_or_of_blocks {opened : List ℕ}
    (atQ : Reached tokens q opened.length lineStart rest)
    (h : blocks opened lineStart rest = .error err) :
    ¬ IsBalanced tokens ∨ ∃ p name, IsHeader tokens p name ∧ ¬ HasPlainSource tokens p ∧
      (err.problem = .duplicateSource name ∨ err.problem = .sourceNotLiteral name) := by
  fun_induction blocks opened lineStart rest generalizing q err with
  | case1 => simp at h
  | case2 lineStart line opened => exact .inl atQ.not_isBalanced
  | case3 opened lineStart t rest kind ih => exact ih (q := q + 1) (atQ.openBrace kind) h
  | case4 lineStart t rest kind =>
    refine .inl fun balanced => ?_
    have below := balanced.nonneg (q + 1)
    rw [depth_succ atQ.drop, atQ.depth, kind] at below
    simp at below
  | case5 lineStart t rest kind line opened ih => exact ih (q := q + 1) (atQ.closeBrace kind) h
  | case6 opened lineStart t rest noHeader notOpen notClose starts ih =>
    have next := atQ.other notOpen notClose
    rw [starts.1] at next
    exact ih (q := q + 1) next h
  | case7 opened lineStart t rest name body named cause refused notOpen notClose starts =>
    -- the body of a block was refused, which the reader of bodies answers for
    obtain ⟨keyword, rfl, rfl⟩ := starts
    rw [Except.error.inj h] at refused
    have header := (isHeader_iff atQ).mpr ⟨keyword, rfl, rfl, body, named⟩
    have inv := bodyInvariant_start header atQ named
    obtain unbalanced | wrong := not_isBalanced_or_of_moduleBody inv refused
    · exact .inl unbalanced
    · exact .inr ⟨q, name, header, wrong⟩
  | case8 opened lineStart t rest name body named block after read notOpen notClose starts ih =>
    obtain ⟨keyword, rfl, rfl⟩ := starts
    have header := (isHeader_iff atQ).mpr ⟨keyword, rfl, rfl, body, named⟩
    obtain ⟨e, -, -, atE, -⟩ := isBlock_of_moduleBody header atQ named read
    cases later : blocks [] true after with
    | error cause =>
      simp only [later, Except.map, Except.error.injEq] at h
      exact ih atE (h ▸ later)
    | ok found => simp [later, Except.map] at h
  | case9 opened lineStart t rest notOpen notClose noHeader ih =>
    exact ih (q := q + 1) (atQ.other notOpen notClose) h

/-- Up to the end of a block that is read to its closing brace, no brace is closed that was not
opened. -/
theorem depth_nonneg_of_moduleBody (header : IsHeader tokens p name)
    (atP : Reached tokens p 0 lineStart (t :: rest))
    (found : header? rest = some (name, body))
    (read : moduleBody name t.line 0 true {} body = .ok (block, after)) :
    ∃ q, Reached tokens q 0 true after ∧ ∀ r, p ≤ r → r < q → 0 ≤ depth tokens r := by
  obtain ⟨q, next, args, brace, inv, closes, -⟩ :=
    bodyInvariant_of_moduleBody (bodyInvariant_start header atP found) read
  refine ⟨q + 1, inv.reached.closeBrace closes, fun r fromHeader beforeEnd => ?_⟩
  have atLabel : depth tokens (p + 1) = 0 := by
    rw [depth_succ_of_kindAt header.keyword (by simp) (by simp), header.topLevel]
  have atBrace : depth tokens (p + 2) = 0 := by
    obtain label | label := header.label
    all_goals rw [depth_succ_of_kindAt label (by simp) (by simp), atLabel]
  by_cases inside : p + 3 ≤ r
  · exact Int.le_of_lt (inv.notClosed r inside (by omega))
  · have inHeader : r = p ∨ r = p + 1 ∨ r = p + 2 := by omega
    obtain rfl | rfl | rfl := inHeader
    · exact Int.le_of_eq header.topLevel.symm
    · exact Int.le_of_eq atLabel.symm
    · exact Int.le_of_eq atBrace.symm

/-- From `q` on no brace is closed that was not opened, and in the end all are closed. -/
structure IsBalancedFrom (tokens : List Token) (q : ℕ) : Prop where
  nonneg : ∀ r, q ≤ r → 0 ≤ depth tokens r
  closed : depth tokens tokens.length = 0

/-- Behind the last token all is balanced if no brace is open. -/
theorem isBalancedFrom_of_drop_eq_nil (h : tokens.drop q = []) (level : depth tokens q = 0) :
    IsBalancedFrom tokens q where
  nonneg r fromHere := by
    have past : tokens.drop r = [] :=
      List.drop_eq_nil_iff.mpr (Nat.le_trans (List.drop_eq_nil_iff.mp h) fromHere)
    rw [← depth_of_drop_eq_nil past, depth_of_drop_eq_nil h, level]
  closed := by rw [depth_of_drop_eq_nil h, level]

/-- What is balanced from a later position on is so from an earlier one if no depth between them is
below 0. -/
theorem IsBalancedFrom.of_le (later : IsBalancedFrom tokens p)
    (within : ∀ r, q ≤ r → r < p → 0 ≤ depth tokens r) : IsBalancedFrom tokens q where
  nonneg r fromHere := by
    by_cases inside : r < p
    · exact within r fromHere inside
    · exact later.nonneg r (Nat.le_of_not_lt inside)
  closed := later.closed

/-- A position that is reached has a depth of 0 or more, and so can be put before what is balanced.
-/
theorem Reached.isBalancedFrom (atQ : Reached tokens q opened lineStart rest)
    (later : IsBalancedFrom tokens (q + 1)) : IsBalancedFrom tokens q := by
  refine later.of_le fun r fromHere beforeNext => ?_
  obtain rfl : r = q := by omega
  rw [atQ.depth]
  omega

/-- What is read to its end closes the braces it opens and no others. -/
theorem isBalancedFrom_of_blocks {opened : List ℕ} {found : List ModuleBlock}
    (atQ : Reached tokens q opened.length lineStart rest)
    (h : blocks opened lineStart rest = .ok found) : IsBalancedFrom tokens q := by
  fun_induction blocks opened lineStart rest generalizing q found with
  | case1 => exact isBalancedFrom_of_drop_eq_nil atQ.drop atQ.depth
  | case2 => simp at h
  | case3 opened lineStart t rest kind ih =>
    exact atQ.isBalancedFrom (ih (atQ.openBrace kind) h)
  | case4 => simp at h
  | case5 lineStart t rest kind line opened ih =>
    exact atQ.isBalancedFrom (ih (atQ.closeBrace kind) h)
  | case6 opened lineStart t rest noHeader notOpen notClose starts ih =>
    have next := atQ.other notOpen notClose
    rw [starts.1] at next
    exact atQ.isBalancedFrom (ih next h)
  | case7 => simp at h
  | case8 opened lineStart t rest name body named block after read notOpen notClose starts ih =>
    obtain ⟨keyword, rfl, rfl⟩ := starts
    have header := (isHeader_iff atQ).mpr ⟨keyword, rfl, rfl, body, named⟩
    obtain ⟨e, atE, within⟩ := depth_nonneg_of_moduleBody header atQ named read
    cases later : blocks [] true after with
    | error err => simp [later, Except.map] at h
    | ok more => exact (ih atE later).of_le within
  | case9 opened lineStart t rest notOpen notClose noHeader ih =>
    exact atQ.isBalancedFrom (ih (atQ.other notOpen notClose) h)

/-- Tokens whose blocks are read are balanced. -/
theorem isBalanced_of_blocks {found : List ModuleBlock} (h : blocks [] true tokens = .ok found) :
    IsBalanced tokens := by
  have fromStart := isBalancedFrom_of_blocks (reached_start tokens) h
  exact ⟨fun p => fromStart.nonneg p (Nat.zero_le p), fromStart.closed⟩

/-- Every block that is read has at most one source, without templates. -/
theorem hasPlainSource_of_blocks {found : List ModuleBlock}
    (h : blocks [] true tokens = .ok found) (header : IsHeader tokens p name) :
    HasPlainSource tokens p := by
  obtain ⟨positions, -, mem_iff, areBlocks⟩ := areBlocksFrom_of_blocks (reached_start tokens) h
  have listed : p ∈ positions := (mem_iff p).mpr ⟨Nat.zero_le p, name, header⟩
  obtain ⟨i, bound, rfl⟩ := List.mem_iff_getElem.mp listed
  have isBlock := areBlocks.get (i := i) bound (areBlocks.length_eq ▸ bound)
  exact hasPlainSource_of_isSource isBlock.source

/-- A scan succeeds exactly on the texts whose braces balance and whose module blocks have at most
one `source` each, a string without templates; it refuses a text whose braces balance for the
`source` of one of its blocks. -/
theorem scan_isOk_iff {text : String} (h : tokenize text = .ok tokens) :
    ((∃ found, scan text = .ok found) ↔
      IsBalanced tokens ∧ ∀ p name, IsHeader tokens p name → HasPlainSource tokens p) ∧
    (IsBalanced tokens → ∀ err, scan text = .error err →
      ∃ p name, IsHeader tokens p name ∧ ¬ HasPlainSource tokens p ∧
        (err.problem = .duplicateSource name ∨ err.problem = .sourceNotLiteral name)) := by
  have scan_eq : scan text = blocks [] true tokens := by rw [scan, h]
  rw [scan_eq]
  have refused {err : ScanError} (h : blocks [] true tokens = .error err) :=
    not_isBalanced_or_of_blocks (reached_start tokens) h
  refine ⟨⟨?_, ?_⟩, ?_⟩
  · rintro ⟨found, accepted⟩
    exact ⟨isBalanced_of_blocks accepted, fun p name => hasPlainSource_of_blocks accepted⟩
  · rintro ⟨balanced, plain⟩
    cases result : blocks [] true tokens with
    | ok found => exact ⟨found, rfl⟩
    | error err =>
      obtain unbalanced | ⟨p, name, header, notPlain, -⟩ := refused result
      · exact absurd balanced unbalanced
      · exact absurd (plain p name header) notPlain
  · intro balanced err result
    obtain unbalanced | wrong := refused result
    · exact absurd balanced unbalanced
    · exact wrong

/-- The block of this text has two `source` arguments, the second on its own line. -/
theorem scan_isOk_iff_second_source :
    let text := "module a \x7b source = \"./a\"\nsource = \"./b\" \x7d"
    let tokens : List Token := [⟨.ident "module", 1⟩, ⟨.ident "a", 1⟩, ⟨.openBrace, 1⟩,
      ⟨.ident "source", 1⟩, ⟨.equals, 1⟩, ⟨.str "./a" false, 1⟩, ⟨.newline, 1⟩,
      ⟨.ident "source", 2⟩, ⟨.equals, 2⟩, ⟨.str "./b" false, 2⟩, ⟨.closeBrace, 2⟩]
    tokenize text = .ok tokens ∧
    ((∃ found, scan text = .ok found) ↔
      IsBalanced tokens ∧ ∀ p name, IsHeader tokens p name → HasPlainSource tokens p) ∧
    (IsBalanced tokens → ∀ err, scan text = .error err →
      ∃ p name, IsHeader tokens p name ∧ ¬ HasPlainSource tokens p ∧
        (err.problem = .duplicateSource name ∨ err.problem = .sourceNotLiteral name)) := by
  intro text tokens
  have tokenized : tokenize text = .ok tokens := by decide +kernel
  exact ⟨tokenized, scan_isOk_iff tokenized⟩

end TerraDeps.Native
