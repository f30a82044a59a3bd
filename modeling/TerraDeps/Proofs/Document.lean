import TerraDeps.Document.Blocks
import TerraDeps.Proofs.Json.Texts
import TerraDeps.Proofs.Native.Rendering

/-!
# The two syntaxes agree

A list of declarations can be given in either syntax: as lines of blocks, or as a JSON text of the
document that holds one group for each declaration. However strings are written in the two, both
scanners find the declarations again. Only a source with a template makes a difference, which JSON
has no way to write literally.
-/

set_option autoImplicit false

namespace TerraDeps

namespace Document

open Native (Declaration BlockLines joinLines)

/-! ## Documents of declarations -/

/-- The member of an argument, if the argument is given. -/
def argument (key : String) : Option String → List (String × Json)
  | none => []
  | some value => [(key, .string value)]

/-- The body of a declaration. -/
def bodyOf (d : Declaration) : Json :=
  .object (argument "source" d.source ++ argument "version" d.version)

/-- The group that holds the body of a declaration under its name. -/
def groupOf (d : Declaration) : Json :=
  .object [(d.name, bodyOf d)]

/-- The document that holds the groups of the declarations under the key `module`. -/
def documentOf (declarations : List Declaration) : Json :=
  .object [("module", .array (declarations.map groupOf))]

section Declarations

variable {d : Declaration} {declarations : List Declaration}

/-- The member `source` of a block's body is the declared source. -/
theorem get?_source : (bodyOf d).get? "source" = d.source.map Json.string := by
  obtain ⟨name, source, version⟩ := d
  cases source <;> cases version <;> rfl

/-- The member `version` of a block's body is the declared version. -/
theorem get?_version : (bodyOf d).get? "version" = d.version.map Json.string := by
  obtain ⟨name, source, version⟩ := d
  cases source <;> cases version <;> rfl

/-- The body of a block is one level deep. -/
theorem depth_bodyOf : (bodyOf d).depth = 1 := by
  obtain ⟨name, source, version⟩ := d
  cases source <;> cases version <;>
    simp [bodyOf, argument, Json.depth, Json.depthOfMembers]

/-- A document of declarations is four levels deep at most. -/
theorem depth_documentOf : (documentOf declarations).depth ≤ 4 := by
  have groups : Json.depthOfElements (declarations.map groupOf) ≤ 2 := by
    induction declarations with
    | nil => simp [Json.depthOfElements]
    | cons d declarations ih =>
      simp [Json.depthOfElements, groupOf, Json.depth, Json.depthOfMembers, depth_bodyOf, ih]
  simp only [documentOf, Json.depth, Json.depthOfMembers, Nat.max_zero]
  omega

/-- The value of an argument can be written. -/
theorem exists_writes_of_mem_argument {key : String} {value : Option String} {m : String × Json}
    (h : m ∈ argument key value) : ∃ w, Json.Writes (.value m.2) w := by
  cases value with
  | none => contradiction
  | some s =>
    rw [List.mem_singleton.mp h]
    exact Json.exists_writes_string s

/-- The body of a block can be written. -/
theorem exists_writes_bodyOf (d : Declaration) : ∃ w, Json.Writes (.value (bodyOf d)) w := by
  obtain ⟨name, source, version⟩ := d
  refine Json.exists_writes_object ?_ fun m hm => ?_
  · cases source <;> cases version <;> simp [argument]
  · rcases List.mem_append.mp hm with hm | hm <;> exact exists_writes_of_mem_argument hm

/-- Every document of declarations has a text. -/
theorem exists_isText (declarations : List Declaration) :
    ∃ text, Json.IsText (documentOf declarations) text := by
  have groups : ∃ w, Json.Writes (.value (.array (declarations.map groupOf))) w := by
    refine Json.exists_writes_array fun v hv => ?_
    obtain ⟨d, -, rfl⟩ := List.mem_map.mp hv
    exact Json.exists_writes_object (by simp) (by simpa using exists_writes_bodyOf d)
  have document : ∃ w, Json.Writes (.value (documentOf declarations)) w :=
    Json.exists_writes_object (by simp) (by simpa using groups)
  obtain ⟨w, written⟩ := Json.exists_writes_element document
  exact ⟨String.ofList w, by rwa [Json.IsText, String.toList_ofList]⟩

/-! ## Scanning them -/

/-- A template opens in the string. -/
def HasTemplate (s : String) : Prop :=
  ['$', '{'] <:+: s.toList ∨ ['%', '{'] <:+: s.toList

/-- The declaration has a source in which a template opens. -/
def SourceHasTemplate (d : Declaration) : Prop :=
  ∃ source, d.source = some source ∧ HasTemplate source

/-- A text is taken for templated exactly when it has the start of a template. -/
theorem isTemplated_iff {s : String} : isTemplated s = true ↔ HasTemplate s := by
  rw [isTemplated, Bool.or_eq_true, Text.occurs_iff, Text.occurs_iff, HasTemplate]

/-- A source is taken for templated exactly when it has the start of a template. -/
theorem any_isTemplated_iff : d.source.any isTemplated = true ↔ SourceHasTemplate d := by
  cases h : d.source <;> simp [SourceHasTemplate, h, isTemplated_iff]

/-- The body of a declaration is read as its block, unless its source is templated. -/
theorem blockOf_bodyOf : blockOf d.name (bodyOf d) =
    if d.source.any isTemplated then .error ⟨0, .sourceNotLiteral d.name⟩ else .ok (d.at 0) := by
  have version : ((bodyOf d).get? "version").map versionText = d.version := by
    rw [get?_version]
    cases d.version <;> rfl
  have whole : blockOf d.name (bodyOf d) =
      (literalSource d.name ((bodyOf d).get? "source")).map fun source =>
        ⟨d.name, source, ((bodyOf d).get? "version").map versionText, 0⟩ := rfl
  rw [whole, version, get?_source]
  cases h : d.source with
  | none => simp [literalSource, Except.map, Declaration.at, h]
  | some source =>
    by_cases templated : isTemplated source
    · simp [literalSource, Except.map, templated]
    · simp [literalSource, Except.map, templated, Declaration.at, h]

/-- The group of a declaration is read as its one block. -/
theorem groupBlocks_groupOf :
    groupBlocks (groupOf d) = (blockOf d.name (bodyOf d)).map fun block => [block] := by
  have items : (bodyOf d).items = [bodyOf d] := rfl
  simp only [groupBlocks, groupOf, List.flatMap_cons, List.flatMap_nil, items, List.map_cons,
    List.map_nil, List.append_nil, List.mapM_cons, List.mapM_nil]
  cases blockOf d.name (bodyOf d) <;> rfl

/-- A document gives its declarations, without lines, or fails at the first whose source has a
template. -/
theorem blocks_documentOf (declarations : List Declaration) :
    blocks (documentOf declarations) =
      match declarations.find? fun d => d.source.any isTemplated with
      | some d => .error ⟨0, .sourceNotLiteral d.name⟩
      | none => .ok (declarations.map fun d => d.at 0) := by
  have fails (d : Declaration) (h : d.source.any isTemplated = true) :
      (groupBlocks ∘ groupOf) d = .error ⟨0, .sourceNotLiteral d.name⟩ := by
    rw [Function.comp_apply, groupBlocks_groupOf, blockOf_bodyOf, if_pos h]
    rfl
  have succeeds (d : Declaration) (h : d.source.any isTemplated = false) :
      ∃ found, some [d.at 0] = some found ∧ (groupBlocks ∘ groupOf) d = .ok found := by
    refine ⟨[d.at 0], rfl, ?_⟩
    rw [Function.comp_apply, groupBlocks_groupOf, blockOf_bodyOf, if_neg (by simp [h])]
    rfl
  have whole : blocks (documentOf declarations) =
      ((declarations.map groupOf).mapM groupBlocks).map List.flatten := rfl
  rw [whole, List.mapM_map, mapM_eq_of_find _ fails succeeds]
  cases declarations.find? fun d => d.source.any isTemplated with
  | some d => rfl
  | none =>
    refine congrArg Except.ok ?_
    rw [List.filterMap_eq_map', ← List.flatMap_def, List.map_eq_flatMap]

end Declarations

/-- The declaration that a block gives, which leaves out where the block stands. -/
def declarationOf (block : ModuleBlock) : Declaration :=
  ⟨block.name, block.source, block.version⟩

/-- The lines of declarations are scanned as these declarations. -/
theorem scan_of_rendered {declarations : List Declaration} {groups : List (List (List Char))}
    (rendered : List.Forall₂ BlockLines declarations groups) :
    ∃ native, Native.scan (String.ofList (joinLines groups.flatten)) = .ok native ∧
      native.map declarationOf = declarations := by
  obtain ⟨tokens, tokenized, found⟩ := Native.blocks_of_rendered rendered 1
  refine ⟨declarations.mapIdx fun i d => d.at (1 + (groups.take i).flatten.length), ?_, ?_⟩
  · rw [Native.scan, Native.tokenize, String.toList_ofList, tokenized]
    exact found
  · refine List.ext_getElem? fun i => ?_
    rw [List.getElem?_map, List.getElem?_mapIdx]
    cases declarations[i]? <;> rfl

/-- A text of a document is scanned as the document. -/
theorem scan_of_isText {declarations : List Declaration} {text : String}
    (isText : Json.IsText (documentOf declarations) text) :
    scan text = blocks (documentOf declarations) := by
  have room : (documentOf declarations).depth ≤ Json.maxDepth :=
    Nat.le_trans depth_documentOf (by decide)
  rw [scan, Json.parse_of_isText isText room]

/-- Declarations have renderings as blocks and texts as documents. Of every rendering and every
text, the scanners give back the same declarations in the same order; only if a source has a
template the scan of the text fails, and names such a declaration. -/
theorem scanners_agree (declarations : List Declaration) :
    (∃ groups, List.Forall₂ BlockLines declarations groups) ∧
      (∃ text, Json.IsText (documentOf declarations) text) ∧
      ∀ groups text, List.Forall₂ BlockLines declarations groups →
        Json.IsText (documentOf declarations) text →
        (∃ native, Native.scan (String.ofList (joinLines groups.flatten)) = .ok native ∧
          native.map declarationOf = declarations) ∧
        ((∀ d ∈ declarations, ¬ SourceHasTemplate d) →
          ∃ document, scan text = .ok document ∧ document.map declarationOf = declarations) ∧
        ((∃ d ∈ declarations, SourceHasTemplate d) →
          ∃ d ∈ declarations, SourceHasTemplate d ∧
            scan text = .error ⟨0, .sourceNotLiteral d.name⟩) := by
  refine ⟨exists_forall₂_iff.mpr fun d _ => Native.exists_blockLines d,
    exists_isText declarations, fun groups text rendered isText => ⟨scan_of_rendered rendered, ?_⟩⟩
  rw [scan_of_isText isText, blocks_documentOf]
  constructor
  · intro literal
    have notFound : declarations.find? (fun d => d.source.any isTemplated) = none := by
      refine List.find?_eq_none.mpr fun d hd => ?_
      rw [any_isTemplated_iff]
      exact literal d hd
    rw [notFound]
    refine ⟨_, rfl, ?_⟩
    rw [List.map_map]
    exact List.map_id declarations
  · rintro ⟨d, hd, templated⟩
    have listed : (declarations.find? fun d => d.source.any isTemplated).isSome := by
      rw [List.find?_isSome]
      exact ⟨d, hd, any_isTemplated_iff.mpr templated⟩
    -- the scan stops at the first of these declarations, which need not be `d`
    obtain ⟨first, isFirst⟩ := Option.isSome_iff_exists.mp listed
    have found := List.find?_some isFirst
    rw [isFirst]
    exact ⟨first, List.mem_of_find?_eq_some isFirst, any_isTemplated_iff.mp found, rfl⟩

/-- A letter is written by its code in either syntax; a source with a template is refused. -/
theorem scanners_agree_one_declaration :
    let declarations : List Declaration := [⟨"a", some "$", none⟩]
    let groups := [["module \"\\u0061\" \x7b".toList, "  source = \"$\"".toList, "\x7d".toList]]
    let text := "\x7b \"module\":[\x7b\"\\u0061\":\x7b\"source\":\"$\"\x7d\x7d]\x7d"
    List.Forall₂ BlockLines declarations groups ∧ Json.IsText (documentOf declarations) text ∧
      (∃ native document, Native.scan (String.ofList (joinLines groups.flatten)) = .ok native ∧
        scan text = .ok document ∧ native.map declarationOf = document.map declarationOf) ∧
      ∃ text, Json.IsText (documentOf [⟨"a", some "$\x7bx\x7d", none⟩]) text ∧
        scan text = .error ⟨0, .sourceNotLiteral "a"⟩ := by
  intro declarations groups text
  have code : Native.WritesNumber ['0', '0', '6', '1'] 'a'.toNat :=
    ⟨[0, 0, 6, 1], by decide, by decide⟩
  have rendered : List.Forall₂ BlockLines declarations groups := by
    have name : Native.IsWritten ['a'] ['\\', 'u', '0', '0', '6', '1'] :=
      .char (by simp) (.unicode rfl code) .nil
    have source : Native.IsWritten ['$'] ['$'] :=
      .char (by simp) (.itself (by decide) (by decide) (by decide)) .nil
    have lines : BlockLines ⟨"a", some "$", none⟩ groups[0] :=
      BlockLines.lines (d := ⟨"a", some "$", none⟩) name (.present source) .absent
    exact .cons lines .nil
  have isText : Json.IsText (documentOf declarations) text := by
    have letter : Json.IsWritten ['a'] ['\\', 'u', '0', '0', '6', '1'] :=
      .char (.unicode rfl code) .nil
    have name : Json.IsWritten "a".toList ['\\', 'u', '0', '0', '6', '1'] := letter
    have key {k : String} (plain : (k.toList.all fun c => c != '"' && c != '\\' &&
        0x20 ≤ c.toNat) = true) : Json.IsWritten k.toList k.toList := Json.isWritten_self plain
    have gap := Json.isGap_nil
    have blank : Json.IsGap [' '] := by simp [Json.IsGap]
    have source := Json.Writes.string (s := "$") (key rfl)
    have body := Json.Writes.object (by simp) (.lastMember
      (.member gap (key (k := "source") rfl) gap (.element gap source gap)))
    have group := Json.Writes.object (by simp) (.lastMember
      (.member gap name gap (.element gap body gap)))
    have groups := Json.Writes.array (.lastElement (.element gap group gap))
    have document := Json.Writes.object (by simp) (.lastMember
      (.member blank (key (k := "module") rfl) gap (.element gap groups gap)))
    simpa [Json.IsText, declarations, text, documentOf, groupOf, bodyOf, argument] using
      Json.Writes.element gap document gap
  have literal : ∀ d ∈ declarations, ¬ SourceHasTemplate d := by
    intro d hd
    rw [List.mem_singleton.mp hd, ← any_isTemplated_iff]
    decide
  have templated : SourceHasTemplate ⟨"a", some "$\x7bx\x7d", none⟩ :=
    any_isTemplated_iff.mp (by decide)
  obtain ⟨⟨native, scanned, back⟩, succeeds, -⟩ :=
    (scanners_agree declarations).2.2 groups text rendered isText
  obtain ⟨document, scanned', back'⟩ := succeeds literal
  refine ⟨rendered, isText, ⟨native, document, scanned, scanned', back.trans back'.symm⟩, ?_⟩
  obtain ⟨⟨groups', rendered'⟩, ⟨text', isText'⟩, agree⟩ :=
    scanners_agree [⟨"a", some "$\x7bx\x7d", none⟩]
  obtain ⟨d, hd, -, failed⟩ :=
    (agree groups' text' rendered' isText').2.2 ⟨_, List.mem_singleton_self _, templated⟩
  rw [List.mem_singleton.mp hd] at failed
  exact ⟨text', isText', failed⟩

end Document

end TerraDeps
