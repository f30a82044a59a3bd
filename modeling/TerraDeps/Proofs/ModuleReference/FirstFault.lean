import TerraDeps.ModuleReference
import TerraDeps.Proofs.Traversal

/-!
# Extraction that fails

A file is sound if it is in the snapshot, its text scans in the syntax that its name calls for and,
unless it is an override file, each of its blocks has a source. Extraction succeeds exactly when all
files are sound. Else it fails with the fault of the first file that is not, and this fault is read
off the file alone (`contribution_eq_error_iff`): neither later files nor overrides, which are put
aside until all files have been read, come in.
-/

set_option autoImplicit false

namespace TerraDeps.ModuleReference

/-- What a text gives when it is scanned in the syntax that its path calls for. -/
def ScansTo (path text : String) (result : Except ScanError (List ModuleBlock)) : Prop :=
  (".tf.json".toList <:+ path.toList → Document.scan text = result) ∧
    (¬ ".tf.json".toList <:+ path.toList → Native.scan text = result)

/-- Nothing is wrong with the file. -/
def IsSound (snapshot : Snapshot) (path : String) : Prop :=
  ∃ text blocks, snapshot.get? path = some text ∧ ScansTo path text (.ok blocks) ∧
    (isOverride path = false → ∀ b ∈ blocks, b.source ≠ none)

/-- The first thing that is wrong with the file, in words. -/
inductive HasFault (snapshot : Snapshot) (path : String) : String → Prop
  | missing : snapshot.get? path = none →
      HasFault snapshot path "file is not part of the source snapshot"
  | unreadable {text : String} {e : ScanError} : snapshot.get? path = some text →
      ScansTo path text (.error e) → HasFault snapshot path e.display
  | noSource {text : String} {before after : List ModuleBlock} {b : ModuleBlock} :
      snapshot.get? path = some text → ScansTo path text (.ok (before ++ b :: after)) →
      isOverride path = false → (∀ a ∈ before, a.source ≠ none) → b.source = none →
      HasFault snapshot path (ScanError.display ⟨b.line, .missingSource b.name⟩)

variable {snapshot : Snapshot} {path text : String} {blocks : List ModuleBlock}

/-- What a text gives in its syntax are the blocks that are read from it. -/
theorem scansTo_iff {result : Except ScanError (List ModuleBlock)} :
    ScansTo path text result ↔ blocksOf path text = result := by
  have ending : ".tf.json".toList <:+ path.toList ↔ isDocument path = true :=
    List.isSuffixOf_iff_suffix.symm
  rw [ScansTo, blocksOf, ending]
  by_cases document : isDocument path = true <;> simp [document]

/-- What is wrong with a file depends on its own text. -/
theorem HasFault.congr {other : Snapshot} {reason : String} (fault : HasFault snapshot path reason)
    (same : other.get? path = snapshot.get? path) : HasFault other path reason := by
  cases fault with
  | missing missing => exact .missing (same.trans missing)
  | unreadable stored scans => exact .unreadable (same.trans stored) scans
  | noSource stored scans regular sources lacks =>
    exact .noSource (same.trans stored) scans regular sources lacks

/-- A block makes a reference if it has a source. -/
theorem ofBlock_eq_ok_iff {b : ModuleBlock} : (∃ r, ofBlock path b = .ok r) ↔ b.source ≠ none := by
  unfold ofBlock
  cases b.source <;> simp

/-- A block without a source makes none, which is told with its line and name. -/
theorem ofBlock_eq_error_iff {b : ModuleBlock} {e : ScanError} :
    ofBlock path b = .error e ↔ b.source = none ∧ e = ⟨b.line, .missingSource b.name⟩ := by
  unfold ofBlock
  cases b.source <;> simp [eq_comm]

/-- Blocks make references if each has a source. -/
theorem mapM_ofBlock_eq_ok_iff :
    (∃ references, blocks.mapM (ofBlock path) = .ok references) ↔
      ∀ b ∈ blocks, b.source ≠ none := by
  simp only [mapM_eq_ok_iff, exists_forall₂_iff, ofBlock_eq_ok_iff]

/-- Blocks make none for the first of them that has no source. -/
theorem mapM_ofBlock_eq_error_iff {e : ScanError} :
    blocks.mapM (ofBlock path) = .error e ↔ ∃ before b after, blocks = before ++ b :: after ∧
      (∀ a ∈ before, a.source ≠ none) ∧ b.source = none ∧
      e = ⟨b.line, .missingSource b.name⟩ := by
  simp only [mapM_eq_error_iff, ofBlock_eq_ok_iff, ofBlock_eq_error_iff]

/-- A text contributes something if it can be scanned and, unless it overrides, its blocks have
sources. -/
theorem contributionOf_eq_ok_iff : (∃ c, contributionOf path text = .ok c) ↔
    ∃ blocks, ScansTo path text (.ok blocks) ∧
      (isOverride path = false → ∀ b ∈ blocks, b.source ≠ none) := by
  simp only [scansTo_iff]
  unfold contributionOf
  cases blocksOf path text with
  | error e => simp
  | ok blocks =>
    cases isOverride path with
    | true => simp
    | false =>
      simp only [Bool.false_eq_true, if_false, map_eq_ok_iff, Except.ok.injEq, true_imp_iff,
        exists_eq_left', ← @mapM_ofBlock_eq_ok_iff path blocks]
      exact ⟨fun ⟨_, references, made, _⟩ => ⟨references, made⟩,
        fun ⟨references, made⟩ => ⟨_, references, made, rfl⟩⟩

/-- A text contributes nothing if it cannot be scanned, or for the first of its blocks that has no
source unless it overrides. -/
theorem contributionOf_eq_error_iff {e : ScanError} : contributionOf path text = .error e ↔
    ScansTo path text (.error e) ∨ ∃ before b after,
      ScansTo path text (.ok (before ++ b :: after)) ∧ isOverride path = false ∧
      (∀ a ∈ before, a.source ≠ none) ∧ b.source = none ∧ e = ⟨b.line, .missingSource b.name⟩ := by
  simp only [scansTo_iff]
  unfold contributionOf
  cases blocksOf path text with
  | error own => simp
  | ok blocks =>
    cases isOverride path with
    | true => simp
    | false => simp [map_eq_error_iff, mapM_ofBlock_eq_error_iff]

/-- A file contributes exactly when it is sound. -/
theorem contribution_eq_ok_iff :
    (∃ c, contribution snapshot path = .ok c) ↔ IsSound snapshot path := by
  unfold contribution
  cases stored : snapshot.get? path with
  | none =>
    refine iff_of_false (by simp) ?_
    rintro ⟨text, blocks, stored', -⟩
    simp [stored] at stored'
  | some text =>
    simp only [mapError_eq_ok_iff, contributionOf_eq_ok_iff]
    constructor
    · rintro ⟨blocks, scans, sources⟩
      exact ⟨text, blocks, stored, scans, sources⟩
    · rintro ⟨other, blocks, stored', scans, sources⟩
      obtain rfl := Option.some.inj (stored.symm.trans stored')
      exact ⟨blocks, scans, sources⟩

/-- A file that does not contribute fails with its fault. -/
theorem contribution_eq_error_iff {f : Failure} : contribution snapshot path = .error f ↔
    ∃ reason, HasFault snapshot path reason ∧ f = .extraction path reason := by
  unfold contribution
  cases stored : snapshot.get? path with
  | none =>
    constructor
    · intro h
      exact ⟨_, .missing stored, (Except.error.inj h).symm⟩
    · rintro ⟨reason, fault, rfl⟩
      cases fault with
      | missing => rfl
      | unreadable stored' | noSource stored' => simp [stored] at stored'
  | some text =>
    simp only [mapError_eq_error_iff, contributionOf_eq_error_iff]
    constructor
    · rintro ⟨e, scans | ⟨before, b, after, scans, regular, sources, lacks, rfl⟩, rfl⟩
      · exact ⟨_, .unreadable stored scans, rfl⟩
      · exact ⟨_, .noSource stored scans regular sources lacks, rfl⟩
    · rintro ⟨reason, fault, rfl⟩
      cases fault with
      | missing missing => simp [stored] at missing
      | unreadable stored' scans =>
        obtain rfl := Option.some.inj (stored.symm.trans stored')
        exact ⟨_, .inl scans, rfl⟩
      | noSource stored' scans regular sources lacks =>
        obtain rfl := Option.some.inj (stored.symm.trans stored')
        exact ⟨_, .inr ⟨_, _, _, scans, regular, sources, lacks, rfl⟩, rfl⟩

/-- Extraction succeeds exactly when every file is sound. Else it fails with the fault of the first
file that is not; that file fails so behind any sound files, before any others and in any snapshot
that has the same text for it. -/
theorem extract_fails_first (snapshot : Snapshot) (paths : List String) :
    ((∃ references, extract snapshot paths = .ok references) ↔
      ∀ path ∈ paths, IsSound snapshot path) ∧
    (∀ f, extract snapshot paths = .error f ↔ ∃ before path after reason,
      paths = before ++ path :: after ∧ (∀ p ∈ before, IsSound snapshot p) ∧
      HasFault snapshot path reason ∧ f = .extraction path reason) ∧
    ∀ path reason, HasFault snapshot path reason →
      ∀ (other : Snapshot) (before after : List String),
      other.get? path = snapshot.get? path → (∀ p ∈ before, IsSound other p) →
      extract other (before ++ path :: after) = .error (.extraction path reason) := by
  have fails (snapshot : Snapshot) (paths : List String) (f : Failure) :
      extract snapshot paths = .error f ↔ ∃ before path after reason,
        paths = before ++ path :: after ∧ (∀ p ∈ before, IsSound snapshot p) ∧
        HasFault snapshot path reason ∧ f = .extraction path reason := by
    simp only [extract, map_eq_error_iff, mapM_eq_error_iff, contribution_eq_ok_iff,
      contribution_eq_error_iff, exists_and_left]
  refine ⟨?_, fails snapshot paths, ?_⟩
  · simp only [extract, map_eq_ok_iff, mapM_eq_ok_iff, ← contribution_eq_ok_iff,
      ← exists_forall₂_iff]
    exact ⟨fun ⟨_, contributions, contributed, _⟩ => ⟨contributions, contributed⟩,
      fun ⟨contributions, contributed⟩ => ⟨_, contributions, contributed, rfl⟩⟩
  · intro path reason fault other before after same sound
    refine (fails other _ _).mpr ⟨before, path, after, reason, rfl, sound, ?_, rfl⟩
    exact fault.congr same

/-- The block of the override file has no source, which is no fault; the last file is not
scanned. -/
theorem extract_fails_first_override :
    let snapshot := Snapshot.ofFiles [("m/override.tf", "module net \x7b\n\x7d\n"),
      ("m/a.tf", "module a \x7b\n  source = \"./x\"\n\x7d\nmodule b \x7b\n\x7d\n"),
      ("m/c.tf", "\x7d")]
    extract snapshot (["m/override.tf"] ++ "m/a.tf" :: ["m/c.tf"]) =
      .error (.extraction "m/a.tf" "line 4: module \"b\" has no source argument") := by
  intro snapshot
  have sound : ∀ p ∈ ["m/override.tf"], IsSound snapshot p := by
    rw [List.forall_mem_singleton]
    refine ⟨"module net \x7b\n\x7d\n", [⟨"net", none, none, 1⟩], by decide +kernel, ?_, ?_⟩
    · exact scansTo_iff.mpr (by decide +kernel)
    · exact fun regular => absurd regular (by decide +kernel)
  have scans : ScansTo "m/a.tf"
      "module a \x7b\n  source = \"./x\"\n\x7d\nmodule b \x7b\n\x7d\n"
      (.ok ([⟨"a", some "./x", none, 1⟩] ++ ⟨"b", none, none, 4⟩ :: [])) :=
    scansTo_iff.mpr (by decide +kernel)
  have fault : HasFault snapshot "m/a.tf" "line 4: module \"b\" has no source argument" :=
    .noSource (by decide +kernel) scans (by decide +kernel) (by decide) rfl
  exact (extract_fails_first snapshot []).2.2 "m/a.tf" _ fault snapshot _ _ rfl sound

end TerraDeps.ModuleReference
