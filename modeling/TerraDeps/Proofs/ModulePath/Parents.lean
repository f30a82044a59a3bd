import Mathlib.Logic.Function.Iterate
import TerraDeps.Proofs.ModulePath.Composition
import TerraDeps.Proofs.Path

/-!
# Up from a directory

The directory above may be had in two ways: its text is what stands before the last slash
(`textAbove?`), and it is where `..` leads from the directory. Both take off the last segment and
find nothing above the root, so that they agree on every directory (`parent?_agrees`), and going up
comes to the root after as many steps as there are segments.
-/

set_option autoImplicit false

namespace TerraDeps.ModulePath

open Text

/-- The text of the directory above the one with the text: what stands before the last slash, and
nothing if there is none. The empty text is the root's. -/
def textAbove? (text : String) : Option String :=
  if text = "" then none else some (Path.parentDir text)

/-- The segments in a text: what stands between slashes and is not empty. -/
def segmentTexts (text : String) : List String :=
  ((pieces (· == '/') text.toList).filter fun piece => !piece.isEmpty).map String.ofList

/-- The directory that lies `n` steps above, if there are as many. -/
def above? (p : ModulePath) (n : ℕ) : Option ModulePath :=
  (fun d => d.bind parent?)^[n] (some p)

variable {p q : ModulePath} {failure : EscapesRoot} {n : ℕ}

section Parent

/-- Only the root has no directory above. -/
theorem parent?_eq_none_iff : p.parent? = none ↔ p.segments = [] := by
  simp [parent?, isRoot]

/-- The directory above has all segments but the last. -/
theorem parent?_eq_some_iff :
    p.parent? = some q ↔ ∃ last, p.segments = q.segments ++ [last] := by
  unfold parent? isRoot
  constructor
  · intro h
    obtain ⟨notRoot, same⟩ := Option.ite_none_left_eq_some.mp h
    obtain rfl := Option.some.inj same
    have notEmpty : p.segments ≠ [] := by simpa using notRoot
    exact ⟨p.segments.getLast notEmpty, (List.dropLast_concat_getLast notEmpty).symm⟩
  · rintro ⟨last, whole⟩
    simp [whole]

/-- One step up leads to the directory that has all segments but the last. -/
theorem resolve_up_eq_ok_iff :
    resolve p.text ".." = .ok q ↔ ∃ last, p.segments = q.segments ++ [last] := by
  have up : pathSteps ".." = [.up] := by decide
  rw [resolve_text_eq_ok_iff, up]
  constructor
  · intro h
    cases stack : p.segments.reverse with
    | nil =>
      rw [stack] at h
      contradiction
    | cons last above =>
      rw [stack] at h
      obtain rfl : above = q.segments.reverse := Option.some.inj h
      exact ⟨last, by rw [← p.segments.reverse_reverse, stack, List.reverse_cons,
        List.reverse_reverse]⟩
  · rintro ⟨last, whole⟩
    rw [whole, List.reverse_append]
    rfl

end Parent

section Text

/-- Only the text of the root is empty. -/
theorem text_eq_empty_iff : p.text = "" ↔ p.segments = [] := by
  refine ⟨fun h => ?_, text_of_isRoot⟩
  have isRoot : p = root := text_injective (h.trans (text_of_isRoot (p := root) rfl).symm)
  rw [isRoot]
  rfl

/-- The text of a directory, cut at its last slash, is that of the directory above. -/
theorem textAbove?_text (p : ModulePath) : textAbove? p.text = p.parent?.map text := by
  unfold textAbove?
  cases parent : p.parent? with
  | none => rw [if_pos (text_eq_empty_iff.mpr (parent?_eq_none_iff.mp parent))]; rfl
  | some q =>
    obtain ⟨last, whole⟩ := parent?_eq_some_iff.mp parent
    have notEmpty : ¬ p.text = "" := by simp [text_eq_empty_iff, whole]
    have below : p.text = q.file last.name := by
      rw [file_eq, text, names, whole, List.map_append]
      rfl
    rw [if_neg notEmpty, below, parentDir_file last.isSegment.noSlash]
    rfl

/-- The segments in the text of a directory are its names. -/
theorem segmentTexts_text (p : ModulePath) : segmentTexts p.text = p.names := by
  unfold segmentTexts names
  by_cases isRoot : p.segments = []
  · rw [text_of_isRoot isRoot, isRoot]
    decide
  · have notEmpty : ∀ piece ∈ p.segments.map fun segment => segment.name.toList,
        (!piece.isEmpty) = true := by
      intro piece isPiece
      obtain ⟨segment, -, rfl⟩ := List.mem_map.mp isPiece
      simpa using segment.isSegment.1
    rw [pieces_text isRoot (by decide) (by simp [isSeparator]), List.filter_eq_self.mpr notEmpty,
      List.map_map]
    exact List.map_congr_left fun segment _ => String.ofList_toList

end Text

section Ascent

/-- No steps up lead to the directory itself. -/
theorem above?_zero (p : ModulePath) : p.above? 0 = some p :=
  rfl

/-- One more step up starts with the directory above. -/
theorem above?_succ (p : ModulePath) (n : ℕ) :
    p.above? (n + 1) = p.parent?.bind fun q => q.above? n := by
  unfold above?
  rw [Function.iterate_succ_apply, Option.bind_some]
  cases p.parent? with
  | some q => rfl
  | none => exact Function.iterate_fixed rfl n

/-- Each step up takes off one segment, and there are as many steps as segments. -/
theorem above?_eq (p : ModulePath) (n : ℕ) : p.above? n =
    if n ≤ p.segments.length then some ⟨p.segments.take (p.segments.length - n)⟩ else none := by
  induction n generalizing p with
  | zero => simp [above?_zero]
  | succ n ih =>
    rw [above?_succ]
    cases parent : p.parent? with
    | none =>
      have isRoot := parent?_eq_none_iff.mp parent
      simp [isRoot]
    | some q =>
      obtain ⟨last, whole⟩ := parent?_eq_some_iff.mp parent
      have shorter : q.segments.length - n ≤ q.segments.length := Nat.sub_le _ _
      rw [Option.bind_some, ih, whole]
      simp [List.take_append_of_le_length shorter]

/-- The root is as many steps up as the directory has segments. -/
theorem above?_eq_root_iff : p.above? n = some root ↔ n = p.segments.length := by
  rw [above?_eq, Option.ite_none_right_eq_some, root, Option.some_inj, mk.injEq,
    List.take_eq_nil_iff]
  constructor
  · rintro ⟨le, noneLeft | empty⟩
    · omega
    · rw [empty] at le ⊢
      exact Nat.le_zero.mp le
  · rintro rfl
    exact ⟨Nat.le_refl _, .inl (Nat.sub_self _)⟩

/-- The directories above are those that steps up lead to. -/
theorem getElem?_ancestors (p : ModulePath) (n : ℕ) : p.ancestors[n]? = p.above? (n + 1) := by
  rw [above?_eq, ancestors, List.getElem?_map]
  by_cases within : n < p.segments.length
  · have steps : p.segments.length - 1 - n = p.segments.length - (n + 1) := by omega
    have inRange : p.segments.length - (n + 1) < p.segments.length := by omega
    rw [if_pos (Nat.succ_le_of_lt within), List.getElem?_reverse (by simpa using within),
      List.length_range, steps, List.getElem?_range inRange, Option.map_some]
  · have beyond : p.segments.length ≤ n := Nat.le_of_not_lt within
    rw [if_neg (by omega), List.getElem?_eq_none (by simpa using beyond)]
    rfl

end Ascent

/-- From every directory `..` leads to the directory above, and escapes exactly where there is none.
The text of that directory is canonical, is had by cutting at the last slash, and has all segments
but the last. The steps up come to the root after exactly as many as there are segments; the
directories on the way are the ancestors. -/
theorem parent?_agrees (p : ModulePath) :
    (∀ q, p.parent? = some q ↔ resolve p.text ".." = .ok q) ∧
    (p.parent? = none ↔ resolve p.text ".." = .error ⟨p.text, ".."⟩) ∧
    textAbove? p.text = p.parent?.map text ∧
    (∀ q, p.parent? = some q → IsCanonical q.text ∧ parse q.text = .ok q ∧
      segmentTexts q.text = (segmentTexts p.text).dropLast) ∧
    (∀ n, p.above? n = some root ↔ n = (segmentTexts p.text).length) ∧
    ∀ n, p.ancestors[n]? = p.above? (n + 1) := by
  have agrees (q : ModulePath) : p.parent? = some q ↔ resolve p.text ".." = .ok q :=
    parent?_eq_some_iff.trans resolve_up_eq_ok_iff.symm
  refine ⟨agrees, ?_, textAbove?_text p, fun q isAbove => ?_, fun n => ?_, getElem?_ancestors p⟩
  · rw [resolve_eq_error_iff, Option.eq_none_iff_forall_ne_some]
    simp only [true_and, ne_eq, agrees]
  · obtain ⟨last, whole⟩ := parent?_eq_some_iff.mp isAbove
    refine ⟨isCanonical_text q, parse_text q, ?_⟩
    rw [segmentTexts_text, segmentTexts_text, names, names, whole, List.map_append]
    exact List.dropLast_concat.symm
  · rw [segmentTexts_text, names, List.length_map, above?_eq_root_iff]

end TerraDeps.ModulePath
