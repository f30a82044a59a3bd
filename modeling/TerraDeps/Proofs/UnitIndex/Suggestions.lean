import TerraDeps.Proofs.Text.EditDistance
import TerraDeps.Proofs.UnitIndex.Lookup
import TerraDeps.Sorting

/-!
# Suggested directories

In place of a directory without a unit others are suggested that may have been meant: at most three
directories of units, which take few changes to reach. Different directories are shown differently,
so that the distances and the shown names order them strictly (`pairwise_closestFirst`), and the far
ones may be dropped when the rest is in order. No directory in reach is left out unless three are
suggested that come before it (`suggests_nearest`).
-/

set_option autoImplicit false

namespace TerraDeps

open Text

namespace ModulePath

variable {p q : ModulePath}

/-- What is shown for a directory leads to it, also for the root. -/
theorem parse_display (p : ModulePath) : parse p.display = .ok p := by
  unfold display
  split
  · rename_i atRoot
    obtain rfl : p = root := congrArg ModulePath.mk (List.isEmpty_iff.mp atRoot)
    decide
  · exact parse_text p

/-- Directories that are shown alike are the same. -/
theorem display_injective (same : p.display = q.display) : p = q := by
  have found := parse_display p
  rw [same, parse_display q] at found
  exact (Except.ok.inj found).symm

/-- How many characters are changed on the way from one path to the other. -/
def distance (p q : ModulePath) : Nat :=
  editDistance p.text.toList q.text.toList

/-- The target is closer to `p` than to `q`; of two directories at one distance the one whose shown
name comes first counts as closer. -/
def IsCloser (target p q : ModulePath) : Prop :=
  target.distance p < target.distance q ∨
    (target.distance p = target.distance q ∧ p.display < q.display)

instance (target p q : ModulePath) : Decidable (IsCloser target p q) :=
  inferInstanceAs (Decidable (_ ∨ _))

namespace IsCloser

variable {target r : ModulePath}

/-- What is closer than something closer is closer. -/
theorem trans (first : IsCloser target p q) (second : IsCloser target q r) :
    IsCloser target p r := by
  rcases first with less | ⟨same, less⟩ <;> rcases second with less' | ⟨same', less'⟩
  · exact .inl (Nat.lt_trans less less')
  · exact .inl (same' ▸ less)
  · exact .inl (same ▸ less')
  · exact .inr ⟨same.trans same', String.lt_trans less less'⟩

/-- No directory is closer than itself. -/
theorem ne (closer : IsCloser target p q) : p ≠ q := by
  rintro rfl
  rcases closer with less | ⟨-, less⟩
  · exact Nat.lt_irrefl _ less
  · exact String.lt_irrefl _ less

/-- Of two directories one is closer. -/
theorem total (target p q : ModulePath) :
    p = q ∨ IsCloser target p q ∨ IsCloser target q p := by
  rcases Nat.lt_trichotomy (target.distance p) (target.distance q) with less | same | greater
  · exact .inr (.inl (.inl less))
  · rcases Std.lt_trichotomy p.display q.display with less | shown | greater
    · exact .inr (.inl (.inr ⟨same, less⟩))
    · exact .inl (display_injective shown)
    · exact .inr (.inr (.inr ⟨same.symm, greater⟩))
  · exact .inr (.inr (.inl greater))

end IsCloser

end ModulePath

namespace UnitIndex

open ModulePath (IsCloser)

variable {index : UnitIndex} {target p : ModulePath}

/-- No two units of an index have the same directory. -/
theorem nodup_directories (index : UnitIndex) :
    (index.toList.map BuildUnit.directory).Nodup := by
  refine List.pairwise_map.mpr ((pairwise_toList index).imp_of_mem ?_)
  intro unit other listed listedToo less same
  have found := mem_toList_iff.mp listed
  rw [same, mem_toList_iff.mp listedToo] at found
  rw [Option.some.inj found] at less
  exact KeyOrder.lt_irrefl _ less

/-- The directories of the units, closest first. -/
def closestFirst (index : UnitIndex) (target : ModulePath) : List ModulePath :=
  (index.toList.map BuildUnit.directory).mergeSort fun p q => decide (p = q ∨ IsCloser target p q)

/-- The directories listed closest first are those of the units. -/
theorem mem_closestFirst_iff :
    p ∈ index.closestFirst target ↔ ∃ unit ∈ index.toList, unit.directory = p := by
  rw [closestFirst, List.mem_mergeSort, List.mem_map]

/-- The directories listed closest first get less close. -/
theorem pairwise_closestFirst (index : UnitIndex) (target : ModulePath) :
    (index.closestFirst target).Pairwise (IsCloser target) := by
  have different : (index.closestFirst target).Nodup :=
    (List.mergeSort_perm _ _).nodup_iff.mpr (nodup_directories index)
  have ordered : (index.closestFirst target).Pairwise fun p q => p = q ∨ IsCloser target p q := by
    refine (List.pairwise_mergeSort (fun p q r first second => ?_) (fun p q => ?_) _).imp
      of_decide_eq_true
    · rcases of_decide_eq_true first with rfl | first
      · exact second
      · rcases of_decide_eq_true second with rfl | second
        · exact decide_eq_true (.inr first)
        · exact decide_eq_true (.inr (first.trans second))
    · rcases IsCloser.total target p q with same | closer | closer <;> simp [*]
  exact (ordered.and different).imp fun ⟨closer, different⟩ => closer.resolve_left different

/-- The distances and the shown names are in the order of the directories. -/
theorem ranked_text (index : UnitIndex) (target : ModulePath) :
    index.ranked target.text =
      (index.closestFirst target).map fun p => (target.distance p, p.display) := by
  rw [closestFirst, List.map_mergeSort
    (s := fun a b => decide (a.1 < b.1 ∨ a.1 = b.1 ∧ a.2 ≤ b.2)), List.map_map]
  · rfl
  · intro p _ q _
    refine decide_eq_decide.mpr ?_
    rw [Std.le_iff_lt_or_eq]
    constructor
    · rintro (rfl | less | ⟨same, less⟩)
      · exact .inr ⟨rfl, .inr rfl⟩
      · exact .inl less
      · exact .inr ⟨same, .inl less⟩
    · rintro (less | ⟨same, less | shown⟩)
      · exact .inr (.inl less)
      · exact .inr (.inr ⟨same, less⟩)
      · exact .inl (ModulePath.display_injective shown)

/-- A unit is in the directory, and it takes at most half as many changes to reach as the target has
bytes. -/
def IsInReach (index : UnitIndex) (target p : ModulePath) : Prop :=
  (∃ unit ∈ index.toList, unit.directory = p) ∧
    target.distance p ≤ target.text.utf8ByteSize / 2

/-- The directories in reach, closest first. -/
def reached (index : UnitIndex) (target : ModulePath) : List ModulePath :=
  (index.closestFirst target).filter fun p => target.distance p ≤ target.text.utf8ByteSize / 2

/-- The directories that are reached are those in reach. -/
theorem mem_reached_iff : p ∈ index.reached target ↔ index.IsInReach target p := by
  rw [reached, List.mem_filter, mem_closestFirst_iff, decide_eq_true_eq, IsInReach]

/-- The directories suggested are the first three that are reached, as they are shown. -/
theorem suggest_eq (index : UnitIndex) (target : ModulePath) :
    index.suggest target = ((index.reached target).take 3).map ModulePath.display := by
  have radius : suggestionRadius target.text = target.text.utf8ByteSize / 2 := by
    unfold suggestionRadius
    omega
  simp only [suggest, ranked_text, radius, reached, List.filter_map, List.map_take, List.map_map,
    Function.comp_def]

/-- For every directory at most three directories of units are suggested, all different and closest
first, each within half as many changes of single characters as the text asked for has bytes; when
some other directory is within as many, three are suggested and each of them is closer. -/
theorem suggests_nearest (index : UnitIndex) (target : ModulePath) :
    (∀ s t, IsLeast {n | ChangesTo n s t} (editDistance s t)) ∧
    ∃ found : List ModulePath, index.suggest target = found.map ModulePath.display ∧
      (index.suggest target).Nodup ∧ found.length ≤ 3 ∧
      (∀ p ∈ found, index.IsInReach target p) ∧ found.Pairwise (IsCloser target) ∧
      ∀ p, index.IsInReach target p → p ∉ found →
        found.length = 3 ∧ ∀ q ∈ found, IsCloser target q p := by
  have ordered : (index.reached target).Pairwise (IsCloser target) :=
    (pairwise_closestFirst index target).filter _
  refine ⟨isLeast_editDistance, (index.reached target).take 3, suggest_eq index target, ?_,
    List.length_take_le 3 _, fun p first => ?_, ordered.take, fun p inReach left => ?_⟩
  · rw [suggest_eq]
    exact ordered.take.map _ fun p q closer same => closer.ne (ModulePath.display_injective same)
  · exact mem_reached_iff.mp (List.mem_of_mem_take first)
  · exact rel_of_not_mem_take ordered (mem_reached_iff.mpr inReach) left

end UnitIndex

end TerraDeps
