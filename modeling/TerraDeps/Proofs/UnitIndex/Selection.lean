import TerraDeps.Proofs.Traversal
import TerraDeps.Proofs.UnitIndex.Lookup
import TerraDeps.UnitIndex.Selection

/-!
# Selected units

A selection sorts the units that the queries find and drops repetitions beside each other. Units of
one index that have the same address are the same, so that each unit found is selected once and the
selection ascends strictly. A list that ascends strictly is known by its members: neither the order
of the queries nor how often or by which name a unit is asked for makes a difference, and to ask for
every unit is to ask for none.
-/

set_option autoImplicit false

namespace TerraDeps

/-- Keys that ascend do so strictly when repetitions are dropped. -/
theorem pairwise_dropRepeats {α : Type} {key : α → Address} {l : List α}
    (ascending : l.Pairwise fun a b => key a ≤ key b) :
    (dropRepeats key l).Pairwise fun a b => key a < key b := by
  fun_induction dropRepeats key l with
  | case1 => exact List.Pairwise.nil
  | case2 a => exact List.pairwise_singleton _ a
  | case3 a b rest same ih =>
    exact ih (ascending.sublist ((List.sublist_cons_self b rest).cons_cons a))
  | case4 a b rest different ih =>
    obtain ⟨least, later⟩ := List.pairwise_cons.mp ascending
    refine List.pairwise_cons.mpr ⟨fun c kept => ?_, ih later⟩
    have less : key a < key b := Address.lt_of_le_of_ne (least b List.mem_cons_self) different
    rcases List.mem_cons.mp ((dropRepeats_sublist key (b :: rest)).subset kept) with rfl | inside
    · exact less
    · refine Address.lt_of_le_of_ne (least c (List.mem_cons_of_mem b inside)) fun same => ?_
      exact (List.pairwise_cons.mp later).1 c inside (same ▸ less)

namespace UnitIndex

variable {index : UnitIndex} {unit other : BuildUnit} {units : List BuildUnit}
  {queries : List Address}

/-- Units of an index with the same address are the same. -/
theorem eq_of_address_eq (listed : unit ∈ index.toList) (listedToo : other ∈ index.toList)
    (same : unit.address = other.address) : unit = other := by
  have fits (a : Address) : a.fits a = true := by simp [Address.fits]
  exact eq_of_fits listed listedToo (fits unit.address) (same ▸ fits other.address)

/-- Arranged units ascend strictly by their addresses. -/
theorem pairwise_arranged (units : List BuildUnit) :
    (arranged units).Pairwise fun a b => a.address < b.address :=
  pairwise_dropRepeats
    (pairwise_mergeSort_key Address.le_trans Address.le_total BuildUnit.address units)

/-- Units of an index are arranged without losing any. -/
theorem mem_arranged_iff (listed : ∀ u ∈ units, u ∈ index.toList) :
    unit ∈ arranged units ↔ unit ∈ units := by
  have kept : ∀ u ∈ arranged units, u ∈ units := fun u inside =>
    List.mem_mergeSort.mp ((dropRepeats_sublist _ _).subset inside)
  refine ⟨kept unit, fun inside => ?_⟩
  obtain ⟨other, isArranged, same⟩ :=
    exists_mem_dropRepeats BuildUnit.address (List.mem_mergeSort.mpr inside)
  rwa [← eq_of_address_eq (listed other (kept other isArranged)) (listed unit inside) same]

/-- Some query finds the unit. -/
def IsFound (index : UnitIndex) (queries : List Address) (unit : BuildUnit) : Prop :=
  ∃ query ∈ queries, index.find query = .ok unit

/-- The units that are found are those that the queries find one by one. -/
theorem isFound_iff (finds : List.Forall₂ (fun query u => index.find query = .ok u) queries units) :
    IsFound index queries unit ↔ unit ∈ units := by
  constructor
  · rintro ⟨query, asked, found⟩
    obtain ⟨other, inside, foundToo⟩ := exists_of_mem_right finds.flip asked
    rwa [← Except.ok.inj (foundToo.symm.trans found)]
  · intro inside
    obtain ⟨query, asked, found⟩ := exists_of_mem_right finds inside
    exact ⟨query, asked, found⟩

/-- No queries select all units. -/
theorem select_nil (index : UnitIndex) : index.select [] = .ok index.toList := rfl

/-- Some queries select the units that they find, arranged. -/
theorem select_of_ne_nil (asked : queries ≠ []) :
    index.select queries = (queries.mapM index.find).map arranged := by
  simp [select, asked]

/-- When every query finds a unit, the units found are selected, each once and in the order of
their addresses. -/
theorem select_of_found (asked : queries ≠ [])
    (found : ∀ query ∈ queries, ∃ u, index.find query = .ok u) :
    ∃ selected, index.select queries = .ok selected ∧
      selected.Pairwise (fun a b => a.address < b.address) ∧
      ∀ u, u ∈ selected ↔ IsFound index queries u := by
  obtain ⟨units, finds⟩ := exists_forall₂_iff.mpr found
  have listed : ∀ u ∈ units, u ∈ index.toList := by
    intro u inside
    obtain ⟨query, -, finds⟩ := exists_of_mem_right finds inside
    exact (find_eq_ok_iff.mp finds).1
  refine ⟨arranged units, ?_, pairwise_arranged units, fun u => ?_⟩
  · rw [select_of_ne_nil asked, mapM_eq_ok_iff.mpr finds]
    rfl
  · rw [mem_arranged_iff listed, isFound_iff finds]

/-- A selection fails as the first query does that finds no unit. -/
theorem select_eq_error_iff {f : Failure} : index.select queries = .error f ↔
    ∃ before query after, queries = before ++ query :: after ∧
      (∀ q ∈ before, ∃ u, index.find q = .ok u) ∧ index.find query = .error f := by
  rcases eq_or_ne queries [] with rfl | asked
  · simp [select_nil]
  · rw [select_of_ne_nil asked, map_eq_error_iff, mapM_eq_error_iff]

/-- No queries find no unit. -/
theorem isFound_nil (index : UnitIndex) (unit : BuildUnit) : ¬ IsFound index [] unit := by
  rintro ⟨query, asked, -⟩
  contradiction

/-- Queries that each find a unit but none at all are no queries. -/
theorem eq_nil_of_not_isFound (found : ∀ query ∈ queries, ∃ u, index.find query = .ok u)
    (noneFound : ∀ u, ¬ IsFound index queries u) : queries = [] := by
  refine List.eq_nil_iff_forall_not_mem.mpr fun query asked => ?_
  obtain ⟨u, finds⟩ := found query asked
  exact noneFound u ⟨query, asked, finds⟩

/-- What is selected depends on the units found only. -/
theorem select_congr {others : List Address}
    (found : ∀ query ∈ queries, ∃ u, index.find query = .ok u)
    (foundToo : ∀ query ∈ others, ∃ u, index.find query = .ok u)
    (same : ∀ u, IsFound index queries u ↔ IsFound index others u) :
    index.select others = index.select queries := by
  rcases eq_or_ne queries [] with rfl | asked
  · have noOthers : others = [] :=
      eq_nil_of_not_isFound foundToo fun u isFound => isFound_nil index u ((same u).mpr isFound)
    rw [noOthers]
  have askedToo : others ≠ [] := by
    rintro rfl
    exact asked (eq_nil_of_not_isFound found fun u isFound =>
      isFound_nil index u ((same u).mp isFound))
  obtain ⟨selected, selects, ascending, mem⟩ := select_of_found asked found
  obtain ⟨selectedToo, selectsToo, ascendingToo, memToo⟩ := select_of_found askedToo foundToo
  rw [selects, selectsToo]
  refine congrArg Except.ok (Address.eq_of_pairwise_key_lt ascendingToo ascending fun u => ?_)
  rw [mem, memToo, same]

/-- To ask for every unit is to ask for none. -/
theorem select_of_all_found (found : ∀ query ∈ queries, ∃ u, index.find query = .ok u)
    (all : ∀ u ∈ index.toList, IsFound index queries u) :
    index.select queries = index.select [] := by
  rcases eq_or_ne queries [] with rfl | asked
  · rfl
  obtain ⟨selected, selects, ascending, mem⟩ := select_of_found asked found
  rw [selects, select_nil]
  refine congrArg Except.ok
    (Address.eq_of_pairwise_key_lt ascending (pairwise_toList index) fun u => ?_)
  rw [mem]
  refine ⟨?_, all u⟩
  rintro ⟨query, -, finds⟩
  exact (find_eq_ok_iff.mp finds).1

end UnitIndex

end TerraDeps
