import TerraDeps.Address.Order
import TerraDeps.Proofs.Path
import TerraDeps.UnitIndex

/-!
# Looking up units

An index has at most one unit in a directory, and lists its units in the order of their addresses.
A query finds the unit of the directory that it names, if its name fits. The look-up goes to that
directory at once, and still finds what going through all units (`search`) would find.
-/

set_option autoImplicit false

namespace TerraDeps.UnitIndex

variable {index : UnitIndex} {unit : BuildUnit} {d : ModulePath}

/-- The empty index has no unit in any directory. -/
theorem unitAt?_empty (d : ModulePath) : empty.unitAt? d = none :=
  Catalog.get?_empty d.text

/-- An addition changes what is in the unit's own directory and nothing else. -/
theorem unitAt?_add (own : unit.address.specPath = unit.directory.text) (d : ModulePath) :
    (index.add unit own).unitAt? d = if d = unit.directory then some unit else index.unitAt? d := by
  simp only [unitAt?, add, Catalog.get?_insert]
  exact if_congr ⟨ModulePath.text_injective, congrArg ModulePath.text⟩ rfl rfl

/-- The unit in a directory has the directory. -/
theorem directory_of_unitAt? (found : index.unitAt? d = some unit) : unit.directory = d :=
  ModulePath.text_injective (index.keyed d.text unit found).1

/-- The unit in a directory has an address with the text of the directory. -/
theorem specPath_of_unitAt? (found : index.unitAt? d = some unit) :
    unit.address.specPath = d.text :=
  (index.keyed d.text unit found).2

/-- The units of an index are those in their own directories. -/
theorem mem_toList_iff : unit ∈ index.toList ↔ index.unitAt? unit.directory = some unit := by
  simp only [toList, Catalog.values, List.mem_map, unitAt?, Catalog.get?_eq_some_iff]
  constructor
  · rintro ⟨⟨key, listed⟩, inside, rfl⟩
    have own := index.keyed key listed (Catalog.get?_eq_some_iff.mpr inside)
    rwa [own.1]
  · intro inside
    exact ⟨_, inside, rfl⟩

/-- The units are listed in the order of their addresses. -/
theorem pairwise_toList (index : UnitIndex) :
    index.toList.Pairwise fun a b => a.address < b.address := by
  refine List.pairwise_map.mpr (index.units.keysAscend.imp_of_mem ?_)
  intro e e' inside insideToo less
  have own := index.keyed e.1 e.2 (Catalog.get?_eq_some_iff.mpr inside)
  have ownToo := index.keyed e'.1 e'.2 (Catalog.get?_eq_some_iff.mpr insideToo)
  refine List.cons_lt_cons_iff.mpr (.inl ?_)
  rwa [own.2, ownToo.2]

/-- A unit that fits a query has the directory of the query. -/
theorem specPath_eq_of_fits {query : Address} (fits : unit.address.fits query = true) :
    unit.address.specPath = query.specPath := by
  simp only [Address.fits, Bool.and_eq_true, decide_eq_true_eq] at fits
  exact fits.1

/-- A query finds a unit exactly when the unit is in the index and the query names it. -/
theorem find_eq_ok_iff {query : Address} :
    index.find query = .ok unit ↔ unit ∈ index.toList ∧ unit.address.fits query = true := by
  rw [mem_toList_iff]
  constructor
  · intro h
    cases parsed : ModulePath.parse query.specPath with
    | error e => simp [find, parsed] at h
    | ok d =>
      simp only [find, parsed] at h
      split at h
      · rename_i other found
        obtain rfl := Except.ok.inj h
        obtain ⟨found, fits⟩ := Option.filter_eq_some_iff.mp found
        exact ⟨(directory_of_unitAt? found).symm ▸ found, fits⟩
      · contradiction
  · rintro ⟨found, fits⟩
    have directory : ModulePath.parse query.specPath = .ok unit.directory := by
      rw [← specPath_eq_of_fits fits, specPath_of_unitAt? found, ModulePath.parse_text]
    simp only [find, directory, found, Option.filter, fits, if_true]

section Search

variable {other : BuildUnit} {query : Address}

/-- The first of all units that the query names. -/
def search (index : UnitIndex) (query : Address) : Except Failure BuildUnit :=
  match index.toList.find? fun unit => unit.address.fits query with
  | some unit => .ok unit
  | none => .error (.unitNotFound query.display)

/-- A query that names no unit fails, and the failure shows the query. -/
theorem find_eq_error (noFit : ∀ unit ∈ index.toList, unit.address.fits query = false) :
    index.find query = .error (.unitNotFound query.display) := by
  unfold find
  simp only
  split
  · rename_i unit found
    have isFound : index.find query = .ok unit := by simp only [find, found]
    obtain ⟨listed, fits⟩ := find_eq_ok_iff.mp isFound
    rw [noFit unit listed] at fits
    contradiction
  · rfl

/-- The units that one query names are in one directory, and so they are one unit. -/
theorem eq_of_fits (listed : unit ∈ index.toList) (listedToo : other ∈ index.toList)
    (fits : unit.address.fits query = true) (fitsToo : other.address.fits query = true) :
    unit = other := by
  have found : index.find query = .ok unit := find_eq_ok_iff.mpr ⟨listed, fits⟩
  rw [find_eq_ok_iff.mpr ⟨listedToo, fitsToo⟩] at found
  exact (Except.ok.inj found).symm

/-- At most one of the units, of which each is listed once, fits a query. -/
theorem length_filter_fits_le (index : UnitIndex) (query : Address) :
    (index.toList.filter fun unit => unit.address.fits query).length ≤ 1 := by
  have ascending := (pairwise_toList index).filter fun unit => unit.address.fits query
  have mem (unit : BuildUnit) : unit ∈ index.toList.filter (fun unit => unit.address.fits query) →
      unit ∈ index.toList ∧ unit.address.fits query = true :=
    List.mem_filter.mp
  generalize (index.toList.filter fun unit => unit.address.fits query) = fitting at ascending mem ⊢
  match fitting with
  | [] => exact Nat.zero_le 1
  | [unit] => exact Nat.le_refl 1
  | unit :: other :: more =>
    have first := mem unit List.mem_cons_self
    have second := mem other (List.mem_cons_of_mem unit List.mem_cons_self)
    have same : unit = other := eq_of_fits first.1 second.1 first.2 second.2
    rw [same] at ascending
    have less := List.rel_of_pairwise_cons ascending List.mem_cons_self
    exact absurd less (KeyOrder.lt_irrefl other.address)

/-- Looking a query up in its directory gives what going through all units gives: the unit of the
index that the query names, which is the only one, and else the failure that shows the query. A
query whose directory is above the root or is not written as a path of the workspace names none. -/
theorem find_eq_search (index : UnitIndex) (query : Address) :
    index.find query = index.search query ∧
    (∀ unit, index.find query = .ok unit ↔
      unit ∈ index.toList ∧ unit.address.fits query = true) ∧
    (index.toList.filter fun unit => unit.address.fits query).length ≤ 1 ∧
    ((∀ unit ∈ index.toList, unit.address.fits query = false) →
      index.find query = .error (.unitNotFound query.display)) ∧
    ((∀ d, ModulePath.parse query.specPath = .ok d → d.text ≠ query.specPath) →
      index.find query = .error (.unitNotFound query.display)) := by
  refine ⟨?_, fun unit => find_eq_ok_iff, length_filter_fits_le index query, find_eq_error, ?_⟩
  · unfold search
    split
    · rename_i unit found
      apply find_eq_ok_iff.mpr
      refine ⟨List.mem_of_find?_eq_some found, ?_⟩
      exact List.find?_some (p := fun unit : BuildUnit => unit.address.fits query) found
    · rename_i noFit
      apply find_eq_error
      intro unit listed
      simpa using List.find?_eq_none.mp noFit unit listed
  · intro notPath
    apply find_eq_error
    intro unit listed
    -- the query of a unit that fits has the text of the unit's directory
    by_contra fits
    have named := specPath_eq_of_fits (Bool.not_eq_false _ ▸ fits)
    rw [specPath_of_unitAt? (mem_toList_iff.mp listed)] at named
    apply notPath unit.directory
    · rw [← named, ModulePath.parse_text]
    · exact named

/-- The directory of the first query is that of the unit but for the way it is written, that of the
second is above the root. -/
theorem find_eq_search_unclean :
    let directory : ModulePath := ⟨[⟨"app", by decide⟩]⟩
    let unit : BuildUnit := ⟨.ofPath "app", directory, "app/BUILD", []⟩
    let index := empty.add unit (by decide)
    ModulePath.parse "./app" = .ok directory ∧
      index.find (.ofPath "./app") = .error (.unitNotFound "./app") ∧
      index.find (.ofPath "../app") = .error (.unitNotFound "../app") := by
  intro directory unit index
  have clean : ModulePath.parse "./app" = .ok directory := by decide
  have above : ModulePath.parse "../app" = .error ⟨"", "../app"⟩ := by decide
  refine ⟨clean, ?_, ?_⟩
  · apply (find_eq_search index (.ofPath "./app")).2.2.2.2
    intro d parsed
    rw [← Except.ok.inj (clean.symm.trans parsed)]
    decide
  · apply (find_eq_search index (.ofPath "../app")).2.2.2.2
    intro d parsed
    cases above.symm.trans parsed

end Search

end TerraDeps.UnitIndex
