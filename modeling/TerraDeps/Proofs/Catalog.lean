import Mathlib.Data.List.Induction
import TerraDeps.Catalog

/-!
# What a catalog of a list of pairs holds

A list of pairs gives for each of its keys a last value. The catalog that is built from the list has
just these values (`Catalog.get?_ofList_eq_some_iff`), and a catalog is known by the values that it
has (`Catalog.eq_of_get?_eq_some_iff`).
-/

set_option autoImplicit false

namespace TerraDeps

namespace Catalog

variable {κ β : Type}

/-- `value` is what the pairs give last for `key`. -/
def GivesLast (pairs : List (κ × β)) (key : κ) (value : β) : Prop :=
  ∃ before after, pairs = before ++ (key, value) :: after ∧ ∀ p ∈ after, p.1 ≠ key

/-- A single pair gives its value last to its own key. -/
theorem givesLast_singleton {k key : κ} {v value : β} :
    GivesLast [(k, v)] key value ↔ k = key ∧ v = value := by
  constructor
  · rintro ⟨before, after, split, -⟩
    rcases List.singleton_eq_append_iff.mp split with ⟨-, same⟩ | ⟨-, nothing⟩
    · simpa using (List.cons.inj same).1.symm
    · contradiction
  · rintro ⟨rfl, rfl⟩
    exact ⟨[], [], rfl, by simp⟩

/-- What the second list gives replaces what the first one gives. -/
theorem givesLast_append {pairs later : List (κ × β)} {key : κ} {value : β} :
    GivesLast (pairs ++ later) key value ↔
      GivesLast later key value ∨ (key ∉ later.map Prod.fst ∧ GivesLast pairs key value) := by
  constructor
  · rintro ⟨before, after, split, notAfter⟩
    rcases List.append_eq_append_iff.mp split with ⟨skipped, -, rest⟩ | ⟨start, rfl, rest⟩
    · exact .inl ⟨skipped, after, rest, notAfter⟩
    · cases start with
      | nil => exact .inl ⟨[], after, rest.symm, notAfter⟩
      | cons p start =>
        obtain ⟨rfl, rfl⟩ := List.cons.inj rest
        refine .inr ⟨?_, before, start, rfl, fun q hq => notAfter q (List.mem_append_left _ hq)⟩
        intro mentioned
        obtain ⟨q, hq, named⟩ := List.mem_map.mp mentioned
        exact notAfter q (List.mem_append_right _ hq) named
  · rintro (⟨before, after, rfl, notAfter⟩ | ⟨notLater, before, after, rfl, notAfter⟩)
    · exact ⟨pairs ++ before, after, by simp, notAfter⟩
    · refine ⟨before, after ++ later, by simp, ?_⟩
      intro q hq
      rcases List.mem_append.mp hq with hq | hq
      · exact notAfter q hq
      · exact fun named => notLater (List.mem_map.mpr ⟨q, hq, named⟩)

/-- Every key among the pairs is given a value last. -/
theorem exists_givesLast {pairs : List (κ × β)} {key : κ} (h : key ∈ pairs.map Prod.fst) :
    ∃ value, GivesLast pairs key value := by
  induction pairs with
  | nil => contradiction
  | cons p pairs ih =>
    rw [← List.singleton_append]
    by_cases later : key ∈ pairs.map Prod.fst
    · obtain ⟨value, last⟩ := ih later
      exact ⟨value, givesLast_append.mpr (.inl last)⟩
    · obtain rfl : key = p.1 := by simpa [later] using h
      exact ⟨p.2, givesLast_append.mpr (.inr ⟨later, givesLast_singleton.mpr ⟨rfl, rfl⟩⟩)⟩

/-- What is given a value is among the keys. -/
theorem mem_keys_of_givesLast {pairs : List (κ × β)} {key : κ} {value : β}
    (h : GivesLast pairs key value) : key ∈ pairs.map Prod.fst := by
  obtain ⟨before, after, rfl, -⟩ := h
  simp

section Lookup

variable [LT κ] [DecidableEq κ] [KeyOrder κ]

/-- The catalog of a list of pairs has under each key what the list gives last for it. -/
theorem get?_ofList_eq_some_iff [DecidableLT κ] {pairs : List (κ × β)} {key : κ} {value : β} :
    (ofList pairs).get? key = some value ↔ GivesLast pairs key value := by
  induction pairs using List.reverseRecOn with
  | nil => simp [ofList, get?_empty, GivesLast]
  | append_singleton pairs p ih =>
    obtain ⟨k, v⟩ := p
    have inserted : ofList (pairs ++ [(k, v)]) = (ofList pairs).insert k v := by
      simp [ofList, List.foldl_append]
    rw [inserted, get?_insert, givesLast_append, givesLast_singleton, ← ih]
    by_cases same : key = k
    · simp [same]
    · simp [same, Ne.symm same]

/-- A key is given one value last. -/
theorem givesLast_unique [DecidableLT κ] {pairs : List (κ × β)} {key : κ} {value value' : β}
    (h : GivesLast pairs key value) (h' : GivesLast pairs key value') : value = value' :=
  Option.some.inj ((get?_ofList_eq_some_iff.mpr h).symm.trans (get?_ofList_eq_some_iff.mpr h'))

omit [DecidableEq κ] [KeyOrder κ] in
/-- Catalogs with the same entries are the same. -/
theorem eq_of_entries_eq {c d : Catalog κ β} (h : c.entries = d.entries) : c = d := by
  cases c
  cases d
  congr

/-- A catalog is known by its values under its keys. -/
theorem eq_of_get?_eq_some_iff {c d : Catalog κ β}
    (same : ∀ key value, c.get? key = some value ↔ d.get? key = some value) : c = d := by
  have distinct (c : Catalog κ β) : c.entries.Nodup := by
    refine c.keysAscend.imp fun less equal => ?_
    rw [equal] at less
    exact KeyOrder.lt_irrefl _ less
  have members (e : κ × β) : e ∈ c.entries ↔ e ∈ d.entries := by
    simpa only [get?_eq_some_iff] using same e.1 e.2
  refine eq_of_entries_eq (List.Perm.eq_of_pairwise (fun a b _ _ less back => ?_) c.keysAscend
    d.keysAscend ((List.perm_ext_iff_of_nodup (distinct c) (distinct d)).mpr members))
  exact absurd (KeyOrder.lt_trans less back) (KeyOrder.lt_irrefl a.1)

end Lookup

end Catalog

end TerraDeps
