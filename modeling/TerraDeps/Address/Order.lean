import TerraDeps.Address
import TerraDeps.Catalog
import TerraDeps.Sorting

/-!
# The order of addresses

Of two different addresses one comes first, since an address can be read off its key. `sorted`
lists what it is given in ascending order, each address as often as it was given.
-/

set_option autoImplicit false

namespace TerraDeps.Address

/-- Addresses with the same key are the same. -/
theorem eq_of_key_eq {a b : Address} (h : a.key = b.key) : a = b := by
  obtain ⟨specPath, targetName⟩ := a
  obtain ⟨specPath', targetName'⟩ := b
  obtain ⟨rfl, names⟩ := List.cons.inj h
  cases targetName <;> cases targetName' <;> simp_all

instance : KeyOrder Address where
  lt_irrefl a := KeyOrder.lt_irrefl a.key
  lt_trans ab bc := KeyOrder.lt_trans (κ := List String) ab bc
  lt_of_not_lt notLess different :=
    KeyOrder.lt_of_not_lt (κ := List String) notLess fun same => different (eq_of_key_eq same)

instance : Std.Asymm (α := Address) (· < ·) where
  asymm _ _ less back := KeyOrder.lt_irrefl _ (KeyOrder.lt_trans less back)

/-- No address comes before itself. -/
theorem le_refl (a : Address) : a ≤ a :=
  KeyOrder.lt_irrefl a

/-- An address that comes before another does not come after it. -/
theorem le_of_lt {a b : Address} (h : a < b) : a ≤ b :=
  fun back => KeyOrder.lt_irrefl a (KeyOrder.lt_trans h back)

/-- Of two different addresses, one that does not come after the other comes before it. -/
theorem lt_of_le_of_ne {a b : Address} (le : a ≤ b) (different : a ≠ b) : a < b :=
  KeyOrder.lt_of_not_lt le different.symm

/-- Two addresses of which neither comes after the other are the same. -/
theorem le_antisymm {a b : Address} (ab : a ≤ b) (ba : b ≤ a) : a = b := by
  by_cases same : a = b
  · exact same
  · exact absurd (lt_of_le_of_ne ab same) ba

/-- The order of addresses is transitive. -/
theorem le_trans {a b c : Address} (ab : a ≤ b) (bc : b ≤ c) : a ≤ c := by
  by_cases same : a = b
  · exact same ▸ bc
  · intro back
    exact bc (KeyOrder.lt_trans back (lt_of_le_of_ne ab same))

/-- Any two addresses can be compared. -/
theorem le_total (a b : Address) : a ≤ b ∨ b ≤ a := by
  by_cases h : b < a
  · exact .inr (le_of_lt h)
  · exact .inl h

/-- Sorting only moves addresses. -/
theorem perm_sorted (addresses : List Address) : (sorted addresses).Perm addresses :=
  List.mergeSort_perm _ _

/-- The sorted addresses are those that are sorted. -/
theorem mem_sorted {addresses : List Address} {a : Address} :
    a ∈ sorted addresses ↔ a ∈ addresses :=
  (perm_sorted addresses).mem_iff

/-- Sorting repeats no address. -/
theorem nodup_sorted {addresses : List Address} (h : addresses.Nodup) :
    (sorted addresses).Nodup :=
  (perm_sorted addresses).nodup_iff.mpr h

/-- Sorted addresses ascend. -/
theorem pairwise_sorted (addresses : List Address) :
    (sorted addresses).Pairwise fun a b => a ≤ b :=
  pairwise_mergeSort_key le_trans le_total id addresses

/-- What ascends without repetition ascends strictly. -/
theorem pairwise_lt {addresses : List Address} (ascending : addresses.Pairwise fun a b => a ≤ b)
    (nodup : addresses.Nodup) : addresses.Pairwise fun a b => a < b :=
  (ascending.and nodup).imp fun both => lt_of_le_of_ne both.1 both.2

/-- A list whose keys ascend strictly is known by what stands in it. -/
theorem eq_of_pairwise_key_lt {α : Type} {key : α → Address} {l m : List α}
    (hl : l.Pairwise fun a b => key a < key b) (hm : m.Pairwise fun a b => key a < key b)
    (same : ∀ a, a ∈ l ↔ a ∈ m) : l = m := by
  have distinct {k : List α} (hk : k.Pairwise fun a b => key a < key b) : k.Nodup := by
    refine hk.imp fun less equal => ?_
    rw [equal] at less
    exact KeyOrder.lt_irrefl _ less
  refine List.Perm.eq_of_pairwise (fun a b _ _ less back => ?_) hl hm
    ((List.perm_ext_iff_of_nodup (distinct hl) (distinct hm)).mpr same)
  exact absurd (KeyOrder.lt_trans less back) (KeyOrder.lt_irrefl (key a))

/-- Strictly ascending lists with the same addresses are the same. -/
theorem eq_of_pairwise_lt {l m : List Address} (hl : l.Pairwise fun a b => a < b)
    (hm : m.Pairwise fun a b => a < b) (same : ∀ a, a ∈ l ↔ a ∈ m) : l = m :=
  @eq_of_pairwise_key_lt Address id l m hl hm same

end TerraDeps.Address
