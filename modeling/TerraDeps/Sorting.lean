import TerraDeps.OrderedSet

/-!
# Sorted lists

A list that is sorted by a key ascends. To leave something out before sorting is to leave it out
afterwards, what is not among the first elements comes after them, and where repetitions beside each
other are dropped something with each key is kept.
-/

set_option autoImplicit false

namespace TerraDeps

section Sorting

variable {α β : Type} [LE β] [DecidableLE β]

/-- What is sorted by a key ascends in it. -/
theorem pairwise_mergeSort_key (trans : ∀ {a b c : β}, a ≤ b → b ≤ c → a ≤ c)
    (total : ∀ a b : β, a ≤ b ∨ b ≤ a) (key : α → β) (l : List α) :
    (l.mergeSort fun a b => decide (key a ≤ key b)).Pairwise fun a b => key a ≤ key b := by
  refine (List.pairwise_mergeSort (fun a b c ab bc => ?_) (fun a b => ?_) l).imp of_decide_eq_true
  · exact decide_eq_true (trans (of_decide_eq_true ab) (of_decide_eq_true bc))
  · simpa using total (key a) (key b)

/-- What is left out of a list is left out of the sorted list, which keeps its order. -/
theorem mergeSort_sublist_mergeSort (trans : ∀ {a b c : β}, a ≤ b → b ≤ c → a ≤ c)
    (total : ∀ a b : β, a ≤ b ∨ b ≤ a) (antisymm : ∀ {a b : β}, a ≤ b → b ≤ a → a = b)
    {l m : List β} (h : l.Sublist m) :
    (l.mergeSort fun a b => decide (a ≤ b)).Sublist (m.mergeSort fun a b => decide (a ≤ b)) := by
  have ascending (l : List β) : (l.mergeSort fun a b => decide (a ≤ b)).Pairwise (· ≤ ·) :=
    pairwise_mergeSort_key trans total id l
  obtain ⟨kept, perm, sublist⟩ := List.exists_perm_sublist h (List.mergeSort_perm m _).symm
  have same : (l.mergeSort fun a b => decide (a ≤ b)) = kept :=
    List.Perm.eq_of_pairwise (fun _ _ _ _ => antisymm) (ascending l)
      ((ascending m).sublist sublist) ((List.mergeSort_perm l _).trans perm.symm)
  rwa [same]

/-- What is in an ordered list and not among its first elements comes after all of these. -/
theorem rel_of_not_mem_take {r : α → α → Prop} {l : List α} {n : Nat} {a : α}
    (ordered : l.Pairwise r) (inside : a ∈ l) (left : a ∉ l.take n) :
    (l.take n).length = n ∧ ∀ b ∈ l.take n, r b a := by
  rw [← List.take_append_drop n l] at ordered inside
  have later := (List.mem_append.mp inside).resolve_left left
  refine ⟨?_, fun b first => (List.pairwise_append.mp ordered).2.2 b first a later⟩
  have notEmpty := List.length_pos_of_mem later
  rw [List.length_drop] at notEmpty
  rw [List.length_take]
  omega

end Sorting

section Repeats

variable {α β : Type} [DecidableEq β] {l : List α} {a : α}

/-- What is left without repeats stands in the same order. -/
theorem dropRepeats_sublist (key : α → β) (l : List α) : (dropRepeats key l).Sublist l := by
  fun_induction dropRepeats key l with
  | case1 => exact List.Sublist.slnil
  | case2 a => exact List.Sublist.refl [a]
  | case3 a b rest same ih => exact ih.trans ((List.sublist_cons_self b rest).cons_cons a)
  | case4 a b rest different ih => exact ih.cons_cons a

/-- Of what is dropped, something with the same key is kept. -/
theorem exists_mem_dropRepeats (key : α → β) (inside : a ∈ l) :
    ∃ b ∈ dropRepeats key l, key b = key a := by
  fun_induction dropRepeats key l generalizing a with
  | case1 => contradiction
  | case2 b =>
    obtain rfl := List.mem_singleton.mp inside
    exact ⟨a, List.mem_singleton_self a, rfl⟩
  | case3 b c rest same ih =>
    rcases List.mem_cons.mp inside with rfl | later
    · exact ih List.mem_cons_self
    · rcases List.mem_cons.mp later with rfl | later
      · rw [← same]
        exact ih List.mem_cons_self
      · exact ih (List.mem_cons_of_mem b later)
  | case4 b c rest different ih =>
    rcases List.mem_cons.mp inside with rfl | later
    · exact ⟨_, List.mem_cons_self, rfl⟩
    · obtain ⟨d, kept, same⟩ := ih later
      exact ⟨d, List.mem_cons_of_mem b kept, same⟩

end Repeats

end TerraDeps
