import Mathlib.Data.Finset.Card
import TerraDeps.OrderedSet

/-!
# What a set holds

A set comes to be empty or from a list, and then elements are inserted, one or several at a time. Of
this history only the elements count, in the order in which they were offered: the set holds each of
them where it was offered first (`HoldsFirsts`), with the map from an element to its place always up
to date. One insertion keeps this (`HoldsFirsts.insert`), so every history does, and each question
to the set, whether it reads the list or the map, is answered by the history (`answersFor_history`).
-/

set_option autoImplicit false

namespace TerraDeps.OrderedSet

/-- How a set starts out. -/
inductive Start (α : Type) where
  /-- Without elements. -/
  | empty
  /-- With the elements of a list. -/
  | ofList (xs : List α)

/-- What is done to a set at a time. -/
inductive Change (α : Type) where
  | insert (x : α)
  | extend (xs : List α)

/-- How a set came to be. -/
structure History (α : Type) where
  start : Start α
  /-- What was done to it since, in order. -/
  changes : List (Change α)

section Histories

variable {α : Type}

/-- The elements that are offered at the start. -/
def Start.elements : Start α → List α
  | empty => []
  | ofList xs => xs

/-- The elements that a change offers. -/
def Change.elements : Change α → List α
  | insert x => [x]
  | extend xs => xs

/-- All elements that are offered, in order. -/
def History.elements (h : History α) : List α :=
  h.start.elements ++ h.changes.flatMap Change.elements

variable [DecidableEq α]

/-- The set at the start. -/
def Start.set : Start α → OrderedSet α
  | empty => .empty
  | ofList xs => .ofList xs

/-- The set after a change. -/
def Change.apply (s : OrderedSet α) : Change α → OrderedSet α
  | insert x => (s.insertNew x).1
  | extend xs => s.extend xs

/-- The set that has come to be. -/
def History.set (h : History α) : OrderedSet α :=
  h.changes.foldl Change.apply h.start.set

end Histories

variable {α : Type} [DecidableEq α] {s : OrderedSet α} {given : List α}

/-- The set holds the given elements, each where it is given first, and maps each to its place. -/
structure HoldsFirsts (s : OrderedSet α) (given : List α) : Prop where
  nodup : s.toList.Nodup
  mem_iff : ∀ x, x ∈ s.toList ↔ x ∈ given
  inOrder : s.toList.Pairwise fun x y => given.idxOf x < given.idxOf y
  placeOf_iff : ∀ x i, s.placeOf x = some i ↔ s.toList[i]? = some x

/-- The set answers by the given elements. -/
structure AnswersFor (s : OrderedSet α) (given : List α) : Prop where
  position_iff : ∀ x i, s.position? x = some i ↔ s.toList[i]? = some x
  contains_iff : ∀ x, s.contains x = true ↔ x ∈ given
  isNew_iff : ∀ x, (s.insertNew x).2 = true ↔ x ∉ given
  unchanged : ∀ x, (s.insertNew x).2 = false → (s.insertNew x).1 = s
  size_eq : s.size = given.toFinset.card
  isEmpty_iff : s.isEmpty = true ↔ given = []

/-! ## Insertions -/

/-- The empty set holds the first occurrences in nothing. -/
theorem holdsFirsts_empty : HoldsFirsts (empty : OrderedSet α) [] where
  nodup := List.nodup_nil
  mem_iff _ := Iff.rfl
  inOrder := List.Pairwise.nil
  placeOf_iff := givesPlaces_nil

/-- An insertion keeps the first occurrences: one more element is either no first occurrence or the
last of them. -/
theorem HoldsFirsts.insert (h : HoldsFirsts s given) (x : α) :
    HoldsFirsts (s.insert x) (given ++ [x]) where
  nodup := (s.insert x).nodup
  mem_iff y := by
    rw [mem_toList_insert, h.mem_iff, List.mem_append, List.mem_singleton]
  inOrder := by
    have kept : ∀ y ∈ s.toList, (given ++ [x]).idxOf y = given.idxOf y := fun y inside =>
      List.idxOf_append_of_mem ((h.mem_iff y).mp inside)
    have still : s.toList.Pairwise fun y z => (given ++ [x]).idxOf y < (given ++ [x]).idxOf z :=
      h.inOrder.imp_of_mem fun hy hz less => by rwa [kept _ hy, kept _ hz]
    rw [toList_insert]
    split
    · exact still
    · rename_i new
      refine List.pairwise_append.mpr ⟨still, List.pairwise_singleton _ _, fun y hy z hz => ?_⟩
      obtain rfl := List.mem_singleton.mp hz
      have last : (given ++ [z]).idxOf z = given.length := by
        rw [List.idxOf_append_of_notMem (mt (h.mem_iff z).mpr new), List.idxOf_cons_self,
          Nat.add_zero]
      rw [kept y hy, last]
      exact List.idxOf_lt_length_of_mem ((h.mem_iff y).mp hy)
  placeOf_iff := (s.insert x).givesPlaces

/-- A set extended by elements holds the first occurrences in what it was given before and these. -/
theorem HoldsFirsts.extend (h : HoldsFirsts s given) (xs : List α) :
    HoldsFirsts (s.extend xs) (given ++ xs) := by
  induction xs generalizing s given with
  | nil => rwa [List.append_nil]
  | cons x xs ih =>
    have more := ih (h.insert x)
    rwa [List.append_assoc, List.singleton_append] at more

/-- A changed set holds the first occurrences in what it was given before and by the change. -/
theorem HoldsFirsts.apply (h : HoldsFirsts s given) (change : Change α) :
    HoldsFirsts (change.apply s) (given ++ change.elements) := by
  cases change with
  | insert x => exact h.insert x
  | extend xs => exact h.extend xs

/-- A set holds the first occurrences in what it starts with. -/
theorem holdsFirsts_start (start : Start α) : HoldsFirsts start.set start.elements := by
  cases start with
  | empty => exact holdsFirsts_empty
  | ofList xs => exact holdsFirsts_empty.extend xs

/-- After several changes a set holds the first occurrences in all that it was given. -/
theorem HoldsFirsts.foldl_apply (h : HoldsFirsts s given) (changes : List (Change α)) :
    HoldsFirsts (changes.foldl Change.apply s) (given ++ changes.flatMap Change.elements) := by
  induction changes generalizing s given with
  | nil => rwa [List.flatMap_nil, List.append_nil]
  | cons change changes ih =>
    have more := ih (h.apply change)
    rwa [List.append_assoc, ← List.flatMap_cons] at more

/-! ## What the first occurrences determine -/

/-- Only one list has the given elements in the order in which they are given first. -/
theorem HoldsFirsts.unique {t : OrderedSet α} (h : HoldsFirsts s given) (h' : HoldsFirsts t given) :
    s = t := by
  have same : s.toList.Perm t.toList :=
    (List.perm_ext_iff_of_nodup h.nodup h'.nodup).mpr fun x =>
      (h.mem_iff x).trans (h'.mem_iff x).symm
  refine eq_of_toList_eq (same.eq_of_pairwise (fun x y _ _ less more => ?_) h.inOrder h'.inOrder)
  exact absurd (Nat.lt_trans less more) (Nat.lt_irrefl _)

/-- The first occurrences are what is left without repetitions. -/
theorem HoldsFirsts.toList_eq (h : HoldsFirsts s given) : s.toList = given.eraseDups := by
  rw [h.unique (holdsFirsts_start (.ofList given))]
  exact toList_ofList given

/-- A set with the first occurrences gives the answers for them. -/
theorem HoldsFirsts.answersFor (h : HoldsFirsts s given) : AnswersFor s given where
  position_iff := h.placeOf_iff
  contains_iff x := contains_eq_true_iff.trans (h.mem_iff x)
  isNew_iff x := by
    rw [insertNew_eq, decide_eq_true_eq, h.mem_iff]
  unchanged x old := by
    rw [insertNew_eq, decide_eq_false_iff_not, not_not] at old
    rw [insertNew_of_mem old]
  size_eq := by
    rw [size, ← List.toFinset_card_of_nodup h.nodup]
    refine congrArg Finset.card (Finset.ext fun x => ?_)
    rw [List.mem_toFinset, List.mem_toFinset, h.mem_iff]
  isEmpty_iff := by
    rw [isEmpty, List.isEmpty_iff, List.eq_nil_iff_forall_not_mem, List.eq_nil_iff_forall_not_mem]
    exact forall_congr' fun x => not_congr (h.mem_iff x)

/-- A set holds what its history offered, each element where it came first, and answers every
question so. Two sets are equal exactly when their histories have the same first occurrences. -/
theorem answersFor_history (h : History α) :
    HoldsFirsts h.set h.elements ∧ AnswersFor h.set h.elements ∧
      h.set.toList = h.elements.eraseDups ∧
      ∀ other : History α, h.set = other.set ↔ h.elements.eraseDups = other.elements.eraseDups := by
  have holds (h : History α) : HoldsFirsts h.set h.elements :=
    (holdsFirsts_start h.start).foldl_apply h.changes
  refine ⟨holds h, (holds h).answersFor, (holds h).toList_eq, fun other => ?_⟩
  rw [← (holds h).toList_eq, ← (holds other).toList_eq]
  exact ⟨congrArg toList, eq_of_toList_eq⟩

end TerraDeps.OrderedSet
