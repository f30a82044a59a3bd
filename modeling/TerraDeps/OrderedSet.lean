/-!
# Sets in order of insertion

An `OrderedSet` lists its elements without repetition in the order in which they were first
inserted, and maps each element to its place in the list, so that an element is looked up without
going through the list. Inserting an element again changes nothing. Two sets are equal when their
lists are, since the list determines the map.
-/

set_option autoImplicit false

namespace TerraDeps

section Places

variable {α : Type} {placeOf other : α → Option Nat} {l : List α} {x : α}

/-- Each element of the list is mapped to its place there, counted from 0, and nothing else is
mapped. -/
def GivesPlaces (placeOf : α → Option Nat) (l : List α) : Prop :=
  ∀ x i, placeOf x = some i ↔ l[i]? = some x

/-- Nothing has a place in the empty list. -/
theorem givesPlaces_nil : GivesPlaces (fun _ : α => none) [] := fun x i => by simp

/-- Just the items of the list have a place. -/
theorem GivesPlaces.isSome_iff (h : GivesPlaces placeOf l) : (placeOf x).isSome = true ↔ x ∈ l := by
  rw [Option.isSome_iff_exists, List.mem_iff_getElem?]
  exact exists_congr fun i => h x i

/-- No element stands at two places. -/
theorem GivesPlaces.nodup (h : GivesPlaces placeOf l) : l.Nodup := by
  refine List.pairwise_iff_getElem.mpr fun i j hi hj less same => ?_
  have first := (h _ i).mpr (List.getElem?_eq_getElem hi)
  rw [same, (h _ j).mpr (List.getElem?_eq_getElem hj), Option.some.injEq] at first
  omega

/-- The list determines the map. -/
theorem GivesPlaces.unique (h : GivesPlaces placeOf l) (h' : GivesPlaces other l) :
    placeOf = other :=
  funext fun x => Option.ext fun i => (h x i).trans (h' x i).symm

/-- A new element at the end of the list is mapped to the length that the list had. -/
theorem GivesPlaces.concat [DecidableEq α] (h : GivesPlaces placeOf l) (new : placeOf x = none) :
    GivesPlaces (fun y => if y = x then some l.length else placeOf y) (l ++ [x]) := by
  have fresh : ∀ j : Nat, l[j]? ≠ some x := by
    intro j stands
    rw [(h x j).mpr stands] at new
    contradiction
  intro y i
  show (if y = x then some l.length else placeOf y) = some i ↔ (l ++ [x])[i]? = some y
  rw [List.getElem?_append]
  by_cases same : y = x
  · subst same
    rw [if_pos rfl, Option.some.injEq]
    split
    · rename_i before
      exact iff_of_false (Nat.ne_of_gt before) (fresh i)
    · rw [List.getElem?_singleton]
      simp only [Option.ite_none_right_eq_some, and_true]
      omega
  · rw [if_neg same, h y i]
    split
    · rfl
    · rename_i notBefore
      rw [List.getElem?_eq_none (Nat.le_of_not_lt notBefore), List.getElem?_singleton]
      simp [Ne.symm same]

/-- The first index of an item is its place in a list without repetitions. -/
theorem givesPlaces_idxOf? [DecidableEq α] (nodup : l.Nodup) :
    GivesPlaces (fun x => l.idxOf? x) l := by
  intro x i
  rw [List.idxOf?_eq_some_iff, List.getElem?_eq_some_iff]
  constructor
  · rintro ⟨inside, stands, -⟩
    exact ⟨inside, stands⟩
  · rintro ⟨inside, stands⟩
    refine ⟨inside, stands, fun j before same => ?_⟩
    exact List.pairwise_iff_getElem.mp nodup j i _ inside before (same.trans stands.symm)

end Places

/-- A list of elements without repetition, with the place of each. -/
structure OrderedSet (α : Type) where
  /-- The elements in the order of their first insertion. -/
  toList : List α
  /-- The place of an element in the list. -/
  placeOf : α → Option Nat
  /-- The map is that of the list. -/
  givesPlaces : GivesPlaces placeOf toList

namespace OrderedSet

variable {α : Type}

/-- The set without elements. -/
def empty : OrderedSet α := ⟨[], fun _ => none, givesPlaces_nil⟩

/-- How many elements there are. -/
def size (s : OrderedSet α) : Nat :=
  s.toList.length

/-- Whether there are no elements. -/
def isEmpty (s : OrderedSet α) : Bool :=
  s.toList.isEmpty

/-- Whether the element is in the set. -/
def contains (s : OrderedSet α) (x : α) : Bool :=
  (s.placeOf x).isSome

/-- The place of an element, counted from 0. -/
def position? (s : OrderedSet α) (x : α) : Option Nat :=
  s.placeOf x

/-- No item of a set is listed twice. -/
theorem nodup (s : OrderedSet α) : s.toList.Nodup :=
  s.givesPlaces.nodup

/-- Sets with the same items in the same order are the same. -/
theorem eq_of_toList_eq {s t : OrderedSet α} (same : s.toList = t.toList) : s = t := by
  obtain ⟨l, placeOf, gives⟩ := s
  obtain ⟨m, other, gives'⟩ := t
  obtain rfl : l = m := same
  obtain rfl := gives.unique gives'
  rfl

/-- A set contains the items that it lists. -/
theorem contains_eq_true_iff {s : OrderedSet α} {x : α} : s.contains x = true ↔ x ∈ s.toList :=
  s.givesPlaces.isSome_iff

variable [DecidableEq α]

instance : DecidableEq (OrderedSet α) := fun s t =>
  decidable_of_iff (s.toList = t.toList) ⟨eq_of_toList_eq, congrArg toList⟩

/-- The set of the elements of a list without repetition. -/
def ofNodup (l : List α) (h : l.Nodup) : OrderedSet α :=
  ⟨l, fun x => l.idxOf? x, givesPlaces_idxOf? h⟩

/-- The set with one more element at its end, unless it has it already, and whether the element is
new to it. -/
def insertNew (s : OrderedSet α) (x : α) : OrderedSet α × Bool :=
  if h : s.contains x = true then (s, false)
  else
    (⟨s.toList ++ [x], fun y => if y = x then some s.toList.length else s.placeOf y,
      s.givesPlaces.concat (Option.not_isSome_iff_eq_none.mp h)⟩, true)

/-- The set with one more element at its end, unless it has it already. -/
def insert (s : OrderedSet α) (x : α) : OrderedSet α :=
  (s.insertNew x).1

/-- The set with more elements, inserted in turn. -/
def extend (s : OrderedSet α) (xs : List α) : OrderedSet α :=
  xs.foldl insert s

/-- The set of the elements of a list. -/
def ofList (xs : List α) : OrderedSet α :=
  empty.extend xs

/-- An element that the set has is not inserted again. -/
theorem insertNew_of_mem {s : OrderedSet α} {x : α} (old : x ∈ s.toList) :
    s.insertNew x = (s, false) :=
  dif_pos (contains_eq_true_iff.mpr old)

/-- An element that the set does not have comes to stand at the end. -/
theorem insertNew_of_not_mem {s : OrderedSet α} {x : α} (new : x ∉ s.toList) :
    (s.insertNew x).1.toList = s.toList ++ [x] ∧ (s.insertNew x).2 = true := by
  rw [insertNew, dif_neg (mt contains_eq_true_iff.mp new)]
  exact ⟨rfl, rfl⟩

/-- An insertion tells whether the element was missing before. -/
theorem insertNew_eq (s : OrderedSet α) (x : α) :
    s.insertNew x = (s.insert x, decide (x ∉ s.toList)) := by
  rw [insert]
  by_cases old : x ∈ s.toList
  · rw [insertNew_of_mem old, decide_eq_false (not_not_intro old)]
  · exact Prod.ext rfl ((insertNew_of_not_mem old).2.trans (decide_eq_true old).symm)

/-- An insertion puts a new item at the end and leaves an item that is there in its place. -/
theorem toList_insert (s : OrderedSet α) (x : α) :
    (s.insert x).toList = if x ∈ s.toList then s.toList else s.toList ++ [x] := by
  rw [insert]
  split
  · rename_i old
    rw [insertNew_of_mem old]
  · rename_i new
    exact (insertNew_of_not_mem new).1

/-- The items are those that there were and the one that is inserted. -/
theorem mem_toList_insert (s : OrderedSet α) (x y : α) :
    y ∈ (s.insert x).toList ↔ y ∈ s.toList ∨ y = x := by
  rw [toList_insert]
  split
  · rename_i old
    exact ⟨Or.inl, fun m => m.elim id fun e => e ▸ old⟩
  · simp

/-- What is inserted is what the set does not have, each element where it comes first. -/
theorem toList_extend (s : OrderedSet α) (xs : List α) :
    (s.extend xs).toList = s.toList ++ (xs.filter fun x => decide (x ∉ s.toList)).eraseDups := by
  induction xs generalizing s with
  | nil => simp [extend]
  | cons x xs ih =>
    have step : s.extend (x :: xs) = (s.insert x).extend xs := rfl
    rw [step, ih, toList_insert]
    by_cases old : x ∈ s.toList
    · simp [old]
    · have test : ∀ y, decide (y ∉ s.toList ++ [x]) = (decide (y ∉ s.toList) && !(y == x)) := by
        intro y
        by_cases same : y = x <;> simp [same]
      rw [if_neg old, List.filter_cons_of_pos (by simpa using old), List.eraseDups_cons,
        List.filter_filter]
      simp only [test, List.append_assoc, List.singleton_append, Bool.and_comm]

/-- The elements of a list are listed where they come first. -/
theorem toList_ofList (xs : List α) : (ofList xs).toList = xs.eraseDups := by
  have all : (xs.filter fun x => decide (x ∉ (empty : OrderedSet α).toList)) = xs :=
    List.filter_eq_self.mpr fun x _ => decide_eq_true List.not_mem_nil
  rw [ofList, toList_extend, all]
  rfl

end OrderedSet

/-- The list without elements whose key is that of the element before them. -/
def dropRepeats {α β : Type} [DecidableEq β] (key : α → β) : List α → List α
  | [] => []
  | [a] => [a]
  | a :: b :: rest =>
    if key a = key b then dropRepeats key (a :: rest) else a :: dropRepeats key (b :: rest)
termination_by l => l.length

/-- Where no key comes twice, nothing is dropped. -/
theorem dropRepeats_eq_self {α β : Type} [DecidableEq β] {key : α → β} {l : List α}
    (h : (l.map key).Nodup) : dropRepeats key l = l := by
  fun_induction dropRepeats key l with
  | case1 => rfl
  | case2 a => rfl
  | case3 a b rest same ih =>
    have first := (List.nodup_cons.mp h).1
    exact absurd (same ▸ List.mem_cons_self) first
  | case4 a b rest different ih => rw [ih (List.nodup_cons.mp h).2]

end TerraDeps
