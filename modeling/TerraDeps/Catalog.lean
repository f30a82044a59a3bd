/-!
# Catalogs

A `Catalog` is a finite map, listed in ascending order of its keys. The type keeps the order, so
that a catalog has one form whatever the order of insertions; `get?_insert` says what an insertion
changes and `get?_restrict` what a restriction keeps.
-/

set_option autoImplicit false

namespace TerraDeps

variable {κ β : Type}

/-- Entries whose keys ascend. -/
def KeysAscend [LT κ] (entries : List (κ × β)) : Prop :=
  entries.Pairwise fun a b => a.1 < b.1

/-- An order of keys in which of two different keys one comes first. -/
class KeyOrder (κ : Type) [LT κ] : Prop where
  lt_irrefl : ∀ a : κ, ¬ a < a
  lt_trans : ∀ {a b c : κ}, a < b → b < c → a < c
  lt_of_not_lt : ∀ {a b : κ}, ¬ a < b → a ≠ b → b < a

instance : KeyOrder String where
  lt_irrefl := String.lt_irrefl
  lt_trans := String.lt_trans
  lt_of_not_lt notLess different :=
    Std.lt_of_le_of_ne (String.not_lt.mp notLess) fun same => different same.symm

/-- Lists are ordered by their first elements that differ, a start of a list before the list. -/
instance [LT κ] [KeyOrder κ] : KeyOrder (List κ) where
  lt_irrefl a := by
    induction a with
    | nil => simp
    | cons x a ih =>
      rw [List.cons_lt_cons_iff]
      rintro (less | ⟨-, less⟩)
      · exact KeyOrder.lt_irrefl x less
      · exact ih less
  lt_trans {a b c} ab bc := by
    induction c generalizing a b with
    | nil => exact absurd bc (List.not_lt_nil b)
    | cons z c ih =>
      cases a with
      | nil => exact List.nil_lt_cons z c
      | cons x a =>
        cases b with
        | nil => exact absurd ab (List.not_lt_nil _)
        | cons y b =>
          rw [List.cons_lt_cons_iff] at *
          rcases ab with xy | ⟨rfl, ab⟩
          · rcases bc with yz | ⟨rfl, -⟩
            · exact .inl (KeyOrder.lt_trans xy yz)
            · exact .inl xy
          · rcases bc with yz | ⟨rfl, bc⟩
            · exact .inl yz
            · exact .inr ⟨rfl, ih ab bc⟩
  lt_of_not_lt {a b} notLess different := by
    induction a generalizing b with
    | nil =>
      cases b with
      | nil => exact absurd rfl different
      | cons y b => exact absurd (List.nil_lt_cons y b) notLess
    | cons x a ih =>
      cases b with
      | nil => exact List.nil_lt_cons x a
      | cons y b =>
        rw [List.cons_lt_cons_iff] at *
        by_cases same : x = y
        · subst same
          refine .inr ⟨rfl, ih (fun less => notLess (.inr ⟨rfl, less⟩)) ?_⟩
          exact fun equal => different (equal ▸ rfl)
        · exact .inl (KeyOrder.lt_of_not_lt (fun less => notLess (.inl less)) same)

/-- A finite map in the order of its keys. -/
structure Catalog (κ β : Type) [LT κ] where
  /-- The keys with their values, ascending. -/
  entries : List (κ × β)
  /-- Every key comes before all later ones. -/
  keysAscend : KeysAscend entries

namespace Catalog

section Operations

variable [LT κ] [DecidableEq κ]

instance [DecidableEq β] : DecidableEq (Catalog κ β) := fun c d =>
  decidable_of_iff (c.entries = d.entries) (by cases c; cases d; simp)

/-- The catalog that holds nothing. -/
def empty : Catalog κ β := ⟨[], List.Pairwise.nil⟩

/-- The entries with `value` under `key`, in place of what was there. -/
def insertEntry [DecidableLT κ] (key : κ) (value : β) : List (κ × β) → List (κ × β)
  | [] => [(key, value)]
  | (k, v) :: rest =>
    if key < k then (key, value) :: (k, v) :: rest
    else if key = k then (key, value) :: rest
    else (k, v) :: insertEntry key value rest

/-- An insertion adds an entry under its key and no other. -/
theorem key_of_mem_insertEntry [DecidableLT κ] {key : κ} {value : β} {entries : List (κ × β)}
    {e : κ × β} (h : e ∈ insertEntry key value entries) : e.1 = key ∨ e ∈ entries := by
  fun_induction insertEntry key value entries with
  | case1 => exact .inl (congrArg Prod.fst (List.mem_singleton.mp h))
  | case2 k v rest less => exact (List.mem_cons.mp h).imp (congrArg Prod.fst) id
  | case3 v rest notLess =>
    exact (List.mem_cons.mp h).imp (congrArg Prod.fst) (List.mem_cons_of_mem _)
  | case4 k v rest notLess different ih =>
    rcases List.mem_cons.mp h with rfl | inside
    · exact .inr List.mem_cons_self
    · exact (ih inside).imp id (List.mem_cons_of_mem _)

/-- The value under a key. -/
def get? (c : Catalog κ β) (key : κ) : Option β :=
  (c.entries.find? fun e => decide (e.1 = key)).map Prod.snd

/-- The keys, ascending. -/
def keys (c : Catalog κ β) : List κ :=
  c.entries.map Prod.fst

/-- The values in the order of their keys. -/
def values (c : Catalog κ β) : List β :=
  c.entries.map Prod.snd

/-- How many keys there are. -/
def size (c : Catalog κ β) : Nat :=
  c.entries.length

/-- Whether there are no keys. -/
def isEmpty (c : Catalog κ β) : Bool :=
  c.entries.isEmpty

/-- How many keys have a value that passes the test. -/
def countValues (p : β → Bool) (c : Catalog κ β) : Nat :=
  c.entries.countP fun e => p e.2

/-- The first key, and the catalog without it; nothing if there are no keys. -/
def popFirst? : Catalog κ β → Option (κ × Catalog κ β)
  | ⟨[], _⟩ => none
  | ⟨(key, _) :: rest, ascend⟩ => some (key, ⟨rest, (List.pairwise_cons.mp ascend).2⟩)

/-- The catalog without the keys that fail the test. -/
def restrict (keep : κ → Bool) (c : Catalog κ β) : Catalog κ β :=
  ⟨c.entries.filter fun e => keep e.1, List.Pairwise.filter _ c.keysAscend⟩

omit [DecidableEq κ] in
/-- What is taken first stands first, and the rest behind it is left. -/
theorem entries_of_popFirst? {c rest : Catalog κ β} {key : κ}
    (h : c.popFirst? = some (key, rest)) : ∃ value, c.entries = (key, value) :: rest.entries := by
  obtain ⟨entries, ascend⟩ := c
  cases entries with
  | nil => contradiction
  | cons e entries =>
    obtain ⟨rfl, rfl⟩ := Prod.mk.inj (Option.some.inj h)
    exact ⟨e.2, rfl⟩

omit [DecidableEq κ] in
/-- A catalog from which nothing can be taken has no entries. -/
theorem entries_of_popFirst?_eq_none {c : Catalog κ β} (h : c.popFirst? = none) :
    c.entries = [] := by
  obtain ⟨entries, ascend⟩ := c
  cases entries with
  | nil => rfl
  | cons e entries => contradiction

/-- Nothing is under any key of the empty catalog. -/
theorem get?_empty (key : κ) : (empty : Catalog κ β).get? key = none := rfl

omit [LT κ] in
/-- The first entry under its own key is the first of all, and under any other key it is one of the
rest. -/
theorem find?_cons_key (k : κ) (v : β) (rest : List (κ × β)) (key : κ) :
    (((k, v) :: rest).find? fun e => decide (e.1 = key)).map Prod.snd =
      if key = k then some v else (rest.find? fun e => decide (e.1 = key)).map Prod.snd := by
  by_cases same : key = k
  · simp [same]
  · simp [same, Ne.symm same]

omit [LT κ] in
/-- A test of keys leaves the first entry under a key that passes, and no entry under one that
fails. -/
theorem find?_filter_key (keep : κ → Bool) (entries : List (κ × β)) (key : κ) :
    ((entries.filter fun e => keep e.1).find? fun e => decide (e.1 = key)).map Prod.snd =
      if keep key then (entries.find? fun e => decide (e.1 = key)).map Prod.snd else none := by
  induction entries with
  | nil => simp
  | cons e rest ih =>
    obtain ⟨k, v⟩ := e
    rw [find?_cons_key, List.filter_cons]
    by_cases same : key = k
    · subst same
      by_cases kept : keep key = true
      · rw [if_pos kept, if_pos kept, if_pos rfl, find?_cons_key, if_pos rfl]
      · rw [if_neg kept, if_neg kept, ih, if_neg kept]
    · rw [if_neg same, ← ih]
      by_cases kept : keep k = true
      · rw [if_pos kept, find?_cons_key, if_neg same]
      · rw [if_neg kept]

/-- A restriction keeps the values under the keys that pass the test and no others. -/
theorem get?_restrict (keep : κ → Bool) (c : Catalog κ β) (key : κ) :
    (c.restrict keep).get? key = if keep key then c.get? key else none :=
  find?_filter_key keep c.entries key

/-- An insertion changes the first entry under its key and under no other. -/
theorem find?_insertEntry [DecidableLT κ] (key : κ) (value : β) (entries : List (κ × β))
    (key' : κ) :
    ((insertEntry key value entries).find? fun e => decide (e.1 = key')).map Prod.snd =
      if key' = key then some value
      else (entries.find? fun e => decide (e.1 = key')).map Prod.snd := by
  fun_induction insertEntry key value entries with
  | case1 => exact find?_cons_key key value [] key'
  | case2 k v rest less => exact find?_cons_key key value ((k, v) :: rest) key'
  | case3 v rest notLess =>
    rw [find?_cons_key, find?_cons_key]
    split <;> rfl
  | case4 k v rest notLess different ih =>
    rw [find?_cons_key, find?_cons_key, ih]
    by_cases same : key' = k
    · rw [if_pos same, if_pos same, if_neg fun equal => different (equal.symm.trans same)]
    · rw [if_neg same, if_neg same]

end Operations

section Insertion

variable [LT κ] [DecidableEq κ] [DecidableLT κ] [KeyOrder κ]

/-- An insertion keeps the keys ascending. -/
theorem keysAscend_insertEntry {key : κ} {value : β} {entries : List (κ × β)}
    (h : KeysAscend entries) : KeysAscend (insertEntry key value entries) := by
  induction entries with
  | nil => simp [insertEntry, KeysAscend]
  | cons e rest ih =>
    obtain ⟨above, ascendRest⟩ := List.pairwise_cons.mp h
    simp only [insertEntry]
    split
    · rename_i lower
      refine List.pairwise_cons.mpr ⟨?_, h⟩
      intro f hf
      rcases List.mem_cons.mp hf with rfl | hf
      · exact lower
      · exact KeyOrder.lt_trans lower (above f hf)
    · rename_i notLower
      split
      · rename_i same
        exact List.pairwise_cons.mpr ⟨fun f hf => same ▸ above f hf, ascendRest⟩
      · rename_i different
        have higher : e.1 < key :=
          KeyOrder.lt_of_not_lt notLower different
        refine List.pairwise_cons.mpr ⟨?_, ih ascendRest⟩
        intro f hf
        rcases key_of_mem_insertEntry hf with hf | hf
        · exact hf ▸ higher
        · exact above f hf

omit [DecidableLT κ] in
/-- There is no entry under a key that comes before all others. -/
theorem find?_eq_none_of_below {key : κ} {entries : List (κ × β)}
    (below : ∀ e ∈ entries, key < e.1) :
    (entries.find? fun e => decide (e.1 = key)) = none := by
  rw [List.find?_eq_none]
  intro e he same
  have less := below e he
  rw [of_decide_eq_true same] at less
  exact KeyOrder.lt_irrefl _ less

omit [DecidableLT κ] in
/-- The value under a key is that of the entry with the key. -/
theorem get?_eq_some_iff {c : Catalog κ β} {key : κ} {value : β} :
    c.get? key = some value ↔ (key, value) ∈ c.entries := by
  obtain ⟨entries, ascend⟩ := c
  simp only [get?]
  induction entries with
  | nil => simp
  | cons e rest ih =>
    obtain ⟨above, ascendRest⟩ := List.pairwise_cons.mp ascend
    rw [List.find?_cons]
    by_cases same : e.1 = key
    · subst same
      have later : (e.1, value) ∉ rest := fun h => KeyOrder.lt_irrefl e.1 (above (e.1, value) h)
      simp [later, Prod.ext_iff, eq_comm]
    · have other : (key, value) ≠ e := fun h => same (h ▸ rfl)
      simp [same, other, ih ascendRest]

omit [DecidableLT κ] in
/-- The first key had a value and has none afterwards; nothing else changes. -/
theorem get?_of_popFirst? {c rest : Catalog κ β} {key : κ} (h : c.popFirst? = some (key, rest)) :
    (∃ value, c.get? key = some value) ∧
      ∀ k, rest.get? k = if k = key then none else c.get? k := by
  obtain ⟨value, entries⟩ := entries_of_popFirst? h
  have ascend := c.keysAscend
  rw [entries] at ascend
  have absent := find?_eq_none_of_below (List.pairwise_cons.mp ascend).1
  refine ⟨⟨value, by simp [get?, entries]⟩, ?_⟩
  intro k
  rw [get?, get?, entries, find?_cons_key]
  by_cases same : k = key
  · rw [if_pos same, same, absent]
    rfl
  · rw [if_neg same, if_neg same]

omit [DecidableLT κ] [KeyOrder κ] in
/-- The first key comes before all others. -/
theorem lt_of_popFirst? {c rest : Catalog κ β} {key k : κ} {value : β}
    (h : c.popFirst? = some (key, rest)) (other : k ≠ key) (found : c.get? k = some value) :
    key < k := by
  obtain ⟨_, entries⟩ := entries_of_popFirst? h
  have ascend := c.keysAscend
  rw [entries] at ascend
  obtain ⟨e, he, rfl⟩ := Option.map_eq_some_iff.mp found
  have inside := List.mem_of_find?_eq_some he
  have named : e.1 = k := by simpa using List.find?_some he
  rw [entries] at inside
  rcases List.mem_cons.mp inside with rfl | later
  · exact absurd named.symm other
  · exact named ▸ (List.pairwise_cons.mp ascend).1 e later

/-- The catalog with `value` under `key`, in place of what was there. -/
def insert (c : Catalog κ β) (key : κ) (value : β) : Catalog κ β :=
  ⟨insertEntry key value c.entries, keysAscend_insertEntry c.keysAscend⟩

/-- The catalog of the pairs; of two with one key, the later counts. -/
def ofList (pairs : List (κ × β)) : Catalog κ β :=
  pairs.foldl (fun c p => c.insert p.1 p.2) empty

/-- The catalog that has `f key` under each of the keys. -/
def tabulate (f : κ → β) (keys : List κ) : Catalog κ β :=
  ofList (keys.map fun key => (key, f key))

/-- An insertion changes the value under its key and no other. -/
theorem get?_insert (c : Catalog κ β) (key : κ) (value : β) (key' : κ) :
    (c.insert key value).get? key' = if key' = key then some value else c.get? key' :=
  find?_insertEntry key value c.entries key'

/-- After insertions of a function's values for keys, these are under the keys, and what was there
before is under the others. -/
theorem get?_foldl_insert (f : κ → β) (keys : List κ) (c : Catalog κ β) (key : κ) :
    ((keys.map fun k => (k, f k)).foldl (fun c p => c.insert p.1 p.2) c).get? key =
      if key ∈ keys then some (f key) else c.get? key := by
  induction keys generalizing c with
  | nil => simp
  | cons k keys ih =>
    rw [List.map_cons, List.foldl_cons, ih, get?_insert]
    by_cases later : key ∈ keys
    · simp [later]
    · by_cases same : key = k
      · simp [same]
      · simp [later, same]

/-- A tabulated function has its values under the given keys and none under the others. -/
theorem get?_tabulate (f : κ → β) (keys : List κ) (key : κ) :
    (tabulate f keys).get? key = if key ∈ keys then some (f key) else none := by
  rw [tabulate, ofList, get?_foldl_insert, get?_empty]

/-- An insertion counts the new value in place of the one that was under the key. -/
theorem countP_insertEntry (p : β → Bool) {key : κ} {value : β} {entries : List (κ × β)}
    (h : KeysAscend entries) :
    (insertEntry key value entries).countP (fun e => p e.2) +
        (if ((entries.find? fun e => decide (e.1 = key)).map Prod.snd).any p then 1 else 0) =
      entries.countP (fun e => p e.2) + (if p value then 1 else 0) := by
  induction entries with
  | nil => simp [insertEntry]
  | cons e rest ih =>
    obtain ⟨above, ascendRest⟩ := List.pairwise_cons.mp h
    simp only [insertEntry]
    split
    · rename_i lower
      have below : ∀ f ∈ e :: rest, key < f.1 := by
        intro f hf
        rcases List.mem_cons.mp hf with rfl | hf
        · exact lower
        · exact KeyOrder.lt_trans lower (above f hf)
      have absent := find?_eq_none_of_below below
      rw [absent]
      simp [List.countP_cons]
    · split
      · rename_i same
        simp only [List.countP_cons, List.find?_cons, same, decide_true, Option.map_some,
          Option.any_some]
        omega
      · rename_i different
        have other : decide (e.1 = key) = false :=
          decide_eq_false fun same => different same.symm
        rw [List.find?_cons, other]
        have := ih ascendRest
        simp only [List.countP_cons]
        omega

/-- An insertion counts its own value instead of the one that was there. -/
theorem countValues_insert (p : β → Bool) (c : Catalog κ β) (key : κ) (value : β) :
    (c.insert key value).countValues p + (if (c.get? key).any p then 1 else 0) =
      c.countValues p + (if p value then 1 else 0) :=
  countP_insertEntry p c.keysAscend

/-- An insertion adds one key at most. -/
theorem size_insert_le (c : Catalog κ β) (key : κ) (value : β) :
    (c.insert key value).size ≤ c.size + 1 := by
  have counted := countValues_insert (fun _ => true) c key value
  simp only [countValues, List.countP_true, if_true] at counted
  exact Nat.le_trans (Nat.le_add_right _ _) (Nat.le_of_eq counted)

end Insertion

end Catalog

end TerraDeps
