import Mathlib.Data.List.Induction
import Mathlib.Order.Bounds.Defs
import TerraDeps.Text.EditDistance

/-!
# The least number of changes

A change inserts, removes or replaces one character, and texts are as far apart as changes are
needed on the way from one to the other. To compare ways that change the texts in any order, the
texts are written one above the other in columns: a way of `n` changes gives such an alignment with
at most `n` columns whose two characters differ, and every alignment gives a way. The last column of
an alignment is then what the rows of the distance are computed by (`IsLeastCost.concat`), so that
the last entry of the last row is the least number of changes (`isLeast_editDistance`).
-/

set_option autoImplicit false

namespace TerraDeps.Text

/-- One character is inserted, removed or replaced. -/
inductive IsChange : List Char → List Char → Prop where
  | insert (front back : List Char) (c : Char) : IsChange (front ++ back) (front ++ c :: back)
  | remove (front back : List Char) (c : Char) : IsChange (front ++ c :: back) (front ++ back)
  | replace (front back : List Char) (c d : Char) :
      IsChange (front ++ c :: back) (front ++ d :: back)

/-- So many changes, one after the other, lead from the first text to the second. -/
inductive ChangesTo : Nat → List Char → List Char → Prop where
  | refl (s : List Char) : ChangesTo 0 s s
  | step {n : Nat} {s u t : List Char} (first : IsChange s u) (rest : ChangesTo n u t) :
      ChangesTo (n + 1) s t

/-- Two texts written one above the other: each column has a character of the upper text or none,
and one of the lower text or none. -/
abbrev Alignment := List (Option Char × Option Char)

namespace Alignment

/-- The upper text. -/
def upper (l : Alignment) : List Char := l.filterMap Prod.fst

/-- The lower text. -/
def lower (l : Alignment) : List Char := l.filterMap Prod.snd

/-- In how many columns the two texts differ. -/
def cost (l : Alignment) : Nat := l.countP fun column => column.1 ≠ column.2

/-- The alignment of a text with itself. -/
def same (s : List Char) : Alignment := s.map fun c => (some c, some c)

/-- The alignment of a text with nothing above it. -/
def inserted (t : List Char) : Alignment := t.map fun c => (none, some c)

/-- The alignment of a text with nothing below it. -/
def removed (s : List Char) : Alignment := s.map fun c => (some c, none)

variable {l m : Alignment} {s t : List Char} {x y : Option Char}

/-- The upper texts of two alignments follow one another. -/
@[simp] theorem upper_append : upper (l ++ m) = upper l ++ upper m := List.filterMap_append

/-- The lower texts of two alignments follow one another. -/
@[simp] theorem lower_append : lower (l ++ m) = lower l ++ lower m := List.filterMap_append

/-- The costs of two alignments add up. -/
@[simp] theorem cost_append : cost (l ++ m) = cost l + cost m := List.countP_append

/-- A column adds its upper character, if it has one. -/
@[simp] theorem upper_cons : upper ((x, y) :: l) = x.toList ++ upper l := by
  cases x <;> rfl

/-- A column adds its lower character, if it has one. -/
@[simp] theorem lower_cons : lower ((x, y) :: l) = y.toList ++ lower l := by
  cases y <;> rfl

/-- A column costs one unless both its characters are the same. -/
@[simp] theorem cost_cons : cost ((x, y) :: l) = (if x = y then 0 else 1) + cost l := by
  rw [cost, List.countP_cons, Nat.add_comm, cost]
  simp

/-- Without columns the upper text is empty. -/
@[simp] theorem upper_nil : upper [] = [] := rfl

/-- Without columns the lower text is empty. -/
@[simp] theorem lower_nil : lower [] = [] := rfl

/-- Without columns there is no cost. -/
@[simp] theorem cost_nil : cost [] = 0 := rfl

/-- A text aligned with itself costs nothing. -/
@[simp] theorem same_eq (s : List Char) :
    upper (same s) = s ∧ lower (same s) = s ∧ cost (same s) = 0 := by
  simp [upper, lower, cost, same, List.filterMap_map, Function.comp_def]

/-- An inserted text costs as much as it is long. -/
@[simp] theorem inserted_eq (t : List Char) :
    upper (inserted t) = [] ∧ lower (inserted t) = t ∧ cost (inserted t) = t.length := by
  simp [upper, lower, cost, inserted, List.filterMap_map, Function.comp_def]

/-- A removed text costs as much as it is long. -/
@[simp] theorem removed_eq (s : List Char) :
    upper (removed s) = s ∧ lower (removed s) = [] ∧ cost (removed s) = s.length := by
  simp [upper, lower, cost, removed, List.filterMap_map, Function.comp_def]

/-- As many characters as one text is longer than the other stand in columns that differ. -/
theorem length_le_add_cost (l : Alignment) :
    l.lower.length ≤ l.upper.length + l.cost ∧ l.upper.length ≤ l.lower.length + l.cost := by
  induction l with
  | nil => simp
  | cons column l ih =>
    obtain ⟨x, y⟩ := column
    rw [upper_cons, lower_cons, cost_cons, List.length_append, List.length_append]
    cases x <;> cases y <;> simp only [Option.toList_none, Option.toList_some, List.length_nil,
      List.length_singleton, reduceCtorEq, if_true, if_false, Option.some.injEq] <;> omega

/-- An alignment is cut where its upper text is. -/
theorem exists_append_of_upper {front back : List Char} (h : l.upper = front ++ back) :
    ∃ left right : Alignment, l = left ++ right ∧ left.upper = front ∧ right.upper = back :=
  List.filterMap_eq_append_iff.mp h

/-! ## Alignments and changes -/

/-- One character or none is aligned with any text at the cost of the text's length, or at that of
one change. -/
theorem exists_of_toList (x : Option Char) (t : List Char) :
    ∃ l : Alignment, l.upper = x.toList ∧ l.lower = t ∧ l.cost ≤ max 1 t.length := by
  cases x with
  | none =>
    refine ⟨inserted t, by simp, by simp, ?_⟩
    rw [(inserted_eq t).2.2]
    exact Nat.le_max_right 1 t.length
  | some c =>
    cases t with
    | nil => exact ⟨[(some c, none)], by simp⟩
    | cons d t =>
      refine ⟨(some c, some d) :: inserted t, by simp, by simp, ?_⟩
      rw [cost_cons, (inserted_eq t).2.2, List.length_cons]
      split <;> omega

/-- A change of the upper text costs at most one column more. -/
theorem exists_of_isChange {s u : List Char} (h : IsChange s u) (aligned : l.upper = u) :
    ∃ m : Alignment, m.upper = s ∧ m.lower = l.lower ∧ m.cost ≤ l.cost + 1 := by
  obtain ⟨front, back, x, y, rfl, rfl⟩ : ∃ front back, ∃ x y : Option Char,
      s = front ++ (x.toList ++ back) ∧ u = front ++ (y.toList ++ back) := by
    cases h with
    | insert front back c => exact ⟨front, back, none, some c, rfl, rfl⟩
    | remove front back c => exact ⟨front, back, some c, none, rfl, rfl⟩
    | replace front back c d => exact ⟨front, back, some c, some d, rfl, rfl⟩
  obtain ⟨left, rest, rfl, leftText, restText⟩ := exists_append_of_upper aligned
  obtain ⟨middle, right, rfl, middleText, rightText⟩ := exists_append_of_upper restText
  obtain ⟨changed, changedText, sameLower, cheap⟩ := exists_of_toList x middle.lower
  refine ⟨left ++ (changed ++ right), by simp [*], by simp [*], ?_⟩
  -- the columns of the changed character stand above a text no longer than they cost before
  have short := (length_le_add_cost middle).1
  have single : y.toList.length ≤ 1 := by cases y <;> simp
  rw [middleText] at short
  simp only [cost_append]
  omega

/-- Changes are the columns of an alignment that costs no more. -/
theorem exists_of_changesTo {n : Nat} (h : ChangesTo n s t) :
    ∃ l : Alignment, l.upper = s ∧ l.lower = t ∧ l.cost ≤ n := by
  induction h with
  | refl s => exact ⟨same s, by simp⟩
  | step first rest ih =>
    obtain ⟨l, aligned, rfl, cheap⟩ := ih
    obtain ⟨m, changed, sameLower, cost⟩ := exists_of_isChange first aligned
    exact ⟨m, changed, sameLower, by omega⟩

end Alignment

/-- A change behind a text is a change of the whole. -/
theorem IsChange.append {s t : List Char} (h : IsChange s t) (front : List Char) :
    IsChange (front ++ s) (front ++ t) := by
  cases h with
  | insert before back c =>
    rw [← List.append_assoc, ← List.append_assoc]
    exact .insert (front ++ before) back c
  | remove before back c =>
    rw [← List.append_assoc, ← List.append_assoc]
    exact .remove (front ++ before) back c
  | replace before back c d =>
    rw [← List.append_assoc, ← List.append_assoc]
    exact .replace (front ++ before) back c d

/-- Changes behind a text are changes of the whole. -/
theorem ChangesTo.append {n : Nat} {s t : List Char} (h : ChangesTo n s t) (front : List Char) :
    ChangesTo n (front ++ s) (front ++ t) := by
  induction h with
  | refl s => exact .refl (front ++ s)
  | step first rest ih => exact .step (first.append front) ih

/-- The columns whose characters differ are changed from the left to the right. -/
theorem Alignment.changesTo (l : Alignment) : ChangesTo l.cost l.upper l.lower := by
  induction l with
  | nil => exact .refl []
  | cons column l ih =>
    obtain ⟨x, y⟩ := column
    have later := ih.append y.toList
    rw [upper_cons, lower_cons, cost_cons]
    split
    · rename_i equal
      rwa [equal, Nat.zero_add]
    · rename_i different
      rw [Nat.add_comm]
      refine .step ?_ later
      cases x with
      | none =>
        cases y with
        | none => contradiction
        | some d => exact .insert [] (upper l) d
      | some c =>
        cases y with
        | none => exact .remove [] (upper l) c
        | some d => exact .replace [] (upper l) c d

/-! ## The least cost -/

/-- The least cost of an alignment of the two texts. -/
structure IsLeastCost (s t : List Char) (n : Nat) : Prop where
  attained : ∃ l : Alignment, l.upper = s ∧ l.lower = t ∧ l.cost = n
  least : ∀ l : Alignment, l.upper = s → l.lower = t → n ≤ l.cost

namespace IsLeastCost

open TerraDeps.Text.Alignment

variable {s t : List Char} {c d : Char} {n left up diagonal : Nat}

/-- The least cost is the least number of changes. -/
theorem isLeast (h : IsLeastCost s t n) : IsLeast {m | ChangesTo m s t} n := by
  constructor
  · obtain ⟨l, rfl, rfl, rfl⟩ := h.attained
    exact l.changesTo
  · intro m changes
    obtain ⟨l, above, below, cheap⟩ := exists_of_changesTo changes
    exact Nat.le_trans (h.least l above below) cheap

/-- From nothing, the least cost is to insert everything. -/
theorem nil_left (t : List Char) : IsLeastCost [] t t.length where
  attained := ⟨inserted t, by simp⟩
  least l above below := by
    have bound := (length_le_add_cost l).1
    rw [above, below] at bound
    simpa using bound

/-- To nothing, the least cost is to remove everything. -/
theorem nil_right (s : List Char) : IsLeastCost s [] s.length where
  attained := ⟨removed s, by simp⟩
  least l above below := by
    have bound := (length_le_add_cost l).2
    rw [above, below] at bound
    simpa using bound

/-- The last column of a cheapest alignment has the last character of one of the texts, or of both.
-/
theorem concat (hleft : IsLeastCost (s ++ [c]) t left) (hup : IsLeastCost s (t ++ [d]) up)
    (hdiagonal : IsLeastCost s t diagonal) :
    IsLeastCost (s ++ [c]) (t ++ [d])
      (min (min (left + 1) (up + 1)) (diagonal + if c = d then 0 else 1)) where
  attained := by
    obtain ⟨onLeft, leftUpper, leftLower, leftCost⟩ := hleft.attained
    obtain ⟨above, upUpper, upLower, upCost⟩ := hup.attained
    obtain ⟨before, beforeUpper, beforeLower, beforeCost⟩ := hdiagonal.attained
    have chosen : ∀ a b c : Nat,
        min (min a b) c = a ∨ min (min a b) c = b ∨ min (min a b) c = c := by
      omega
    rcases chosen (left + 1) (up + 1) (diagonal + if c = d then 0 else 1) with here | here | here
    · refine ⟨onLeft ++ [(none, some d)], by simp [leftUpper], by simp [leftLower], ?_⟩
      rw [here, cost_append, leftCost]
      rfl
    · refine ⟨above ++ [(some c, none)], by simp [upUpper], by simp [upLower], ?_⟩
      rw [here, cost_append, upCost]
      rfl
    · refine ⟨before ++ [(some c, some d)], by simp [beforeUpper], by simp [beforeLower], ?_⟩
      rw [here, cost_append, beforeCost]
      simp
  least l above below := by
    -- The last column decides which of the three bounds applies; one without characters costs
    -- nothing and is left out.
    induction l using List.reverseRecOn with
    | nil => simp at above
    | append_singleton l column ih =>
      obtain ⟨x, y⟩ := column
      rw [upper_append, upper_cons, upper_nil, List.append_nil] at above
      rw [lower_append, lower_cons, lower_nil, List.append_nil] at below
      rw [cost_append, cost_cons, cost_nil, Nat.add_zero]
      cases x with
      | none =>
        rw [Option.toList_none, List.append_nil] at above
        cases y with
        | none =>
          rw [Option.toList_none, List.append_nil] at below
          rw [if_pos rfl]
          exact ih above below
        | some e =>
          have bound := hleft.least l above (List.append_inj' below rfl).1
          rw [if_neg (Option.some_ne_none e).symm]
          omega
      | some b =>
        obtain ⟨start, last⟩ := List.append_inj' above rfl
        obtain rfl : b = c := by simpa using last
        cases y with
        | none =>
          rw [Option.toList_none, List.append_nil] at below
          have bound := hup.least l start below
          rw [if_neg (Option.some_ne_none b)]
          omega
        | some e =>
          obtain ⟨lowerStart, lowerLast⟩ := List.append_inj' below rfl
          obtain rfl : e = d := by simpa using lowerLast
          have bound := hdiagonal.least l start lowerStart
          simp only [Option.some.injEq]
          omega

end IsLeastCost

/-! ## Rows -/

/-- The entries are the least costs between `s` and each longer start of a text that starts with
`front` and goes on with `rest`. -/
def IsRowFrom (s front : List Char) : List Char → List Nat → Prop
  | [], [] => True
  | d :: rest, n :: row => IsLeastCost s (front ++ [d]) n ∧ IsRowFrom s (front ++ [d]) rest row
  | _, _ => False

section Rows

variable {s front rest : List Char} {row above : List Nat} {c : Char} {n left diagonal : Nat}

/-- The first row has the costs of insertions. -/
theorem isRowFrom_range' (front rest : List Char) :
    IsRowFrom [] front rest (List.range' (front.length + 1) rest.length) := by
  induction rest generalizing front with
  | nil => trivial
  | cons d rest ih =>
    have first := IsLeastCost.nil_left (front ++ [d])
    have later := ih (front ++ [d])
    rw [List.length_append, List.length_singleton] at first later
    exact ⟨first, later⟩

/-- The rest of a row follows from the entry before it and the row above. -/
theorem isRowFrom_rowAfter (hleft : IsLeastCost (s ++ [c]) front left)
    (hdiagonal : IsLeastCost s front diagonal) (habove : IsRowFrom s front rest above) :
    IsRowFrom (s ++ [c]) front rest (rowAfter c left diagonal (rest.zip above)) := by
  induction rest generalizing front above left diagonal with
  | nil => trivial
  | cons d rest ih =>
    cases above with
    | nil => exact habove.elim
    | cons up above =>
      obtain ⟨hup, later⟩ := habove
      have here := hleft.concat hup hdiagonal
      exact ⟨here, ih here hup later⟩

/-- The last entry of a row is the least cost for the whole text. -/
theorem isLeastCost_getLastD (first : IsLeastCost s front n) (h : IsRowFrom s front rest row) :
    IsLeastCost s (front ++ rest) ((n :: row).getLastD 0) := by
  induction rest generalizing front row n with
  | nil =>
    cases row with
    | nil => rwa [List.append_nil]
    | cons m row => exact h.elim
  | cons d rest ih =>
    cases row with
    | nil => exact h.elim
    | cons m row =>
      have last := ih h.1 h.2
      rwa [List.append_assoc, List.singleton_append] at last

end Rows

/-- The row of `s`: the least costs between `s` and every start of `t`, from the empty one on. -/
def IsRow (s t : List Char) (row : List Nat) : Prop :=
  ∃ above, row = s.length :: above ∧ IsRowFrom s [] t above

/-- The next row is that of a text with one more character. -/
theorem IsRow.nextRow {s t : List Char} {row : List Nat} (h : IsRow s t row) (c : Char) :
    IsRow (s ++ [c]) t (nextRow t c row) := by
  obtain ⟨above, rfl, habove⟩ := h
  have first := IsLeastCost.nil_right (s ++ [c])
  rw [List.length_append, List.length_singleton] at first
  refine ⟨_, ?_, isRowFrom_rowAfter first (IsLeastCost.nil_right s) habove⟩
  rw [Text.nextRow, List.length_append, List.length_singleton]

/-- The rows for more characters lead to that of the text with all of them. -/
theorem IsRow.foldl_nextRow {s t : List Char} {row : List Nat} (h : IsRow s t row)
    (more : List Char) :
    IsRow (s ++ more) t (more.foldl (fun row c => Text.nextRow t c row) row) := by
  induction more generalizing s row with
  | nil => rwa [List.append_nil]
  | cons c more ih =>
    have later := ih (h.nextRow c)
    rwa [List.append_assoc, List.singleton_append] at later

/-- The distance is the least cost of an alignment. -/
theorem isLeastCost_editDistance (s t : List Char) : IsLeastCost s t (editDistance s t) := by
  have start : IsRow [] t (List.range (t.length + 1)) := by
    refine ⟨_, ?_, isRowFrom_range' [] t⟩
    rw [List.range_eq_range', List.range'_succ]
    rfl
  obtain ⟨above, last, entries⟩ := start.foldl_nextRow s
  rw [List.nil_append] at last entries
  rw [editDistance, last]
  exact isLeastCost_getLastD (IsLeastCost.nil_right s) entries

/-- The distance of two texts is the least number of changes that lead from one to the other. -/
theorem isLeast_editDistance (s t : List Char) :
    IsLeast {n | ChangesTo n s t} (editDistance s t) :=
  (isLeastCost_editDistance s t).isLeast

-- Two characters that stand in each other's place are two changes.
example : editDistance "vcp".toList "vpc".toList = 2 := by decide

end TerraDeps.Text
