/-!
# The edit distance of texts

The distance of two texts is the least number of characters to insert, remove or replace on the
way from one to the other. It is found row by row: the row of a start of `s` holds its distances
from every start of `t`.
-/

set_option autoImplicit false

namespace TerraDeps.Text

/-- The rest of a row: `left` is the entry before it, `diagonal` the one above that, and the list
pairs each further character of the other text with the entry above. -/
def rowAfter (c : Char) (left diagonal : Nat) : List (Char × Nat) → List Nat
  | [] => []
  | (d, up) :: rest =>
    let here := min (min (left + 1) (up + 1)) (diagonal + if c = d then 0 else 1)
    here :: rowAfter c here up rest

/-- The row after `row` for one more character `c`. -/
def nextRow (t : List Char) (c : Char) (row : List Nat) : List Nat :=
  match row with
  | [] => []
  | first :: above => (first + 1) :: rowAfter c (first + 1) first (t.zip above)

/-- The number of single-character changes between two texts. -/
def editDistance (s t : List Char) : Nat :=
  (s.foldl (fun row c => nextRow t c row) (List.range (t.length + 1))).getLastD 0

end TerraDeps.Text
