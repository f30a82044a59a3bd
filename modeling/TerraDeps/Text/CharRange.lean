/-!
# Sets of characters given by ranges of code points

The properties of the Unicode standard are tables of ascending, disjoint ranges of code points.
`inRanges` looks a code point up in such a table.
-/

set_option autoImplicit false

namespace TerraDeps.Text

/-- Whether `code` lies in one of the `ranges`, whose bounds are inclusive and ascend; the search
ends at the first range that starts above `code`. -/
def inRanges (code : Nat) : List (Nat × Nat) → Bool
  | [] => false
  | (low, high) :: rest => !decide (code < low) && (decide (code ≤ high) || inRanges code rest)

end TerraDeps.Text
