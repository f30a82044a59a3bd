import TerraDeps.Decimal.Binary64

/-!
# The shortest decimal of a double

Among the decimals that round to a given double, `shortest` takes one with the fewest digits, and
among those the nearest. For each number of digits it tests the two neighbours of the double on
that decimal grid, in exact arithmetic; seventeen digits always suffice.
-/

set_option autoImplicit false

namespace TerraDeps.Decimal

/-- A positive decimal: the digits after the point of `0.d₁d₂… · 10 ^ pointExponent`. -/
structure Digits where
  digits : List Char
  pointExponent : Int
  deriving DecidableEq, Repr

/-- The number of decimal digits of a positive natural number. -/
def digitCount (n : Nat) : Nat :=
  (Nat.toDigits 10 n).length

/-- The least `k` with `num / den < 10 ^ k`, for a positive fraction. -/
def magnitude (num den : Nat) : Int :=
  if den ≤ num then digitCount (num / den)
  else
    let k : Int := 1 - digitCount (den / num)
    if den = num * Nat.pow 10 (1 - k - 1).toNat then k + 1 else k

/-- The double on the grid of `n` digits: numerator and denominator of its quotient by the grid's
unit. -/
def onGrid (num den : Nat) (k : Int) (n : Nat) : Nat × Nat :=
  let unit : Int := k - n
  (num * Nat.pow 10 (-unit).toNat, den * Nat.pow 10 unit.toNat)

/-- Four times the mantissa at the lower end of what rounds to the double. -/
def lowerEnd (x : Binary64) : Nat :=
  if x.mantissa = Binary64.leastMantissa ∧ Binary64.leastExponent < x.exponent then
    4 * x.mantissa - 1
  else 4 * x.mantissa - 2

/-- Whether the grid point `c` rounds to the double, of which a unit of the mantissa is `p / q` of
the grid's unit. -/
def roundsTo (x : Binary64) (p q c : Nat) : Bool :=
  let c4 := 4 * c * q
  let low := lowerEnd x * p
  let high := (4 * x.mantissa + 2) * p
  if x.mantissa % 2 = 0 then low ≤ c4 && c4 ≤ high else low < c4 && c4 < high

/-- The point of the grid of `n` digits that rounds to the double, if there is one: the nearer of
two, and of two that are equally near the even one. -/
def gridPoint? (x : Binary64) (k : Int) (n : Nat) : Option Nat :=
  let (p, q) := onGrid (1 <<< x.exponent.toNat) (1 <<< (-x.exponent).toNat) k n
  let below := x.mantissa * p / q
  let above := below + 1
  match roundsTo x p q below, roundsTo x p q above with
  | true, true =>
    let toBelow := x.mantissa * p - below * q
    let toAbove := above * q - x.mantissa * p
    if toBelow < toAbove then some below
    else if toAbove < toBelow then some above
    else some (if below % 2 = 0 then below else above)
  | true, false => some below
  | false, true => some above
  | false, false => none

/-- A grid point as digits without zeros at the end. -/
def ofGridPoint (k : Int) (n c : Nat) : Digits :=
  let written := Nat.toDigits 10 c
  ⟨(written.reverse.dropWhile (· == '0')).reverse, k - n + written.length⟩

/-- The shortest decimal that rounds to a positive double. -/
def shortest (x : Binary64) : Digits :=
  let (num, den) := x.ratio
  let k := magnitude num den
  let found := (List.range 17).findSome? fun i =>
    (gridPoint? x k (i + 1)).map (ofGridPoint k (i + 1))
  found.getD ⟨['0'], 1⟩

end TerraDeps.Decimal
