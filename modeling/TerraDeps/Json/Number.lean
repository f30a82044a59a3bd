import TerraDeps.Json.Value

/-!
# Numbers of JSON texts

The value of a number that is given by its digits. A whole number of 64 bits is kept as it is. Any
other number becomes a double: as many leading digits as fit 64 bits are taken as a whole number,
which is then scaled by a power of ten, so that it may be rounded more than once.
-/

set_option autoImplicit false

namespace TerraDeps.JsonNumber

open Decimal

/-- The least number that 64 bits cannot hold. -/
def wordLimit : Nat := UInt64.size

/-- Appends digits to a number as long as it fits 64 bits; the result is the number and the digits
that were left out. -/
def absorb (n : Nat) : List Nat → Nat × List Nat
  | [] => (n, [])
  | d :: ds => if 10 * n + d < wordLimit then absorb (10 * n + d) ds else (n, d :: ds)

/-- A power of ten as a double, for exponents up to 308. -/
def powerOfTen (k : Nat) : Binary64 :=
  (Binary64.ofNat? (Nat.pow 10 k)).getD .zero

/-- The double over a power of ten; powers beyond 308 are divided out in turns. -/
def scaleDown (x : Binary64) (k : Nat) : Option Binary64 :=
  if k ≤ 308 then x.div? (powerOfTen k)
  else if x.mantissa = 0 then some x
  else (x.div? (powerOfTen 308)).bind fun y => scaleDown y (k - 308)
termination_by k

/-- The double times a power of ten, unless it is too great. -/
def scaleUp (x : Binary64) (k : Nat) : Option Binary64 :=
  if k ≤ 308 then x.mul? (powerOfTen k)
  else if x.mantissa = 0 then some x
  else none

/-- The double for a whole number times a power of ten, unless it is too great. -/
def scaled (n : Nat) (exponent : Int) : Option Binary64 :=
  (Binary64.ofNat? n).bind fun x =>
    if 0 ≤ exponent then scaleUp x exponent.toNat else scaleDown x (-exponent).toNat

/-- The number with the given sign, digits before the point, digits after it (if there is a point)
and exponent (if there is one); nothing if it is greater than every double. -/
def ofParts (negative : Bool) (whole : List Nat) (part : Option (List Nat))
    (exponent : Option Int) : Option JsonNumber :=
  let (n, dropped) := absorb 0 whole
  if dropped.isEmpty && part.isNone && exponent.isNone then
    if negative = false then some (.int n)
    else if 0 < n ∧ n ≤ wordLimit / 2 then some (.int (-n))
    else (Binary64.ofNat? n).map (.double true)
  else
    let after := part.getD []
    let (m, rest) := absorb n after
    let shift : Int := (dropped.length : Int) - ((after.length : Int) - rest.length)
    (scaled m (shift + exponent.getD 0)).map (.double negative)

end TerraDeps.JsonNumber
