/-!
# Double-precision numbers

A non-negative finite double is `mantissa · 2 ^ exponent`, with a mantissa below `2 ^ 53` and an
exponent of at least -1074. `ofRatio?` rounds a fraction to the nearest double, a tie going to the
even mantissa; products and quotients are rounded once from the exact result. All arithmetic is on
natural numbers.
-/

set_option autoImplicit false

namespace TerraDeps.Decimal

/-- A non-negative finite double. -/
structure Binary64 where
  mantissa : Nat
  exponent : Int
  deriving DecidableEq, Repr

namespace Binary64

/-- Zero. -/
def zero : Binary64 := ⟨0, -1074⟩

/-- The exponent of the least doubles. -/
def leastExponent : Int := -1074

/-- The exponent of the greatest doubles. -/
def greatestExponent : Int := 971

/-- The least mantissa of 53 bits. -/
def leastMantissa : Nat := 1 <<< 52

/-- A fraction equal to the double: its numerator and denominator. -/
def ratio (x : Binary64) : Nat × Nat :=
  (x.mantissa <<< x.exponent.toNat, 1 <<< (-x.exponent).toNat)

/-- The whole number nearest to a fraction; a tie goes to the even one. -/
def roundDiv (num den : Nat) : Nat :=
  let q := num / den
  let twice := 2 * (num % den)
  if twice < den then q
  else if den < twice then q + 1
  else if q % 2 = 0 then q else q + 1

/-- The exponent at which the mantissa of a fraction has 53 bits, or the least exponent if that is
greater. -/
def exponentFor (num den : Nat) : Int :=
  let low : Int := (Nat.log2 num : Int) - (Nat.log2 den : Int) - 53
  let reaches := den <<< (low + 53).toNat ≤ num <<< (-(low + 53)).toNat
  max leastExponent (if reaches then low + 1 else low)

/-- The double nearest to a fraction, or nothing if it is beyond the greatest double. -/
def ofRatio? (num den : Nat) : Option Binary64 :=
  if num = 0 then some zero
  else
    let e := exponentFor num den
    let m := roundDiv (num <<< (-e).toNat) (den <<< e.toNat)
    let x : Binary64 := if m = 2 * leastMantissa then ⟨leastMantissa, e + 1⟩ else ⟨m, e⟩
    if x.exponent ≤ greatestExponent then some x else none

/-- The double nearest to a natural number. -/
def ofNat? (n : Nat) : Option Binary64 :=
  ofRatio? n 1

/-- The double nearest to a product. -/
def mul? (x y : Binary64) : Option Binary64 :=
  ofRatio? (x.ratio.1 * y.ratio.1) (x.ratio.2 * y.ratio.2)

/-- The double nearest to a quotient, the divisor not being zero. -/
def div? (x y : Binary64) : Option Binary64 :=
  ofRatio? (x.ratio.1 * y.ratio.2) (x.ratio.2 * y.ratio.1)

end Binary64

end TerraDeps.Decimal
