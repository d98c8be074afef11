/-!
# Finite binary64 numbers

A finite number is a sign, a mantissa below `2 ^ 53` and a power of two from
`-1074` to `971`.  Every decimal rounds to the nearest such number; a tie goes to
the even mantissa, and a decimal beyond the largest number has none.
-/

namespace DeployTarget

/-- The number `mantissa · 2 ^ exponent` with a sign. -/
structure Binary64 where
  /-- Whether the number carries a minus sign; zero may. -/
  negative : Bool
  /-- The digits, below `2 ^ 53`. -/
  mantissa : Nat
  /-- The power of two, from `-1074` to `971`. -/
  exponent : Int
deriving DecidableEq, Repr

namespace Binary64

def zero (negative : Bool) : Binary64 :=
  ⟨negative, 0, -1074⟩

/-- The quotient rounded to the nearest integer, a tie to the even one. -/
def roundQuotient (numerator denominator : Nat) : Nat :=
  let quotient := numerator / denominator
  let twice := 2 * (numerator % denominator)
  if twice < denominator then quotient
  else if denominator < twice then quotient + 1
  else quotient + quotient % 2

/-- `numerator / (denominator · 2 ^ power)` as a quotient of natural numbers. -/
private def scaled (numerator denominator : Nat) (power : Int) : Nat × Nat :=
  if power < 0 then (numerator <<< power.natAbs, denominator)
  else (numerator, denominator <<< power.toNat)

/-- The number nearest to a positive quotient, unless it is too large. -/
def ofQuotient? (negative : Bool) (numerator denominator : Nat) : Option Binary64 :=
  let estimate : Int := numerator.log2 - denominator.log2 - 53
  let lower := max estimate (-1074)
  let (top, bottom) := scaled numerator denominator lower
  let power := if 1 <<< 53 ≤ top / bottom then lower + 1 else lower
  let (top, bottom) := scaled numerator denominator power
  let rounded := roundQuotient top bottom
  let (mantissa, exponent) :=
    if rounded = 1 <<< 53 then (1 <<< 52, power + 1) else (rounded, power)
  if 971 < exponent then none else some ⟨negative, mantissa, exponent⟩

def decimalLength (number : Nat) : Nat :=
  (Nat.toDigits 10 number).length

/-- The number nearest to `digits · 10 ^ power`, unless it is too large.

Decimals far outside the range are settled by their length alone. -/
def ofDecimal? (negative : Bool) (digits : Nat) (power : Int) : Option Binary64 :=
  let top : Int := decimalLength digits + power
  if digits = 0 then some (zero negative)
  else if 400 < top then none
  else if top < -400 then some (zero negative)
  else if power < 0 then ofQuotient? negative digits (Nat.pow 10 power.natAbs)
  else ofQuotient? negative (digits * Nat.pow 10 power.toNat) 1

end Binary64

end DeployTarget
