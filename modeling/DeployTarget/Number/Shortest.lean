import DeployTarget.Number.Binary64

/-!
# The shortest decimal that reads back

Among the decimals that round to a given finite number, the shortest has the
fewest digits, and of those the one nearest to the number is taken, an exact tie
going to the even last digit.  A grid of decimals holds a point that rounds to the
number exactly if one of the number's two neighbours on that grid does, so two
candidates for each count of digits decide.
-/

namespace DeployTarget.Binary64

/-- A positive decimal `0.digits · 10 ^ point`, the digits without trailing zeros. -/
structure Decimal where
  digits : List Char
  /-- The position of the point relative to the first digit. -/
  point : Int
deriving DecidableEq, Repr

/-- The real numbers that round to a positive number: the number, both ends as
numerators over one denominator, and whether the ends belong to them. -/
structure RoundingInterval where
  /-- Four times the number, in units of the denominator. -/
  centre : Nat
  low : Nat
  high : Nat
  denominator : Nat
  /-- The ends round to an even mantissa. -/
  closed : Bool

/-- The rounding interval of a positive number: half a unit to each side, a quarter
below a power of two. -/
def roundingInterval (number : Binary64) : RoundingInterval :=
  let quarter : Int := number.exponent - 2
  let unit := if 0 ≤ quarter then 1 <<< quarter.toNat else 1
  let centre := 4 * number.mantissa
  let below := if number.mantissa = 1 <<< 52 ∧ number.exponent ≠ -1074 then 1 else 2
  ⟨centre * unit, (centre - below) * unit, (centre + 2) * unit,
    if 0 ≤ quarter then 1 else 1 <<< quarter.natAbs, number.mantissa % 2 = 0⟩

def decimalPoint (interval : RoundingInterval) : Int :=
  (decimalLength (interval.centre * Nat.pow 10 400 / interval.denominator) : Int) - 400

/-- The shortest decimal with at least the given number of digits; `fuel` bounds
the counts that are tried. -/
def search (interval : RoundingInterval) (point : Int) : Nat → Nat → Nat × Int
  | 0, length => (0, point - length)
  | fuel + 1, length =>
      let power : Int := point - length
      -- Both sides of every comparison are multiplied by the denominators.
      let scale := if power < 0 then Nat.pow 10 power.natAbs else 1
      let step := (if power < 0 then 1 else Nat.pow 10 power.toNat) * interval.denominator
      let centre := interval.centre * scale
      let low := interval.low * scale
      let high := interval.high * scale
      let inside (candidate : Nat) : Bool :=
        if interval.closed then low ≤ candidate * step && candidate * step ≤ high
        else low < candidate * step && candidate * step < high
      let floor := centre / step
      let distance := centre - floor * step
      match inside floor, inside (floor + 1) with
      | true, true =>
          if 2 * distance < step then (floor, power)
          else if step < 2 * distance then (floor + 1, power)
          else (floor + floor % 2, power)
      | true, false => (floor, power)
      | false, true => (floor + 1, power)
      | false, false => search interval point fuel (length + 1)

/-- The shortest decimal that rounds to a number other than zero. -/
def shortest (number : Binary64) : Decimal :=
  let interval := number.roundingInterval
  let (value, power) := search interval (decimalPoint interval) 17 1
  let digits := Nat.toDigits 10 value
  ⟨(digits.reverse.dropWhile (· == '0')).reverse, digits.length + power⟩

end DeployTarget.Binary64
