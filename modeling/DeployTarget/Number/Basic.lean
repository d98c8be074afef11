import DeployTarget.Number.Shortest

/-!
# Numbers of a document

A document holds integers of 64 bits, signed or unsigned, and finite binary64
numbers.  The text of a float always shows that it is one.
-/

namespace DeployTarget

/-- A number of a document. -/
inductive Number where
  /-- An integer from `-2 ^ 63` to `2 ^ 64 - 1`. -/
  | int (value : Int)
  /-- Any other finite number. -/
  | float (value : Binary64)
deriving DecidableEq, Repr

/-- Floats with the point this far to the left or less are written with an exponent. -/
def Binary64.smallestPoint : Int :=
  -5

/-- Floats with the point this far to the right or less are written without an exponent. -/
def Binary64.largestPoint : Int :=
  16

/-- The text of a decimal: positional within the two limits, with `.0` where no
digit follows the point, else scientific with an explicit sign of the exponent. -/
def Binary64.Decimal.text (decimal : Binary64.Decimal) : List Char :=
  let digits := decimal.digits
  let point := decimal.point
  if smallestPoint < point ∧ point ≤ 0 then
    '0' :: '.' :: List.replicate point.natAbs '0' ++ digits
  else if 0 < point ∧ point ≤ largestPoint then
    if digits.length ≤ point.toNat then
      digits ++ List.replicate (point.toNat - digits.length) '0' ++ ['.', '0']
    else digits.take point.toNat ++ '.' :: digits.drop point.toNat
  else
    let power := point - 1
    let mantissa := match digits with
      | first :: second :: rest => first :: '.' :: second :: rest
      | short => short
    let sign := if power < 0 then '-' else '+'
    mantissa ++ 'e' :: sign :: Nat.toDigits 10 power.natAbs

/-- The text of a float: its shortest decimal. -/
def Binary64.text (number : Binary64) : List Char :=
  let magnitude :=
    if number.mantissa = 0 then ['0', '.', '0'] else number.shortest.text
  if number.negative then '-' :: magnitude else magnitude

namespace Number

def fits (value : Int) : Bool :=
  -(Int.ofNat (UInt64.size / 2)) ≤ value && value < Int.ofNat UInt64.size

def integerText (value : Int) : List Char :=
  if value < 0 then '-' :: Nat.toDigits 10 value.natAbs
  else Nat.toDigits 10 value.toNat

def characters : Number → List Char
  | .int value => integerText value
  | .float value => value.text

def text (number : Number) : String :=
  String.ofList number.characters

def ofDigits (digits : List Char) : Nat :=
  digits.foldl (fun value digit => 10 * value + (digit.toNat - '0'.toNat)) 0

end Number

end DeployTarget
