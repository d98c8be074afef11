import DeployTarget.Json.Reader

/-!
# Scalars of a document

A plain text stands for null, a boolean, an integer in one of four bases, a float, or
itself.  Digits behind a leading zero stand for themselves, and so does a float that
is too large.  An integer that fits 128 bits but not 64 stands for nothing.
-/

namespace DeployTarget.Yaml

/-- A value without parts. -/
inductive Scalar where
  | null
  | bool (value : Bool)
  | number (value : Number)
  | infinity (negative : Bool)
  | notANumber
  | text (value : String)
deriving DecidableEq, Repr, Inhabited

namespace Scalar

/-- Whether two scalars are the same key: the zeros of both signs are one float. -/
def same : Scalar → Scalar → Bool
  | .number (.float first), .number (.float second) =>
      first == second || (first.mantissa == 0 && second.mantissa == 0)
  | first, second => first == second

/-- A scalar as plain data, which has no float that is not finite. -/
def toJson : Scalar → Json
  | .null => .null
  | .bool value => .bool value
  | .number value => .number value
  | .infinity _ => .null
  | .notANumber => .null
  | .text value => .string value

end Scalar

namespace Scalar

/-- The texts of null. -/
def nullTexts : List String :=
  ["null", "Null", "NULL", "~"]

def flag? (text : String) : Option Bool :=
  if text ∈ ["true", "True", "TRUE"] then some true
  else if text ∈ ["false", "False", "FALSE"] then some false
  else none

def digits? (base : Nat) (digits : List Char) : Option Nat :=
  if digits = [] then none
  else
    digits.foldlM (fun value c => do
      let digit ← Json.hexValue? c
      if digit < base then some (base * value + digit) else none) 0

/-- Whether digits stand for themselves: there are several, and the first is zero. -/
def isPadded : List Char → Bool
  | '0' :: rest => rest ≠ [] && rest.all Char.isDigit
  | _ => false

def magnitude? : List Char → Option Nat
  | '0' :: 'x' :: digits => digits? 16 digits
  | '0' :: 'o' :: digits => digits? 8 digits
  | '0' :: 'b' :: digits => digits? 2 digits
  | digits => if isPadded digits then none else digits? 10 digits

def integer? : List Char → Option Int
  | '-' :: rest => (magnitude? rest).map fun value => -(value : Int)
  | '+' :: rest => (magnitude? rest).map Int.ofNat
  | digits => (magnitude? digits).map Int.ofNat

/-- The digits of a decimal, with a point somewhere among them or none, and what
follows. -/
def decimalDigits? (text : List Char) : Option (List Char × List Char × List Char) :=
  let whole := text.takeWhile Char.isDigit
  let (fraction, rest) := match text.dropWhile Char.isDigit with
    | '.' :: rest => (rest.takeWhile Char.isDigit, rest.dropWhile Char.isDigit)
    | rest => ([], rest)
  if whole = [] ∧ fraction = [] then none else some (whole, fraction, rest)

/-- The float that a decimal with a sign taken off stands for. -/
def decimal? (negative : Bool) (text : List Char) : Option Binary64 := do
  let (whole, fraction, rest) ← decimalDigits? text
  let (power, rest) ← Json.exponent? rest
  if rest = [] then
    Binary64.ofDecimal? negative (Number.ofDigits (whole ++ fraction))
      (power.getD 0 - fraction.length)
  else none

/-- The texts of an infinite float with a sign taken off. -/
def infinityTexts : List (List Char) :=
  [['.', 'i', 'n', 'f'], ['.', 'I', 'n', 'f'], ['.', 'I', 'N', 'F']]

def notANumberTexts : List (List Char) :=
  [['.', 'n', 'a', 'n'], ['.', 'N', 'a', 'N'], ['.', 'N', 'A', 'N']]

def unsignedFloat? (negative : Bool) (text : List Char) : Option Scalar :=
  if text ∈ infinityTexts then some (.infinity negative)
  else (decimal? negative text).map fun value => .number (.float value)

def float? : List Char → Option Scalar
  | '-' :: rest => unsignedFloat? true rest
  | '+' :: rest => unsignedFloat? false rest
  | unsigned =>
      if unsigned ∈ notANumberTexts then some .notANumber else unsignedFloat? false unsigned

def isPaddedSigned : List Char → Bool
  | '-' :: rest => isPadded rest
  | '+' :: rest => isPadded rest
  | digits => isPadded digits

/-- Whether an integer is too large for 64 bits and fits 128. -/
def isWide (value : Int) : Bool :=
  let bound : Int := (1 <<< 127 : Nat)
  !Number.fits value && -bound ≤ value && value < 2 * bound

/-- The integer that a text stands for, where it is not too large: `some none` if it
fits 128 bits only. -/
def boundedInteger? (text : List Char) : Option (Option Scalar) := do
  let value ← integer? text
  if Number.fits value then some (some (.number (.int value)))
  else if isWide value then some none
  else none

def ofPlain? (plain : String) : Option Scalar :=
  if plain = "" ∨ plain ∈ nullTexts then some .null
  else
    match flag? plain, boundedInteger? plain.toList with
    | some flag, _ => some (.bool flag)
    | none, some bounded => bounded
    | none, none =>
        if isPaddedSigned plain.toList then some (.text plain)
        else some ((float? plain.toList).getD (.text plain))

end Scalar

end DeployTarget.Yaml
