import PropCatalog.Number.Double

/-! The text of a number: the fewest decimal digits that read back, without an exponent. -/

namespace PropCatalog.Number

/-- A decimal number `digits * 10 ^ exponent`. -/
structure Decimal where
  digits : Nat
  exponent : Int
  deriving DecidableEq, Repr

/-- Positive fractions that read back as one number lie between two bounds, here in quarters of the
last place of its mantissa. -/
structure Interval where
  low : Nat
  middle : Nat
  high : Nat
  inclusive : Bool

namespace Interval

/-- The bounds are half a place away; below a power of two the lower one is a quarter away. -/
def ofMantissa (mantissa : Nat) (exponent : Int) : Interval where
  low := 4 * mantissa - (if mantissa = 1 <<< 52 ∧ Double.leastExponent < exponent then 1 else 2)
  middle := 4 * mantissa
  high := 4 * mantissa + 2
  inclusive := mantissa % 2 = 0

def contains (bounds : Interval) (value scale : Nat) : Bool :=
  if bounds.inclusive then bounds.low * scale ≤ value && value ≤ bounds.high * scale
  else bounds.low * scale < value && value < bounds.high * scale

end Interval

/-- The point of the grid `10 ^ place` that is nearest to the number among its two neighbours that
read back, if any does. -/
def gridPoint? (bounds : Interval) (exponent place : Int) : Option Decimal :=
  -- Quarters of the last place and grid steps are both made whole.
  let (quarter, unit) := scaled 1 1 (-(exponent - 2))
  let ten := Nat.pow 10 place.natAbs
  let (scale, step) := if 0 ≤ place then (quarter, unit * ten) else (quarter * ten, unit)
  let below := bounds.middle * scale / step
  let reads (point : Nat) := bounds.contains (point * step) scale
  let farBelow := bounds.middle * scale - below * step
  let farAbove := (below + 1) * step - bounds.middle * scale
  if reads below && (farBelow ≤ farAbove || ! reads (below + 1)) then some ⟨below, place⟩
  else if reads (below + 1) then some ⟨below + 1, place⟩
  else none

/-- The decimal place of the leading digit of a positive number. -/
def leadingPlace (mantissa : Nat) (exponent : Int) : Int :=
  let (above, below) := scaled mantissa 1 (-exponent)
  -- The factor makes the whole part of every positive number positive.
  (Nat.toDigits 10 (above * Nat.pow 10 330 / below)).length - 331

/-- The shortest decimal that reads back as a positive number, and of those the nearest one.
Seventeen digits always suffice. -/
def shortest (mantissa : Nat) (exponent : Int) : Decimal :=
  let bounds := Interval.ofMantissa mantissa exponent
  let leading := leadingPlace mantissa exponent
  ((List.range 17).findSome? fun (count : Nat) =>
    gridPoint? bounds exponent (leading - count)).getD ⟨0, 0⟩

/-- Drops the zeros at the end of a digit string, and counts them. -/
def dropTrailingZeros (digits : List Char) : List Char × Nat :=
  let kept := (digits.reverse.dropWhile (· == '0')).reverse
  (kept, digits.length - kept.length)

/-- A decimal in positional notation. -/
def Decimal.positional (decimal : Decimal) : List Char :=
  let (digits, dropped) := dropTrailingZeros (Nat.toDigits 10 decimal.digits)
  let exponent := decimal.exponent + dropped
  let places := (-exponent).toNat
  if digits.isEmpty then ['0']
  else if 0 ≤ exponent then digits ++ List.replicate exponent.toNat '0'
  else if places < digits.length then
    digits.take (digits.length - places) ++ '.' :: digits.drop (digits.length - places)
  else '0' :: '.' :: List.replicate (places - digits.length) '0' ++ digits

/-- The text of a number as a key. Both zeros are written alike. -/
def Double.text : Double → String
  | .nan => "NaN"
  | .infinite negative => if negative then "-inf" else "inf"
  | .finite negative mantissa exponent =>
    if mantissa = 0 then "0"
    else
      let digits := (shortest mantissa exponent).positional
      String.ofList (if negative then '-' :: digits else digits)

end PropCatalog.Number
