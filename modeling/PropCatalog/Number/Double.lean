/-! Numbers of double precision, reached from rationals by exact rounding. -/

namespace PropCatalog.Number

/-- A number of double precision. A finite one is `mantissa * 2 ^ exponent`, with its sign apart, so
that zero has two forms. -/
inductive Double where
  | finite (negative : Bool) (mantissa : Nat) (exponent : Int)
  | infinite (negative : Bool)
  | nan
  deriving DecidableEq, Repr, Inhabited

/-- The quotient to the nearest integer, a half to the even neighbour. -/
def roundQuotient (numerator denominator : Nat) : Nat :=
  let quotient := numerator / denominator
  let twice := 2 * (numerator % denominator)
  if twice < denominator then quotient
  else if denominator < twice then quotient + 1
  else quotient + quotient % 2

/-- Rounding never leaves the two integers around the quotient. -/
theorem roundQuotient_bounds (numerator denominator : Nat) :
    numerator / denominator ≤ roundQuotient numerator denominator ∧
      roundQuotient numerator denominator ≤ numerator / denominator + 1 := by
  -- Each branch adds zero or one to the quotient.
  simp only [roundQuotient]
  split
  · omega
  · split <;> omega

/-- A fraction `numerator / (denominator * 2 ^ shift)` with the power moved to the side where it is
whole. -/
def scaled (numerator denominator : Nat) (shift : Int) : Nat × Nat :=
  if 0 ≤ shift then (numerator, denominator <<< shift.toNat)
  else (numerator <<< (-shift).toNat, denominator)

namespace Double

/-- The least exponent of a finite number. -/
def leastExponent : Int := -1074

/-- The greatest exponent of a finite number. -/
def greatestExponent : Int := 971

def zero (negative : Bool) : Double :=
  .finite negative 0 leastExponent

/-- The exponent at which the mantissa of a positive fraction has 53 bits, or the least one. -/
def exponentOf (numerator denominator : Nat) : Int :=
  let guess : Int := (numerator.log2 : Int) - denominator.log2
  let (above, below) := scaled numerator denominator guess
  max ((if below ≤ above then guess else guess - 1) - 52) leastExponent

/-- The number nearest to a fraction, a half to the even mantissa. -/
def ofFraction (negative : Bool) (numerator denominator : Nat) : Double :=
  if numerator = 0 then zero negative
  else
    let exponent := exponentOf numerator denominator
    let (above, below) := scaled numerator denominator exponent
    let rounded := roundQuotient above below
    -- Rounding up to the next power of two moves the number to the next exponent.
    let (mantissa, exponent) :=
      if rounded = 1 <<< 53 then (1 <<< 52, exponent + 1) else (rounded, exponent)
    if greatestExponent < exponent then .infinite negative
    else .finite negative mantissa exponent

/-- The number nearest to `digits * 10 ^ exponent`. -/
def ofDecimal (negative : Bool) (digits : Nat) (exponent : Int) : Double :=
  let magnitude : Int := (Nat.toDigits 10 digits).length + exponent
  if digits = 0 then zero negative
  -- Powers that are far out of range are decided before they are computed.
  else if 310 < magnitude then .infinite negative
  else if magnitude < -325 then zero negative
  else if 0 ≤ exponent then ofFraction negative (digits * Nat.pow 10 exponent.toNat) 1
  else ofFraction negative digits (Nat.pow 10 (-exponent).toNat)

/-- The value of digits in a base, rounded after each of them. -/
def ofDigits (base : Nat) (digits : List Nat) : Double :=
  let step (total : Double) (digit : Nat) : Double :=
    match total with
    | .finite _ mantissa exponent =>
      let (above, below) := scaled mantissa 1 (-exponent)
      ofFraction false (above * base + digit * below) below
    | other => other
  digits.foldl step (zero false)

end Double

end PropCatalog.Number
