import PropCatalog.Number.Double

/-! Decimal numerals, read to the nearest number. -/

namespace PropCatalog.Number

/-- The value of a decimal, hexadecimal or smaller digit. -/
def digitValue (c : Char) : Nat :=
  if c.isDigit then c.toNat - 48
  else if c.isUpper then c.toNat - 55
  else c.toNat - 87

/-- The value of a list of decimal digits. -/
def natOfDigits (digits : List Char) : Nat :=
  digits.foldl (fun total c => 10 * total + digitValue c) 0

/-- The exponent part of a numeral: a sign and at least one digit. -/
def readExponent? (text : List Char) : Option Int :=
  let digitsOf (digits : List Char) : Option Nat :=
    if digits.isEmpty || ! digits.all Char.isDigit then none else some (natOfDigits digits)
  match text with
  | '-' :: digits => (digitsOf digits).map fun value => -(value : Int)
  | '+' :: digits => (digitsOf digits).map (·)
  | digits => (digitsOf digits).map (·)

/-- Reads a whole text as an unsigned numeral: digits with at most one point among or around them,
at least one digit, and perhaps an exponent. -/
def readUnsigned? (negative : Bool) (text : List Char) : Option Double :=
  let whole := text.takeWhile Char.isDigit
  let afterWhole := text.dropWhile Char.isDigit
  let (fraction, rest) :=
    match afterWhole with
    | '.' :: after => (after.takeWhile Char.isDigit, after.dropWhile Char.isDigit)
    | _ => ([], afterWhole)
  let value (exponent : Int) : Double :=
    .ofDecimal negative (natOfDigits (whole ++ fraction)) (exponent - fraction.length)
  if whole.isEmpty && fraction.isEmpty then none
  else
    match rest with
    | [] => some (value 0)
    | mark :: after =>
      if mark == 'e' || mark == 'E' then (readExponent? after).map value else none

/-- The words that name a number, in any case. -/
def readWord? (negative : Bool) (text : List Char) : Option Double :=
  let word := String.ofList (text.map Char.toLower)
  if word == "inf" || word == "infinity" then some (.infinite negative)
  else if word == "nan" then some .nan
  else none

/-- Reads a whole text as a number: an optional sign, then a word or a numeral. -/
def read? (text : List Char) : Option Double :=
  let unsigned (negative : Bool) (rest : List Char) :=
    (readWord? negative rest).or (readUnsigned? negative rest)
  match text with
  | '-' :: rest => unsigned true rest
  | '+' :: rest => unsigned false rest
  | rest => unsigned false rest

end PropCatalog.Number
