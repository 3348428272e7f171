import PropCatalog.Number.Reading

/-! Escape sequences of string literals, templates and identifiers, and the text they spell. -/

namespace PropCatalog.Syntax

open PropCatalog.Number (digitValue)

def isHexDigit (c : Char) : Bool :=
  c.isDigit || ('a' ≤ c && c ≤ 'f') || ('A' ≤ c && c ≤ 'F')

def isOctalDigit (c : Char) : Bool :=
  '0' ≤ c && c ≤ '7'

/-- The value of digits in a base. -/
def valueOfDigits (base : Nat) (digits : List Char) : Nat :=
  digits.foldl (fun total c => base * total + digitValue c) 0

/-- The characters that end a line of source. -/
def isLineEnd (c : Char) : Bool :=
  c == '\n' || c == '\r' || c == '\u2028' || c == '\u2029'

/-- What an escape sequence stands for, how many bytes it takes, and the text after it. -/
structure Escaped (text : List Char) where
  codes : List Nat
  size : Nat
  rest : List Char
  shorter : rest.length < text.length

/-- Reads what follows a backslash and the letter u: four digits, or any number of them in
braces. -/
def readCodePoint? (text : List Char) : Option (Escaped text) :=
  match text with
  | '\x7b' :: after =>
    let digits := after.takeWhile isHexDigit
    match left : after.dropWhile isHexDigit with
    | '\x7d' :: rest =>
      let code := valueOfDigits 16 digits
      if digits.isEmpty || 0x10FFFF < code then none
      else some
        { codes := [code], size := digits.length + 2, rest
          shorter := by
            have := (List.dropWhile_suffix isHexDigit (l := after)).length_le
            simp only [left, List.length_cons] at this ⊢
            omega }
    | _ => none
  | a :: b :: c :: d :: rest =>
    if [a, b, c, d].all isHexDigit then
      some { codes := [valueOfDigits 16 [a, b, c, d]], size := 4, rest
             shorter := by simp only [List.length_cons]; omega }
    else none
  | _ => none

/-- Up to three octal digits whose value fits a byte. -/
def readOctal (first : Char) (text : List Char) : Escaped (first :: text) :=
  match text with
  | b :: c :: rest =>
    if isOctalDigit b then
      if isOctalDigit c && first ≤ '3' then
        { codes := [valueOfDigits 8 [first, b, c]], size := 3, rest
          shorter := by simp only [List.length_cons]; omega }
      else
        { codes := [valueOfDigits 8 [first, b]], size := 2, rest := c :: rest
          shorter := by simp only [List.length_cons]; omega }
    else
      { codes := [valueOfDigits 8 [first]], size := 1, rest := b :: c :: rest
        shorter := by simp only [List.length_cons]; omega }
  | [b] =>
    if isOctalDigit b then
      { codes := [valueOfDigits 8 [first, b]], size := 2, rest := []
        shorter := by simp only [List.length_cons, List.length_nil]; omega }
    else
      { codes := [valueOfDigits 8 [first]], size := 1, rest := [b]
        shorter := by simp only [List.length_cons, List.length_nil]; omega }
  | [] =>
    { codes := [valueOfDigits 8 [first]], size := 1, rest := []
      shorter := by simp only [List.length_cons, List.length_nil]; omega }

/-- The letters that stand for one control character each. -/
def controlEscape? : Char → Option Nat
  | 'b' => some 8
  | 't' => some 9
  | 'n' => some 10
  | 'v' => some 11
  | 'f' => some 12
  | 'r' => some 13
  | _ => none

/-- Reads what follows a backslash in a string literal, or in a template, where octal escapes are
not valid. A line end after a backslash stands for nothing. -/
def readEscape? (inTemplate : Bool) : (text : List Char) → Option (Escaped text)
  | [] => none
  | '\r' :: '\n' :: rest =>
    some { codes := [], size := 2, rest, shorter := by simp only [List.length_cons]; omega }
  | 'u' :: rest =>
    (readCodePoint? rest).map fun point =>
      { codes := point.codes, size := point.size + 1, rest := point.rest
        shorter := by have := point.shorter; simp only [List.length_cons]; omega }
  | ['x'] => none
  | ['x', _] => none
  | 'x' :: a :: b :: rest =>
    if isHexDigit a && isHexDigit b then
      some { codes := [valueOfDigits 16 [a, b]], size := 3, rest
             shorter := by simp only [List.length_cons]; omega }
    else none
  | c :: rest =>
    let single (codes : List Nat) : Escaped (c :: rest) :=
      { codes, size := c.utf8Size, rest, shorter := by simp only [List.length_cons]; omega }
    match controlEscape? c with
    | some code => some (single [code])
    | none =>
      if isLineEnd c then some (single [])
      else if inTemplate && c.isDigit then
        if c == '0' && ! (rest.head?.any Char.isDigit) then some (single [0]) else none
      else if isOctalDigit c then some (readOctal c rest)
      else some (single [c.toNat])

def isHighSurrogate (code : Nat) : Bool :=
  0xD800 ≤ code && code ≤ 0xDBFF

def isLowSurrogate (code : Nat) : Bool :=
  0xDC00 ≤ code && code ≤ 0xDFFF

/-- The characters that a list of code points spells. A high surrogate joins with a low one after
it; one that stands alone becomes a replacement character. -/
def spell : List Nat → List Char
  | [] => []
  | [code] =>
    [if isHighSurrogate code || isLowSurrogate code then '\uFFFD' else Char.ofNat code]
  | high :: low :: rest =>
    if isHighSurrogate high && isLowSurrogate low then
      Char.ofNat (0x10000 + (high - 0xD800) * 0x400 + (low - 0xDC00)) :: spell rest
    else
      (if isHighSurrogate high || isLowSurrogate high then '\uFFFD' else Char.ofNat high) ::
        spell (low :: rest)

/-- Whether no surrogate of a list of code points stands alone. -/
def isWellFormed : List Nat → Bool
  | [] => true
  | [code] => ! (isHighSurrogate code || isLowSurrogate code)
  | high :: low :: rest =>
    if isHighSurrogate high && isLowSurrogate low then isWellFormed rest
    else ! (isHighSurrogate high || isLowSurrogate high) && isWellFormed (low :: rest)

end PropCatalog.Syntax
