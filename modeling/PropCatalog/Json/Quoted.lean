import PropCatalog.Number.Reading

/-! Strings in quotes: how characters are escaped, and what a string with escapes spells. -/

namespace PropCatalog.Json

open PropCatalog.Number (digitValue)

/-- A lower-case hexadecimal digit. -/
def hexDigit (value : Nat) : Char :=
  if value < 10 then Char.ofNat (48 + value) else Char.ofNat (87 + value)

/-- A character inside quotes: the quote, the backslash and control characters are escaped. -/
def escape (c : Char) : List Char :=
  match c with
  | '\x22' => ['\\', '\x22']
  | '\\' => ['\\', '\\']
  | '\x08' => ['\\', 'b']
  | '\x09' => ['\\', 't']
  | '\x0a' => ['\\', 'n']
  | '\x0c' => ['\\', 'f']
  | '\x0d' => ['\\', 'r']
  | c =>
    if c.toNat < 0x20 then
      ['\\', 'u', '0', '0', hexDigit (c.toNat / 16), hexDigit (c.toNat % 16)]
    else [c]

/-- A text in quotes. -/
def quoted (text : List Char) : List Char :=
  '\x22' :: (text.flatMap escape ++ ['\x22'])

/-- What one character or escape inside quotes spells. -/
inductive Piece where
  | char (c : Char)
  /-- The first or the second half of a surrogate pair. -/
  | half (code : Nat)
  deriving DecidableEq

/-- What a backslash and a letter other than u spell. -/
def shortEscape? : Char → Option Char
  | '\x22' => some '\x22'
  | '\\' => some '\\'
  | '/' => some '/'
  | 'b' => some '\x08'
  | 'f' => some '\x0c'
  | 'n' => some '\x0a'
  | 'r' => some '\x0d'
  | 't' => some '\x09'
  | _ => none

def isHexadecimal (c : Char) : Bool :=
  c.isDigit || ('a' ≤ c && c ≤ 'f') || ('A' ≤ c && c ≤ 'F')

/-- What four hexadecimal digits spell. -/
def codeUnit? (digits : List Char) : Option Piece :=
  if digits.all isHexadecimal then
    let code := digits.foldl (fun total c => 16 * total + digitValue c) 0
    if 0xD800 ≤ code && code ≤ 0xDFFF then some (.half code) else some (.char (Char.ofNat code))
  else none

/-- What a string spells up to its closing quote, and the text after that. Control characters must
be escaped. -/
def pieces? : List Char → Option (List Piece × List Char)
  | [] => none
  | '\x22' :: rest => some ([], rest)
  | '\\' :: 'u' :: a :: b :: c :: d :: rest =>
    (codeUnit? [a, b, c, d]).bind fun piece =>
      (pieces? rest).map fun (pieces, after) => (piece :: pieces, after)
  | '\\' :: letter :: rest =>
    (shortEscape? letter).bind fun c =>
      (pieces? rest).map fun (pieces, after) => (.char c :: pieces, after)
  | c :: rest =>
    if c.toNat < 0x20 || c == '\\' then none
    else (pieces? rest).map fun (pieces, after) => (.char c :: pieces, after)

/-- Joins the halves of surrogate pairs; there is no text when a half stands alone. -/
def joinHalves? : List Piece → Option (List Char)
  | [] => some []
  | .char c :: rest => (joinHalves? rest).map (c :: ·)
  | .half first :: .half second :: rest =>
    if first < 0xDC00 && 0xDC00 ≤ second then
      let code := 0x10000 + 0x400 * (first - 0xD800) + (second - 0xDC00)
      (joinHalves? rest).map (Char.ofNat code :: ·)
    else none
  | .half _ :: _ => none

end PropCatalog.Json
