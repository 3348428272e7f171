import PropCatalog.Json.Quoted

/-! The tokens of a JSON text. -/

namespace PropCatalog.Json

inductive Token where
  | openBracket
  | closeBracket
  | openBrace
  | closeBrace
  | comma
  | colon
  | null
  | bool (value : Bool)
  | number (text : List Char)
  /-- A string, without a text when half of a surrogate pair stands alone in it. -/
  | string (text : Option (List Char))
  deriving DecidableEq

def isSpace (c : Char) : Bool :=
  c == ' ' || c == '\n' || c == '\t' || c == '\r'

/-- A number splits into a sign, an integer without leading zeros, a fraction and an exponent. The
result is the part before the rest, and the rest; digits must follow a point or an exponent mark. -/
def splitNumber? (text : List Char) : Option (List Char × List Char) :=
  let (sign, unsigned) := match text with
    | '-' :: rest => (['-'], rest)
    | _ => ([], text)
  let integer := match unsigned with
    | '0' :: _ => ['0']
    | _ => unsigned.takeWhile Char.isDigit
  let afterInteger := unsigned.drop integer.length
  let (point, fraction, afterFraction) := match afterInteger with
    | '.' :: rest => (true, '.' :: rest.takeWhile Char.isDigit, rest.dropWhile Char.isDigit)
    | _ => (false, [], afterInteger)
  let (mark, exponentSign, powers) := match afterFraction with
    | 'e' :: '+' :: rest => (['e'], ['+'], rest)
    | 'e' :: '-' :: rest => (['e'], ['-'], rest)
    | 'E' :: '+' :: rest => (['E'], ['+'], rest)
    | 'E' :: '-' :: rest => (['E'], ['-'], rest)
    | 'e' :: rest => (['e'], [], rest)
    | 'E' :: rest => (['E'], [], rest)
    | _ => ([], [], afterFraction)
  let exponent := if mark.isEmpty then [] else powers.takeWhile Char.isDigit
  let rest := if mark.isEmpty then afterFraction else powers.dropWhile Char.isDigit
  if integer.isEmpty || (point && fraction.length < 2) || (! mark.isEmpty && exponent.isEmpty) then
    none
  else some (sign ++ integer ++ fraction ++ mark ++ exponentSign ++ exponent, rest)

/-- The first token of a text that starts with no space, and the text after it. -/
def token? (text : List Char) : Option (Token × List Char) :=
  match text with
  | [] => none
  | '[' :: rest => some (.openBracket, rest)
  | ']' :: rest => some (.closeBracket, rest)
  | '\x7b' :: rest => some (.openBrace, rest)
  | '\x7d' :: rest => some (.closeBrace, rest)
  | ',' :: rest => some (.comma, rest)
  | ':' :: rest => some (.colon, rest)
  | 'n' :: 'u' :: 'l' :: 'l' :: rest => some (.null, rest)
  | 't' :: 'r' :: 'u' :: 'e' :: rest => some (.bool true, rest)
  | 'f' :: 'a' :: 'l' :: 's' :: 'e' :: rest => some (.bool false, rest)
  | '\x22' :: rest =>
    (pieces? rest).map fun (pieces, after) => (.string (joinHalves? pieces), after)
  | _ => (splitNumber? text).map fun (value, rest) => (.number value, rest)

/-- The tokens of a text, when a limited number of them can be read. -/
def tokensWithin? : Nat → List Char → Option (List Token)
  | 0, text => if text.all isSpace then some [] else none
  | count + 1, text =>
    match text.dropWhile isSpace with
    | [] => some []
    | text =>
      (token? text).bind fun (token, rest) =>
        (tokensWithin? count rest).map (token :: ·)

/-- The tokens of a text; each of them takes a character at least. -/
def tokens? (text : List Char) : Option (List Token) :=
  tokensWithin? text.length text

end PropCatalog.Json
