import PropCatalog.Text.Identifier
import PropCatalog.Syntax.Comment
import PropCatalog.Syntax.Escape
import PropCatalog.Syntax.Tree

/-! Tokens of a source text, each read from the characters at its start, and the comments between
them. -/

namespace PropCatalog.Syntax

open PropCatalog.Text
open PropCatalog.Number (Double readUnsigned?)

/-- The kinds of tokens. A regular expression, template text or markup text is read only where the
grammar expects one. -/
inductive Lexeme where
  | word (text : String) (escaped : Bool)
  | privateName (text : String)
  | punctuator (text : String)
  | number (value : Double)
  | bigInteger
  | string (value : String) (wellFormed : Bool)
  | regex
  | backquote
  | endOfInput
  | invalid
  deriving DecidableEq, Repr, Inhabited

/-- The opening brace. -/
def openBrace : String := "\x7b"

/-- The closing brace. -/
def closeBrace : String := "\x7d"

/-- The result of reading one token: its kind, its size in bytes, and the text after it. -/
structure Scanned where
  lexeme : Lexeme
  size : Nat
  rest : List Char

/-- The words that are keywords to the reader of comments. All but the last four are reserved. -/
def keywords : List String := [
  "break", "case", "catch", "class", "const", "continue", "debugger", "default", "delete", "do",
  "else", "enum", "export", "extends", "false", "finally", "for", "function", "if", "import", "in",
  "instanceof", "new", "null", "return", "super", "switch", "this", "throw", "true", "try",
  "typeof", "var", "void", "while", "with", "await", "let", "yield", "module"]

/-- The words that cannot name anything. -/
def reservedWords : List String :=
  keywords.take (keywords.length - 4)

/-- Whether a comment on the same line after this token belongs to it. -/
def Lexeme.keepsComments : Lexeme → Bool
  | .word text escaped => escaped || ! keywords.contains text
  | .privateName _ | .number _ | .bigInteger | .string _ _ | .regex => true
  | .punctuator text => text == ";" || text == openBrace || text == closeBrace
  | _ => false

/-! ### Blanks and comments -/

/-- The characters between tokens that are neither part of one nor of a comment. -/
def isSourceBlank (c : Char) : Bool :=
  (isBlank c && c != '\u0085') || c == '\uFEFF'

/-- What lies in front of a token. -/
structure Gap where
  /-- The position of the token. -/
  stop : Nat
  afterBreak : Bool
  /-- The comments that belong to the token, the last one first. -/
  comments : List Comment
  /-- Whether the last comment is complete. -/
  closed : Bool
  rest : List Char

/-- Where a reader of blanks and comments is, with the reversed text of the comment it is in. -/
inductive GapState where
  | outside
  | inLine (text : List Char)
  | inBlock (text : List Char)

/-- Reads blanks and comments. A block comment belongs to the token before it when no line break
lies between them and that token keeps comments or a semicolon follows the comment directly. -/
def readGap (keeps : Bool) :
    GapState → Nat → Bool → List Comment → List Char → Gap
  | .outside, position, broken, comments, [] => ⟨position, broken, comments, true, []⟩
  | .outside, position, broken, comments, '/' :: '/' :: rest =>
    readGap keeps (.inLine []) (position + 2) broken comments rest
  | .outside, position, broken, comments, '/' :: '*' :: rest =>
    readGap keeps (.inBlock []) (position + 2) broken comments rest
  | .outside, position, broken, comments, c :: rest =>
    if isSourceBlank c then
      readGap keeps .outside (position + c.utf8Size) (broken || isLineEnd c) comments rest
    else ⟨position, broken, comments, true, c :: rest⟩
  | .inLine text, position, broken, comments, [] =>
    ⟨position, broken, ⟨.line, String.ofList text.reverse⟩ :: comments, true, []⟩
  | .inLine text, position, broken, comments, c :: rest =>
    if isLineEnd c then
      let comments := ⟨.line, String.ofList text.reverse⟩ :: comments
      readGap keeps .outside (position + c.utf8Size) true comments rest
    else readGap keeps (.inLine (c :: text)) (position + c.utf8Size) broken comments rest
  | .inBlock _, position, broken, comments, [] => ⟨position, broken, comments, false, []⟩
  | .inBlock text, position, broken, comments, '*' :: '/' :: rest =>
    let trailing := ! broken && (keeps || rest.head? == some ';')
    let comments :=
      if trailing then comments else ⟨.block, String.ofList text.reverse⟩ :: comments
    readGap keeps .outside (position + 2) (broken || text.any isLineEnd) comments rest
  | .inBlock text, position, broken, comments, c :: rest =>
    readGap keeps (.inBlock (c :: text)) (position + c.utf8Size) broken comments rest

/-! ### Words -/

/-- Reads the characters of a word, with escape sequences resolved: the characters last to first,
the bytes read, and whether there was an escape. -/
def readWord (text : List Char) (word : List Char) (size : Nat) (escaped : Bool) :
    Option (List Char × Nat × Bool × List Char) :=
  match text with
  | '\\' :: 'u' :: after =>
    match readCodePoint? after with
    | none => none
    | some point =>
      match point.codes with
      | [code] =>
        let c := Char.ofNat code
        if isIdentifierPart c then
          have := point.shorter
          readWord point.rest (c :: word) (size + 2 + point.size) true
        else none
      | _ => none
  | c :: rest =>
    if isIdentifierPart c then readWord rest (c :: word) (size + c.utf8Size) escaped
    else some (word, size, escaped, text)
  | [] => some (word, size, escaped, [])
termination_by text.length
decreasing_by
  all_goals simp only [List.length_cons]
  all_goals omega

/-- A word, unless one of its escapes is not valid in it. -/
def scanWord (text : List Char) : Scanned :=
  match readWord text [] 0 false with
  | some (word, size, escaped, rest) =>
    match word.reverse with
    | [] => ⟨.invalid, 0, text⟩
    | first :: more =>
      if isIdentifierStart first then
        ⟨.word (String.ofList (first :: more)) escaped, size, rest⟩
      else ⟨.invalid, size, rest⟩
  | none => ⟨.invalid, 0, text⟩

/-- A private name after its number sign. -/
def scanPrivateName (text : List Char) : Scanned :=
  match scanWord text with
  | ⟨.word name _, size, rest⟩ => ⟨.privateName name, size + 1, rest⟩
  | other => { other with lexeme := .invalid }

/-! ### Numbers -/

/-- A number or big integer, which must not run into a word. -/
def finishNumber (lexeme : Lexeme) (size : Nat) (rest : List Char) : Scanned :=
  let runsOn := match rest with
    | c :: _ => isIdentifierPart c || c == '\\'
    | [] => false
  ⟨if runsOn then .invalid else lexeme, size, rest⟩

def isDigitOrSeparator (digit : Char → Bool) (c : Char) : Bool :=
  digit c || c == '_'

/-- A whole number in a base, after its two-character marker. -/
def scanInBase (base : Nat) (digit : Char → Bool) (text : List Char) : Scanned :=
  let read := text.takeWhile (isDigitOrSeparator digit)
  let rest := text.dropWhile (isDigitOrSeparator digit)
  let digits := read.filter (· != '_')
  let size := read.length + 2
  if digits.isEmpty then ⟨.invalid, size, rest⟩
  else
    match rest with
    | 'n' :: after => finishNumber .bigInteger (size + 1) after
    | _ =>
      finishNumber (.number (.ofDigits base (digits.map PropCatalog.Number.digitValue))) size rest

/-- The exponent of a decimal literal, if digits follow its mark. -/
def splitExponent (text : List Char) : List Char × List Char :=
  let digitsAfter (lead : List Char) (after : List Char) : List Char × List Char :=
    let digits := after.takeWhile (isDigitOrSeparator Char.isDigit)
    if digits.isEmpty then ([], text)
    else (lead ++ digits, after.dropWhile (isDigitOrSeparator Char.isDigit))
  match text with
  | mark :: '+' :: after =>
    if mark == 'e' || mark == 'E' then digitsAfter ['e', '+'] after else ([], text)
  | mark :: '-' :: after =>
    if mark == 'e' || mark == 'E' then digitsAfter ['e', '-'] after else ([], text)
  | mark :: after => if mark == 'e' || mark == 'E' then digitsAfter ['e'] after else ([], text)
  | [] => ([], [])

/-- A decimal literal: digits, a point, digits and an exponent, of which parts may be missing. -/
def scanDecimal (text : List Char) : Scanned :=
  let whole := text.takeWhile (isDigitOrSeparator Char.isDigit)
  let afterWhole := text.dropWhile (isDigitOrSeparator Char.isDigit)
  let integer := match afterWhole with
    | 'n' :: after => some after
    | _ => none
  match integer with
  | some after => finishNumber .bigInteger (whole.length + 1) after
  | none =>
    let (fraction, afterFraction) := match afterWhole with
      | '.' :: after =>
        ('.' :: after.takeWhile (isDigitOrSeparator Char.isDigit),
          after.dropWhile (isDigitOrSeparator Char.isDigit))
      | _ => ([], afterWhole)
    let (exponent, rest) := splitExponent afterFraction
    let read := whole ++ fraction ++ exponent
    match readUnsigned? false (read.filter (· != '_')) with
    | some value => finishNumber (.number value) read.length rest
    | none => ⟨.invalid, read.length, rest⟩

/-- A number that starts with a digit or with a point before a digit. A zero and octal digits are
an octal number. -/
def scanNumber (text : List Char) : Scanned :=
  match text with
  | '0' :: mark :: after =>
    if mark == 'x' || mark == 'X' then scanInBase 16 isHexDigit after
    else if mark == 'o' || mark == 'O' then scanInBase 8 isOctalDigit after
    else if mark == 'b' || mark == 'B' then scanInBase 2 (fun c => c == '0' || c == '1') after
    else if mark.isDigit then
      let digits := text.takeWhile Char.isDigit
      if digits.all isOctalDigit then
        finishNumber (.number (.ofDigits 8 (digits.map PropCatalog.Number.digitValue)))
          digits.length (text.dropWhile Char.isDigit)
      else scanDecimal text
    else scanDecimal text
  | _ => scanDecimal text

/-! ### Strings, templates and regular expressions -/

/-- Reads a string literal up to its closing quote: the code points last to first, the bytes read,
and the text after the quote. -/
def readString (quote : Char) (text : List Char) (codes : List Nat) (size : Nat) :
    Option (List Nat × Nat × List Char) :=
  match text with
  | [] => none
  | '\\' :: after =>
    match readEscape? false after with
    | none => none
    | some escape =>
      have := escape.shorter
      readString quote escape.rest (escape.codes.reverse ++ codes) (size + 1 + escape.size)
  | c :: rest =>
    if c == quote then some (codes, size + 1, rest)
    else if c == '\n' || c == '\r' then none
    else readString quote rest (c.toNat :: codes) (size + c.utf8Size)
termination_by text.length
decreasing_by
  all_goals simp only [List.length_cons]
  all_goals omega

/-- A string literal after its opening quote. -/
def scanString (quote : Char) (text : List Char) : Scanned :=
  match readString quote text [] 1 with
  | some (codes, size, rest) =>
    let codes := codes.reverse
    ⟨.string (String.ofList (spell codes)) (isWellFormed codes), size, rest⟩
  | none => ⟨.invalid, 1, text⟩

/-- A piece of a template: its text if its escapes are valid and it is well formed, the bytes read
with the delimiter, whether a placeholder follows, and the text after the delimiter. -/
structure TemplatePiece where
  cooked : Option String
  /-- Whether every escape sequence is valid. -/
  valid : Bool
  size : Nat
  opensHole : Bool
  rest : List Char

/-- Reads a piece of a template. A carriage return, alone or before a line feed, stands for a line
feed. -/
def readTemplate (text : List Char) (codes : List Nat) (valid : Bool) (size : Nat) :
    Option TemplatePiece :=
  let piece (bytes : Nat) (opensHole : Bool) (rest : List Char) : TemplatePiece :=
    let codes := codes.reverse
    { cooked := if valid && isWellFormed codes then some (String.ofList (spell codes)) else none
      valid, size := size + bytes, opensHole, rest }
  match text with
  | [] => none
  | '\x60' :: rest => some (piece 1 false rest)
  | '$' :: '\x7b' :: rest => some (piece 2 true rest)
  | '\r' :: '\n' :: rest => readTemplate rest (10 :: codes) valid (size + 2)
  | '\r' :: rest => readTemplate rest (10 :: codes) valid (size + 1)
  | '\\' :: after =>
    match readEscape? true after with
    | some escape =>
      have := escape.shorter
      readTemplate escape.rest (escape.codes.reverse ++ codes) valid (size + 1 + escape.size)
    | none =>
      match after with
      | c :: rest => readTemplate rest codes false (size + 1 + c.utf8Size)
      | [] => none
  | c :: rest => readTemplate rest (c.toNat :: codes) valid (size + c.utf8Size)
termination_by text.length
decreasing_by
  all_goals simp only [List.length_cons]
  all_goals omega

/-- Reads the body of a regular expression after its first slash. A slash inside a class or after a
backslash does not end it. -/
def readRegex (inClass escaped : Bool) (size : Nat) : List Char → Option (Nat × List Char)
  | [] => none
  | c :: rest =>
    let size := size + c.utf8Size
    if isLineEnd c then none
    else if escaped then readRegex inClass false size rest
    else if c == '\\' then readRegex inClass true size rest
    else if c == '[' then readRegex true false size rest
    else if c == ']' then readRegex false false size rest
    else if c == '/' && ! inClass then some (size, rest)
    else readRegex inClass false size rest

/-- A regular expression with its flags, after its first slash. -/
def scanRegex (text : List Char) : Scanned :=
  match readRegex false false 1 text with
  | some (size, rest) =>
    let flags := rest.takeWhile isIdentifierPart
    ⟨.regex, size + byteLength flags, rest.dropWhile isIdentifierPart⟩
  | none => ⟨.invalid, 1, text⟩

/-! ### Any token -/

/-- The punctuators, every one before those it starts with. -/
def punctuators : List String := [
  ">>>=", "...", "===", "!==", "**=", "<<=", ">>=", ">>>", "&&=", "||=", "??=", "=>", "==", "!=",
  "<=", ">=", "&&", "||", "??", "?.", "++", "--", "+=", "-=", "*=", "/=", "%=", "&=", "|=", "^=",
  "<<", ">>", "**", openBrace, closeBrace, "(", ")", "[", "]", ";", ",", "<", ">", "+", "-", "*",
  "/", "%", "&", "|", "^", "!", "~", "?", ":", "=", ".", "@"]

/-- The longest punctuator at the start of a text. A question mark before a decimal fraction is one
of its own. -/
def scanPunctuator (text : List Char) : Scanned :=
  let found := punctuators.find? fun punctuator => punctuator.toList.isPrefixOf text
  match found with
  | none => ⟨.invalid, 0, text⟩
  | some punctuator =>
    let optionalDigit := punctuator == "?." && (text.drop 2).head?.any Char.isDigit
    let punctuator := if optionalDigit then "?" else punctuator
    ⟨.punctuator punctuator, punctuator.length, text.drop punctuator.length⟩

/-- Reads the token at the start of a text. -/
def scanToken (text : List Char) : Scanned :=
  match text with
  | [] => ⟨.endOfInput, 0, []⟩
  | '\x22' :: rest => scanString '\x22' rest
  | '\x27' :: rest => scanString '\x27' rest
  | '\x60' :: rest => ⟨.backquote, 1, rest⟩
  | '#' :: rest => scanPrivateName rest
  | '.' :: c :: _ => if c.isDigit then scanNumber text else scanPunctuator text
  | c :: _ =>
    if c.isDigit then scanNumber text
    else if isIdentifierStart c || c == '\\' then scanWord text
    else scanPunctuator text

/-- A token in its place, with the text from its first character on and the text after it. -/
structure Token where
  lexeme : Lexeme
  span : Span
  /-- Whether a line break lies between the token before and this one. -/
  afterBreak : Bool
  comments : List Comment
  source : List Char
  rest : List Char

/-- Reads the token after a position. -/
def nextToken (keeps : Bool) (position : Nat) (text : List Char) : Token :=
  let gap := readGap keeps .outside position false [] text
  let scanned := scanToken gap.rest
  { lexeme := if gap.closed then scanned.lexeme else .invalid
    span := ⟨gap.stop, gap.stop + scanned.size⟩
    afterBreak := gap.afterBreak
    comments := gap.comments.reverse
    source := gap.rest
    rest := scanned.rest }

end PropCatalog.Syntax
