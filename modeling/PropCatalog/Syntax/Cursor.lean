import PropCatalog.Syntax.Token

/-! The place of a parser in a source text, and the steps that move it. -/

namespace PropCatalog.Syntax

/-- The dialect of a source: whether it has type annotations and whether it has markup. -/
structure Dialect where
  types : Bool
  markup : Bool
  deriving DecidableEq, Repr

/-- What the surroundings of an expression or type forbid or announce. -/
structure Surroundings where
  /-- The word `in` is no operator, because the head of a loop is being read. -/
  noIn : Bool
  /-- The word `yield` is an operator. -/
  generator : Bool
  /-- A colon is still expected after the middle part of a conditional. -/
  colonAhead : Bool
  /-- The expression is part of a conditional. -/
  conditional : Bool
  /-- A type after `extends` cannot be conditional itself. -/
  noConditionalType : Bool
  deriving DecidableEq, Repr, Inhabited

/-- The surroundings inside brackets of any kind, where only `yield` is remembered. -/
def Surroundings.bracketed (around : Surroundings) : Surroundings :=
  { noIn := false, generator := around.generator, colonAhead := false, conditional := false
    noConditionalType := false }

/-- The place of a parser: its next token, the end of the token before, and the comments in front
of the tokens it has passed. -/
structure Cursor where
  dialect : Dialect
  token : Token
  /-- The position after the last token that was passed. -/
  passed : Nat
  /-- The text after the last token that was passed. -/
  remaining : List Char
  /-- The comments in front of each token, the last token first. -/
  comments : List (Nat × List Comment)
  surroundings : Surroundings
  /-- Where the current assignment expression starts, the only place for an arrow function. -/
  arrowStart : Nat
  /-- The length of the source in bytes. -/
  size : Nat

/-- A parser moves a cursor and gives a result, or fails. -/
abbrev Parser := StateT Cursor Option

/-- The cursor in front of the first token of a source. -/
def Cursor.start (dialect : Dialect) (size position : Nat) (text : List Char) : Cursor where
  dialect
  token := nextToken false position text
  passed := position
  remaining := text
  comments := []
  surroundings := default
  arrowStart := size + 1
  size

namespace Parser

/-- The next token. -/
def token : Parser Token :=
  return (← get).token

/-- The position of the next token. -/
def position : Parser Nat :=
  return (← get).token.span.lo

/-- The span from a position to the end of the last token. -/
def spanFrom (lo : Nat) : Parser Span :=
  return ⟨lo, (← get).passed⟩

/-- Whether the source has type annotations. -/
def hasTypes : Parser Bool :=
  return (← get).dialect.types

/-- Whether the source has markup. -/
def hasMarkup : Parser Bool :=
  return (← get).dialect.markup

/-- Whether a line break lies in front of the next token. -/
def afterBreak : Parser Bool :=
  return (← token).afterBreak

/-- Passes text of a known size whose end keeps the comments after it or not, and reads the token
after it. -/
def passText (size : Nat) (rest : List Char) (keeps : Bool) : Parser Unit :=
  modify fun cursor =>
    let stop := cursor.passed + size
    { cursor with token := nextToken keeps stop rest, passed := stop, remaining := rest }

/-- Passes the next token. -/
def advance : Parser Unit := do
  let token ← token
  if token.lexeme = .invalid then failure
  modify fun cursor =>
    { cursor with
      token := nextToken token.lexeme.keepsComments token.span.hi token.rest
      passed := token.span.hi
      remaining := token.rest
      comments := (token.span.lo, token.comments) :: cursor.comments }

/-- Puts another reading of the same text in place of the next token. -/
def rescan (scanned : Scanned) : Parser Unit :=
  modify fun cursor =>
    let lo := cursor.token.span.lo
    { cursor with
      token := { cursor.token with
        lexeme := scanned.lexeme, span := ⟨lo, lo + scanned.size⟩, rest := scanned.rest } }

/-- Whether the next token is this punctuator. -/
def at? (text : String) : Parser Bool :=
  return (← token).lexeme = .punctuator text

/-- Whether the next token is this word, written without escapes. -/
def atWord? (text : String) : Parser Bool :=
  return (← token).lexeme = .word text false

/-- Whether the next token is any of these punctuators. -/
def atAny? (texts : List String) : Parser Bool := do
  match (← token).lexeme with
  | .punctuator text => return texts.contains text
  | _ => return false

/-- Whether the next token is any of these words. -/
def atAnyWord? (texts : List String) : Parser Bool := do
  match (← token).lexeme with
  | .word text false => return texts.contains text
  | _ => return false

/-- Passes this punctuator if it is next, and tells whether it was. -/
def eat (text : String) : Parser Bool := do
  if ← at? text then
    advance
    return true
  else return false

/-- Passes this word if it is next, and tells whether it was. -/
def eatWord (text : String) : Parser Bool := do
  if ← atWord? text then
    advance
    return true
  else return false

/-- Passes this punctuator, which has to be next. -/
def expect (text : String) : Parser Unit := do
  if ! (← eat text) then failure

/-- Passes this word, which has to be next. -/
def expectWord (text : String) : Parser Unit := do
  if ! (← eatWord text) then failure

/-- Tries a parser, and stays in place if it fails. -/
def attempt {α : Type} (parser : Parser α) : Parser (Option α) := fun cursor =>
  match parser cursor with
  | some (result, after) => some (some result, after)
  | none => some (none, cursor)

/-- The result of a parser that does not move the cursor. -/
def ahead {α : Type} (parser : Parser α) : Parser α := fun cursor =>
  (parser cursor).map fun (result, _) => (result, cursor)

/-- Whether a test holds after the next token, without passing it. -/
def peek (test : Parser Bool) : Parser Bool := do
  match ← attempt (ahead (advance *> test)) with
  | some answer => return answer
  | none => return false

/-- Runs a parser in changed surroundings. -/
def within {α : Type} (change : Surroundings → Surroundings) (parser : Parser α) : Parser α := do
  let outer := (← get).surroundings
  modify fun cursor => { cursor with surroundings := change outer }
  let result ← parser
  modify fun cursor => { cursor with surroundings := outer }
  return result

/-- Runs a parser as inside brackets. -/
def bracketed {α : Type} (parser : Parser α) : Parser α :=
  within Surroundings.bracketed parser

/-- Repeats a parser until it gives nothing, at most as often as the bound says. -/
def repeatUpTo {α : Type} (parser : Parser (Option α)) : Nat → Parser (List α)
  | 0 => return []
  | bound + 1 => do
    match ← parser with
    | none => return []
    | some result => return result :: (← repeatUpTo parser bound)

/-- Repeats a parser until it gives nothing. Every result but the first few takes up text, so the
length of the source bounds their number. -/
def many {α : Type} (parser : Parser (Option α)) : Parser (List α) := do
  repeatUpTo parser ((← get).size + 1 - (← position))

/-- Extends a result as long as a parser can, at most as often as the bound says. -/
def extendUpTo {α : Type} (step : α → Parser (Option α)) : Nat → α → Parser α
  | 0, result => return result
  | bound + 1, result => do
    match ← step result with
    | none => return result
    | some longer => extendUpTo step bound longer

/-- Extends a result as long as a parser can. -/
def extend {α : Type} (step : α → Parser (Option α)) (result : α) : Parser α := do
  extendUpTo step ((← get).size + 1 - (← position)) result

/-- Items up to a closing punctuator, with commas between them and perhaps after the last. -/
def listUntil {α : Type} (close : String) (item : Parser α) : Parser (List α) := do
  let items ← many do
    if ← at? close then return none
    else
      let result ← item
      if ! (← at? close) then expect ","
      return some result
  expect close
  return items

/-- The end of a statement: a semicolon, or a place where one may be left out. -/
def semicolon : Parser Unit := do
  if ← eat ";" then return
  let token ← token
  if token.lexeme = .endOfInput || token.lexeme = .punctuator closeBrace || token.afterBreak then
    return
  else failure

/-- A word of any kind. -/
def word : Parser String := do
  match (← token).lexeme with
  | .word text _ =>
    advance
    return text
  | _ => failure

/-- A word that can name something. -/
def identifier : Parser String := do
  match (← token).lexeme with
  | .word text _ =>
    if reservedWords.contains text then failure
    else
      advance
      return text
  | _ => failure

/-- Whether the next token is a word that can name something. -/
def atIdentifier? : Parser Bool := do
  match (← token).lexeme with
  | .word text _ => return ! reservedWords.contains text
  | _ => return false

/-- Passes the angle bracket that closes a type argument list, also where it is the first character
of a longer punctuator. -/
def closeAngle : Parser Unit := do
  match (← token).source with
  | '>' :: rest =>
    rescan ⟨.punctuator ">", 1, rest⟩
    advance
  | _ => failure

/-- Passes the angle bracket that opens a type argument list, also where it is the first character
of a shift. -/
def openAngle : Parser Unit := do
  match (← token).source with
  | '<' :: rest =>
    rescan ⟨.punctuator "<", 1, rest⟩
    advance
  | _ => failure

end Parser

end PropCatalog.Syntax
