import PropCatalog.Syntax.Grammar.Types

/-! Elements and fragments of markup inside expressions. -/

namespace PropCatalog.Syntax.Grammar

open Parser

/-- The part of a tag or attribute name up to a dot or colon; hyphens belong to it. -/
def markupWord : Parser String := do
  let source := (← token).source
  let isPart (c : Char) : Bool := Text.isIdentifierPart c || c == '-'
  match source with
  | first :: _ =>
    if ! Text.isIdentifierStart first then failure
    let text := source.takeWhile isPart
    rescan ⟨.word (String.ofList text) true, Text.byteLength text, source.dropWhile isPart⟩
    advance
    return String.ofList text
  | [] => failure

/-- The name of an attribute, perhaps with a name space. -/
def attributeName : Parser String := do
  let first ← markupWord
  if ← eat ":" then return first ++ ":" ++ (← markupWord) else return first

/-- The name of a tag: an attribute name, or words with dots between them. -/
def tagName : Parser String := do
  let first ← attributeName
  extend (fun name => do
    if ← eat "." then return some (name ++ "." ++ (← markupWord)) else return none) first

/-- A quoted attribute value, in which a backslash means itself. -/
def attributeText : Parser Unit := do
  match (← token).source with
  | quote :: rest =>
    if quote != '\x22' && quote != '\x27' then failure
    let text := rest.takeWhile (· != quote)
    match rest.dropWhile (· != quote) with
    | _ :: after =>
      rescan ⟨.string "" true, Text.byteLength text + 2, after⟩
      advance
    | [] => failure
  | [] => failure

/-- The value of an attribute. -/
def attributeValue (grammar : Grammar) : Parser Unit := do
  if ← eat openBrace then
    let _ ← bracketed grammar.expression
    expect closeBrace
  else if ← at? "<" then grammar.markup
  else attributeText

/-- The attributes of a tag. -/
def attributes (grammar : Grammar) : Parser Unit := do
  let _ ← many do
    if (← token).source.head?.any fun c => c == '>' || c == '/' then return none
    else if ← eat openBrace then
      expect "..."
      let _ ← bracketed grammar.assignment
      expect closeBrace
      return some ()
    else
      let _ ← attributeName
      if ← eat "=" then attributeValue grammar
      return some ()

/-- Passes text up to the next tag or placeholder. -/
def markupText : Parser Unit := do
  let text := (← get).remaining
  let isText (c : Char) : Bool := c != '<' && c != openBrace.front
  let read := text.takeWhile isText
  passText (Text.byteLength read) (text.dropWhile isText) true

/-- The children of an element up to its closing tag, of which the angle bracket and the slash are
passed. -/
def children (grammar : Grammar) : Parser Unit := do
  markupText
  let _ ← many do
    if ← eat openBrace then
      if ← eat "..." then
        let _ ← bracketed grammar.assignment
      else if ! (← at? closeBrace) then
        let _ ← bracketed grammar.expression
      expect closeBrace
    else if ← peek (return (← token).source.head? == some '/') then return none
    else grammar.markup
    markupText
    return some ()
  openAngle
  expect "/"

/-- An element or a fragment, from its opening angle bracket to its last one. -/
def element (grammar : Grammar) : Parser Unit := do
  openAngle
  if (← token).source.head? == some '>' then
    closeAngle
    children grammar
    closeAngle
  else
    let name ← tagName
    if (← hasTypes) && (← at? "<") then typeArguments grammar
    attributes grammar
    if ← eat "/" then closeAngle
    else
      closeAngle
      children grammar
      let closing ← tagName
      if closing != name then failure
      closeAngle

end PropCatalog.Syntax.Grammar
