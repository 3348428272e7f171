import PropCatalog.Syntax.Grammar.Goal

/-! Types and parameter lists. Types leave nothing in the tree; they are read to find where they
end. -/

namespace PropCatalog.Syntax.Grammar

open Parser

/-! ### Keys, templates and arguments -/

/-- The key of a property or class member. -/
def key (grammar : Grammar) : Parser Key := do
  match (← token).lexeme with
  | .word text _ =>
    advance
    return .name text
  | .privateName text =>
    advance
    return .privateName text
  | .string value _ =>
    advance
    return .string value
  | .number value =>
    advance
    return .number value
  | .bigInteger =>
    advance
    return .bigInteger
  | _ =>
    expect "["
    let value ← bracketed grammar.assignment
    expect "]"
    return .computed value

/-- Whether the next token can start a key. -/
def atKey? : Parser Bool := do
  match (← token).lexeme with
  | .word _ _ | .privateName _ | .string _ _ | .number _ | .bigInteger => return true
  | .punctuator text => return text == "["
  | _ => return false

/-- A template from its opening quote on, with a reader for its placeholders: the text before the
first of them, the placeholders, and whether every escape sequence is valid. -/
def template {α : Type} (hole : Parser α) : Parser (Option String × List α × Bool) := do
  if (← token).lexeme != .backquote then failure
  advance
  -- A piece moves the cursor past its delimiter.
  let piece : Parser TemplatePiece := do
    match readTemplate (← get).remaining [] true 0 with
    | none => failure
    | some piece =>
      passText piece.size piece.rest piece.opensHole
      return piece
  let first ← piece
  if ! first.opensHole then return (first.cooked, [], first.valid)
  -- Each placeholder comes with the piece after it.
  let step (holes : List α × Bool × Bool) : Parser (Option (List α × Bool × Bool)) := do
    let (found, valid, opened) := holes
    if ! opened then return none
    let value ← bracketed hole
    expect closeBrace
    -- The text after the brace is template text, whatever token it was read as.
    let next ← piece
    return some (value :: found, valid && next.valid, next.opensHole)
  let (holes, valid, _) ← extend step ([], first.valid, true)
  return (first.cooked, holes.reverse, valid)

/-- An argument list in parentheses. -/
def arguments (grammar : Grammar) : Parser (List Element) := do
  expect "("
  bracketed (listUntil ")" do
    if ← eat "..." then return .spread (← grammar.assignment)
    else return .item (← grammar.assignment))

/-- The expressions among the elements of a list. -/
def operandsOf : List Element → List Expr
  | [] => []
  | .hole :: rest => operandsOf rest
  | .item value :: rest | .spread value :: rest => value :: operandsOf rest

/-! ### Types -/

/-- A type argument list. -/
def typeArguments (grammar : Grammar) : Parser Unit := do
  openAngle
  let _ ← bracketed (many do
    if (← token).source.head? == some '>' then return none
    else
      grammar.type
      if (← token).source.head? != some '>' then expect ","
      return some ())
  closeAngle

/-- A type parameter list. -/
def typeParameters (grammar : Grammar) : Parser Unit := do
  openAngle
  let modifier (text : String) : Parser Unit := do
    if (← atWord? text) && (← peek (return (← token).lexeme matches .word _ _)) then advance
  let _ ← bracketed (many do
    if (← token).source.head? == some '>' then return none
    else
      modifier "const"
      modifier "in"
      modifier "out"
      let _ ← identifier
      if ← eatWord "extends" then grammar.type
      if ← eat "=" then grammar.type
      if (← token).source.head? != some '>' then expect ","
      return some ())
  closeAngle

/-- A type parameter list, if one is next and the dialect has types. -/
def typeParameters? (grammar : Grammar) : Parser Unit := do
  if (← hasTypes) && (← at? "<") then typeParameters grammar

/-- A type annotation, if a colon is next. -/
def annotation? (grammar : Grammar) : Parser Unit := do
  if ← eat ":" then grammar.type

/-- A type where a function type can also say what it tells about an argument. -/
def returnedType (grammar : Grammar) : Parser Unit := do
  let onSameLine (test : Parser Bool) : Parser Bool := do
    if ← afterBreak then return false else test
  let subject : Parser Bool := do
    if ← atWord? "this" then return true else atIdentifier?
  if (← atWord? "asserts") && (← peek (onSameLine subject)) then
    advance
    let _ ← word
    if ← onSameLine (eatWord "is") then grammar.type
  else if (← subject) && (← peek (onSameLine (atWord? "is"))) then
    let _ ← word
    expectWord "is"
    grammar.type
  else grammar.type

/-- The type of what a function returns, if a colon is next and the dialect has types. -/
def returnAnnotation? (grammar : Grammar) : Parser Unit := do
  if (← hasTypes) && (← eat ":") then returnedType grammar

/-- The words that can stand in front of a parameter. -/
def parameterModifiers : List String :=
  ["public", "private", "protected", "readonly", "override"]

/-- Decorators: each an at sign and a name, or an expression in parentheses, with arguments. -/
def decorators (grammar : Grammar) : Parser Bool := do
  let found ← many do
    if ← eat "@" then
      if ← eat "(" then
        let _ ← bracketed grammar.expression
        expect ")"
      else
        let _ ← identifier
        let _ ← many do
          if ← eat "." then
            if (← token).lexeme matches .privateName _ then advance
            else
              let _ ← word
            return some ()
          else return none
      if (← hasTypes) && (← at? "<") then typeArguments grammar
      if ← at? "(" then
        let _ ← arguments grammar
      return some ()
    else return none
  return ! found.isEmpty

/-- A pattern with a default, if an equals sign follows it. -/
def withDefault (grammar : Grammar) (target : Pattern) : Parser Pattern := do
  if ← eat "=" then return .defaulted target (← bracketed grammar.assignment)
  else return target

/-- One parameter of a function, a method or a function type, and whether decorators, modifiers or a
type show that it is one. -/
def annotatedParameter (grammar : Grammar) : Parser (Pattern × Bool) := do
  let decorated ← decorators grammar
  let types ← hasTypes
  let startsPattern : Parser Bool := do
    if ← atAny? [openBrace, "[", "..."] then return true
    return (← token).lexeme matches .word _ _
  let modifiers ← many do
    if types && (← atAnyWord? parameterModifiers) && (← peek startsPattern) then
      advance
      return some ()
    else return none
  let isRest ← eat "..."
  let isThis := types && (← atWord? "this")
  let target ← if isThis then advance *> pure (Pattern.name "this") else grammar.pattern
  let optional := types && (← eat "?")
  let typed := types && (← at? ":")
  if typed then annotation? grammar
  let target ← withDefault grammar target
  let annotated := decorated || ! modifiers.isEmpty || isThis || optional || typed
  return (if isRest then .rest target else target, annotated)

/-- One parameter of a function, a method or a function type. -/
def parameter (grammar : Grammar) : Parser Pattern :=
  Prod.fst <$> annotatedParameter grammar

/-- A parameter list in parentheses. -/
def parameters (grammar : Grammar) : Parser (List Pattern) := do
  expect "("
  bracketed (listUntil ")" (parameter grammar))

/-- A function type from its parameters on. -/
def functionType (grammar : Grammar) : Parser Unit := do
  typeParameters? grammar
  let _ ← parameters grammar
  expect "=>"
  returnedType grammar

/-- The end of a member of an object type. -/
def memberEnd : Parser Unit := do
  if ← eat "," then return
  semicolon

/-- The signature of a method or a call. -/
def signature (grammar : Grammar) : Parser Unit := do
  typeParameters? grammar
  let _ ← parameters grammar
  if ← eat ":" then returnedType grammar
  memberEnd

/-- Whether a word stands in front of a key, and is not one itself. -/
def modifies? (text : String) : Parser Bool := do
  if ← atWord? text then peek atKey? else return false

/-- A member of an object type. -/
def typeMember (grammar : Grammar) : Parser Unit := do
  if ← atAny? ["(", "<"] then signature grammar
  else if (← atWord? "new") && (← peek (atAny? ["(", "<"])) then
    advance
    signature grammar
  else
    if ← modifies? "readonly" then advance
    if (← modifies? "get") || (← modifies? "set") then advance
    let indexed ← attempt do
      expect "["
      let _ ← identifier
      expect ":"
      grammar.type
      expect "]"
    if indexed.isNone then
      let _ ← key grammar
    let _ ← eat "?"
    if ← atAny? ["(", "<"] then signature grammar
    else
      annotation? grammar
      memberEnd

/-- The sign in front of a modifier of a mapped type. -/
def mappedSign : Parser Unit := do
  if ← atAny? ["+", "-"] then advance

/-- A mapped type after its opening brace. -/
def mappedType (grammar : Grammar) : Parser Unit := do
  mappedSign
  let _ ← eatWord "readonly"
  expect "["
  let _ ← identifier
  expectWord "in"
  grammar.type
  if ← eatWord "as" then grammar.type
  expect "]"
  mappedSign
  let _ ← eat "?"
  annotation? grammar
  if ! (← at? closeBrace) then memberEnd
  expect closeBrace

/-- The members of an object type in braces. -/
def objectType (grammar : Grammar) : Parser Unit := do
  expect openBrace
  let _ ← bracketed (many do
    if ← at? closeBrace then return none
    else
      typeMember grammar
      return some ())
  expect closeBrace

/-- An element of a tuple type, perhaps with a label. -/
def tupleElement (grammar : Grammar) : Parser Unit := do
  let _ ← eat "..."
  let _ ← attempt do
    let _ ← word
    let _ ← eat "?"
    expect ":"
  grammar.type
  let _ ← eat "?"

/-- A name with dots in it, and the type arguments on the same line. -/
def typeReference (grammar : Grammar) : Parser Unit := do
  let _ ← many do
    if ← eat "." then
      let _ ← word
      return some ()
    else return none
  if ! (← afterBreak) && (← token).source.head? == some '<' then typeArguments grammar

/-- An import type after the word `import`. -/
def importType (grammar : Grammar) : Parser Unit := do
  expect "("
  let _ ← bracketed (listUntil ")" do
    if ← at? openBrace then
      let _ ← grammar.assignment
    else grammar.type)
  typeReference grammar

/-- A type without operators around it. -/
def primaryType (grammar : Grammar) : Parser Unit := do
  match (← token).lexeme with
  | .string _ _ | .number _ | .bigInteger => advance
  | .backquote =>
    let _ ← template grammar.type
  | .punctuator text =>
    if text == "(" then
      advance
      bracketed grammar.type
      expect ")"
    else if text == "[" then
      advance
      let _ ← bracketed (listUntil "]" (tupleElement grammar))
    else if text == openBrace then
      match ← attempt (advance *> bracketed (mappedType grammar)) with
      | some _ => return
      | none => objectType grammar
    else if text == "-" then
      advance
      match (← token).lexeme with
      | .number _ | .bigInteger => advance
      | _ => failure
    else failure
  | .word text _ =>
    if text == "typeof" then
      advance
      if ← eatWord "import" then importType grammar
      else
        let _ ← word
        typeReference grammar
    else if text == "import" then
      advance
      importType grammar
    else if ["void", "null", "true", "false", "this"].contains text then advance
    else
      let _ ← identifier
      typeReference grammar
  | _ => failure

/-- Whether the next token can start a type. -/
def atType? : Parser Bool := do
  match (← token).lexeme with
  | .word _ _ | .string _ _ | .number _ | .bigInteger | .backquote => return true
  | .punctuator text => return ["(", "[", openBrace, "<", "-"].contains text
  | _ => return false

/-- A type with array and index brackets after it. -/
def postfixType (grammar : Grammar) : Parser Unit := do
  primaryType grammar
  let _ ← many do
    if ! (← afterBreak) && (← eat "[") then
      if ! (← at? "]") then bracketed grammar.type
      expect "]"
      return some ()
    else return none

/-- A type with the words in front of it that ask for its keys or qualify it. -/
def operatorType (grammar : Grammar) : Parser Unit := do
  let _ ← many do
    if (← atAnyWord? ["keyof", "unique", "readonly"]) && (← peek atType?) then
      advance
      return some ()
    else return none
  if (← atWord? "infer") && (← peek atIdentifier?) then
    advance
    let _ ← identifier
    -- A constraint belongs to the inferred type unless it starts a conditional one.
    let _ ← attempt do
      expectWord "extends"
      within (fun around => { around with noConditionalType := true }) grammar.type
      if ! (← get).surroundings.noConditionalType && (← at? "?") then failure
  else postfixType grammar

/-- Types with one of two operators between them and perhaps in front. -/
def separatedTypes (operator : String) (part : Parser Unit) : Parser Unit := do
  let _ ← eat operator
  part
  let _ ← many do
    if ← eat operator then
      part
      return some ()
    else return none

/-- A union of intersections. -/
def unionType (grammar : Grammar) : Parser Unit :=
  separatedTypes "|" (separatedTypes "&" (operatorType grammar))

/-- Any type. -/
def anyType (grammar : Grammar) : Parser Unit := do
  let constructed ← attempt do
    if ← atWord? "abstract" then advance
    expectWord "new"
    functionType grammar
  if constructed.isSome then return
  if ← atAny? ["(", "<"] then
    if (← attempt (functionType grammar)).isSome then return
  unionType grammar
  let around := (← get).surroundings
  if ! around.noConditionalType && ! (← afterBreak) && (← eatWord "extends") then
    within (fun around => { around with noConditionalType := true }) grammar.type
    expect "?"
    within (fun around => { around with noConditionalType := false }) grammar.type
    expect ":"
    grammar.type

end PropCatalog.Syntax.Grammar
