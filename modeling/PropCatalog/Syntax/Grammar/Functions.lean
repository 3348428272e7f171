import PropCatalog.Syntax.Grammar.Types

/-! Functions, classes, and the literals that hold functions. -/

namespace PropCatalog.Syntax.Grammar

open Parser

/-! ### Functions -/

/-- Statements in braces. -/
def block (grammar : Grammar) : Parser (List Stmt) := do
  expect openBrace
  let statements ← many do
    if ← at? closeBrace then return none else return some (← grammar.statement)
  expect closeBrace
  return statements

/-- The body of a function. Where the dialect has types it can be missing. -/
def functionBody (grammar : Grammar) (generator : Bool) : Parser (List Stmt) := do
  if ← at? openBrace then
    within (fun _ => { (default : Surroundings) with generator }) (block grammar)
  else if ← hasTypes then
    semicolon
    return []
  else failure

/-- A function after its name: parameters, return type and body. -/
def functionRest (grammar : Grammar) (generator : Bool) : Parser (List Stmt) := do
  typeParameters? grammar
  let _ ← within (fun around => { around with generator }) (parameters grammar)
  returnAnnotation? grammar
  functionBody grammar generator

/-- A function after the word `function`, perhaps with a star and a name. -/
def functionTail (grammar : Grammar) : Parser (Option String × List Stmt) := do
  let generator ← eat "*"
  let name ← if ← atIdentifier? then some <$> identifier else pure none
  let body ← functionRest grammar generator
  return (name, body)

/-- Whether the word `async` is next and makes the function after it on the same line
asynchronous. -/
def atAsyncFunction? : Parser Bool := do
  if ← atWord? "async" then
    peek do
      if ← afterBreak then return false else atWord? "function"
  else return false

/-! ### Object and array literals -/

/-- An array literal. -/
def arrayLiteral (grammar : Grammar) : Parser Expr := do
  let lo ← position
  expect "["
  let elements ← bracketed (listUntil "]" do
    if ← at? "," then return .hole
    else if ← eat "..." then return .spread (← grammar.assignment)
    else return .item (← grammar.assignment))
  return .array (← spanFrom lo) elements

/-- Whether a word is next that says how a method is called, with its key after it. -/
def atMethodWord? (text : String) : Parser Bool := do
  if ← atWord? text then
    peek do
      if text == "async" && (← afterBreak) then return false
      if text == "async" && (← at? "*") then return true
      atKey?
  else return false

/-- The kinds of methods. -/
inductive MethodKind where
  | plain (generator : Bool)
  | getter
  | setter

/-- What stands in front of the key of a method. -/
def methodKind? : Parser (Option MethodKind) := do
  if ← atMethodWord? "async" then
    advance
    return some (.plain (← eat "*"))
  else if ← eat "*" then return some (.plain true)
  else if ← atMethodWord? "get" then
    advance
    return some .getter
  else if ← atMethodWord? "set" then
    advance
    return some .setter
  else return none

/-- The parameter of a setter, with its parentheses. -/
def setterParameter (grammar : Grammar) : Parser Pattern := do
  match ← parameters grammar with
  | target :: _ => return target
  | [] => failure

/-- An entry of an object literal. -/
def objectProperty (grammar : Grammar) : Parser Property := do
  let start ← position
  if ← eat "..." then return .spread (← grammar.assignment)
  match ← methodKind? with
  | some (.plain generator) =>
    let key ← key grammar
    return .method start key (← functionRest grammar generator)
  | some .getter =>
    let key ← key grammar
    return .getter start key (← functionRest grammar false)
  | some .setter =>
    let key ← key grammar
    let target ← setterParameter grammar
    returnAnnotation? grammar
    return .setter start key target (← functionBody grammar false)
  | none =>
    let named ← atIdentifier?
    let key ← key grammar
    if (← at? "(") || ((← hasTypes) && (← at? "<")) then
      return .method start key (← functionRest grammar false)
    else if ← eat ":" then return .pair start key (← grammar.assignment)
    else
      match key with
      | .name text =>
        if ! named then failure
        else if ← eat "=" then return .defaulted start text (← grammar.assignment)
        else return .shorthand (← spanFrom start) text
      | _ => failure

/-- An object literal. -/
def objectLiteral (grammar : Grammar) : Parser Expr := do
  let lo ← position
  expect openBrace
  let properties ← bracketed (listUntil closeBrace (objectProperty grammar))
  return .object (← spanFrom lo) properties

/-! ### Patterns -/

/-- A field of an object pattern. -/
def patternField (grammar : Grammar) : Parser Field := do
  if ← eat "..." then return .rest (← grammar.pattern)
  let named ← atIdentifier?
  let key ← key grammar
  if ← eat ":" then
    let target ← grammar.pattern
    return .pair key (← withDefault grammar target)
  else
    match key with
    | .name text =>
      if ! named then failure
      else if ← eat "=" then return .shorthand text (some (← grammar.assignment))
      else return .shorthand text none
    | _ => failure

/-- A name, or a pattern of names in brackets or braces. -/
def bindingPattern (grammar : Grammar) : Parser Pattern := do
  if ← eat openBrace then
    return .object (← bracketed (listUntil closeBrace (patternField grammar)))
  else if ← eat "[" then
    let elements ← bracketed (listUntil "]" do
      if ← at? "," then return none
      else if ← eat "..." then return some (.rest (← grammar.pattern))
      else
        let target ← grammar.pattern
        return some (← withDefault grammar target))
    return .array (elements.filterMap id)
  else return .name (← identifier)

/-! ### Classes -/

/-- The words in front of a class member, where the dialect has types. -/
def memberModifiers : List String :=
  ["declare", "public", "private", "protected", "abstract", "override", "readonly"]

/-- Whether a word is next that modifies the class member after it on the same line. -/
def atMemberModifier? (text : String) : Parser Bool := do
  if ← atWord? text then
    peek do
      if ← afterBreak then return false
      if ← atAny? [openBrace, "*"] then return text == "static"
      atKey?
  else return false

/-- Passes the words that modify a class member, and tells whether `static` is among them. -/
def passMemberModifiers : Parser Bool := do
  let types ← hasTypes
  let found ← many do
    let text := match (← token).lexeme with
      | .word text false => text
      | _ => ""
    if text == "static" then
      let modifies ← peek do
        if ← atAny? [openBrace, "*"] then return true else atKey?
      if modifies then
        advance
        return some true
      else return none
    else if types && memberModifiers.contains text && (← atMemberModifier? text) then
      advance
      return some false
    else return none
  return found.contains true

/-- Whether a key names a private member. -/
def isPrivate : Key → Bool
  | .privateName _ => true
  | _ => false

/-- Whether a key is that of the constructor. -/
def isConstructor : Key → Bool
  | .name text | .string text => text == "constructor"
  | _ => false

/-- The value and the end of a field. -/
def fieldRest (grammar : Grammar) : Parser (Option Expr) := do
  if ← hasTypes then annotation? grammar
  let value ← if ← eat "=" then
      some <$> within (fun _ => default) grammar.assignment
    else pure none
  semicolon
  return value

/-- An index signature of a class. -/
def indexSignature (grammar : Grammar) : Parser Unit := do
  expect "["
  let _ ← identifier
  expect ":"
  grammar.type
  expect "]"
  annotation? grammar
  semicolon

/-- A member of a class after its modifiers. -/
def memberRest (grammar : Grammar) (isStatic : Bool) : Parser ClassMember := do
  let types ← hasTypes
  if types && (← attempt (indexSignature grammar)).isSome then return .other
  let accessor ← atMemberModifier? "accessor"
  if accessor then
    advance
  let kind ← methodKind?
  let key ← key grammar
  if types then
    if ! (← eat "?") then
      let _ ← eat "!"
  match kind with
  | some (.plain generator) =>
    let body ← functionRest grammar generator
    return if isPrivate key then .other else .method isStatic key body
  | some .getter =>
    let body ← functionRest grammar false
    return if isPrivate key then .other else .getter isStatic key body
  | some .setter =>
    let _ ← functionRest grammar false
    return if isPrivate key then .other else .setter isStatic key
  | none =>
    if (← at? "(") || (types && (← at? "<")) then
      let body ← functionRest grammar false
      return if isPrivate key || (isConstructor key && ! isStatic) then .other
        else .method isStatic key body
    else
      let value ← fieldRest grammar
      return if accessor || isPrivate key then .other else .field isStatic key value

/-- A member of a class. -/
def classMember (grammar : Grammar) : Parser ClassMember := do
  let _ ← decorators grammar
  let isStatic ← passMemberModifiers
  if isStatic && (← at? openBrace) then
    let _ ← functionBody grammar false
    return .other
  memberRest grammar isStatic

/-- The names of the interfaces that a class or interface builds on. -/
def interfaceList (grammar : Grammar) : Parser Unit := do
  let part : Parser Unit := do
    let _ ← identifier
    typeReference grammar
  part
  let _ ← many do
    if ← eat "," then
      part
      return some ()
    else return none

/-- A class after its name, with a reader for its base class. -/
def classRest (grammar : Grammar) (base : Parser Expr) : Parser Class := do
  typeParameters? grammar
  let superClass ← if ← eatWord "extends" then
      let value ← base
      if (← hasTypes) && (← at? "<") then typeArguments grammar
      pure (some value)
    else pure none
  if (← hasTypes) && (← eatWord "implements") then interfaceList grammar
  expect openBrace
  let members ← bracketed (many do
    -- A semicolon between members is no member.
    let _ ← many do
      if ← eat ";" then return some () else return none
    if ← at? closeBrace then return none else return some (← classMember grammar))
  expect closeBrace
  return .mk superClass members

/-- A class after the word `class`. -/
def classTail (grammar : Grammar) (base : Parser Expr) : Parser (Option String × Class) := do
  let isHeritage := do
    return (← atWord? "extends") || ((← hasTypes) && (← atWord? "implements"))
  let name ← if ! (← isHeritage) && (← atIdentifier?) then some <$> identifier else pure none
  let definition ← classRest grammar base
  return (name, definition)

end PropCatalog.Syntax.Grammar
