import PropCatalog.Syntax.Grammar.Expressions

/-! Declarations and statements. -/

namespace PropCatalog.Syntax.Grammar

open Parser

/-! ### Declarations -/

/-- One variable of a declaration. Outside loop heads a pattern needs a value, unless the
declaration is only announced. -/
def declarator (grammar : Grammar) (inLoop announced : Bool) : Parser Declarator := do
  let target ← grammar.pattern
  if (← hasTypes) && target matches .name _ then
    let _ ← eat "!"
  annotation? grammar
  if ← eat "=" then return .mk target (some (← grammar.assignment))
  else if inLoop || announced || target matches .name _ then return .mk target none
  else failure

/-- The variables of a declaration after its keyword. -/
def declarators (grammar : Grammar) (inLoop announced : Bool) : Parser (List Declarator) := do
  let first ← declarator grammar inLoop announced
  let rest ← many do
    if ← eat "," then return some (← declarator grammar inLoop announced) else return none
  return first :: rest

/-- Whether the word `let` is next and starts a declaration. -/
def atLet? : Parser Bool := do
  if ← atWord? "let" then
    peek do
      if ← atAny? [openBrace, "["] then return true else atIdentifier?
  else return false

/-- Whether a word is next with a name after it on the same line. -/
def atWordBeforeName? (text : String) : Parser Bool := do
  if ← atWord? text then
    peek do
      if ← afterBreak then return false else atIdentifier?
  else return false

/-- A type alias after the word `type`. -/
def typeAlias (grammar : Grammar) : Parser Unit := do
  let _ ← identifier
  typeParameters? grammar
  expect "="
  grammar.type
  semicolon

/-- An interface after the word `interface`. -/
def interface (grammar : Grammar) : Parser Unit := do
  let _ ← identifier
  typeParameters? grammar
  if ← eatWord "extends" then interfaceList grammar
  objectType grammar

/-- An enumeration after the word `enum`: the values given to its members. -/
def enumeration (grammar : Grammar) : Parser (List Expr) := do
  let _ ← identifier
  expect openBrace
  let values ← bracketed (listUntil closeBrace do
    let _ ← key grammar
    if ← eat "=" then return some (← grammar.assignment) else return none)
  return values.filterMap id

/-- A name space or an announced module after its keyword. -/
def nameSpace (grammar : Grammar) : Parser Unit := do
  match (← token).lexeme with
  | .string _ _ => advance
  | _ =>
    let _ ← identifier
    let _ ← many do
      if ← eat "." then
        let _ ← identifier
        return some ()
      else return none
  if ← eat openBrace then
    let _ ← within (fun _ => default) (many do
      if ← at? closeBrace then return none else return some (← grammar.item))
    expect closeBrace
  else semicolon

/-- The base class of a class. -/
def baseClass (grammar : Grammar) : Parser Expr :=
  leftHand grammar

/-- A class declaration after the word `class`. -/
def classDeclaration (grammar : Grammar) : Parser Decl := do
  let (name, definition) ← classTail grammar (baseClass grammar)
  match name with
  | some name => return .class name definition
  | none => failure

/-- A function declaration after the word `function`. -/
def functionDeclaration (grammar : Grammar) : Parser Decl := do
  let (name, body) ← functionTail grammar
  match name with
  | some name => return .function name body
  | none => failure

/-- The declarations that only a dialect with types has, if one of them is next. -/
def typeDeclaration? (grammar : Grammar) : Parser (Option Decl) := do
  if ! (← hasTypes) then return none
  if ← atWordBeforeName? "type" then
    advance
    typeAlias grammar
    return some (.other [])
  else if ← atWordBeforeName? "interface" then
    advance
    interface grammar
    return some (.other [])
  else if ← atWordBeforeName? "enum" then
    advance
    return some (.other (← enumeration grammar))
  else if (← atWord? "enum") && (← peek atIdentifier?) then
    advance
    return some (.other (← enumeration grammar))
  else if ← atWordBeforeName? "namespace" then
    advance
    nameSpace grammar
    return some (.other [])
  else if (← atWordBeforeName? "module") ||
      ((← atWord? "module") && (← peek (return (← token).lexeme matches .string _ _))) then
    advance
    nameSpace grammar
    return some (.other [])
  else if (← atWord? "global") && (← peek (at? openBrace)) then
    advance
    expect openBrace
    let _ ← within (fun _ => default) (many do
      if ← at? closeBrace then return none else return some (← grammar.item))
    expect closeBrace
    return some (.other [])
  else if (← atWord? "abstract") && (← peek (atWord? "class")) then
    advance
    advance
    return some (← classDeclaration grammar)
  else return none

/-- A declaration, if one is next. Where only a statement may stand, `const` and `let` start
none. -/
def declaration? (grammar : Grammar) (lexical announced : Bool) : Parser (Option Decl) := do
  if (← hasTypes) && (← atWord? "const") && (← peek (atWord? "enum")) then
    advance
    advance
    return some (.other (← enumeration grammar))
  else if (← atWord? "var") || (lexical && ((← atWord? "const") || (← atLet?))) then
    advance
    let declared ← declarators grammar false announced
    semicolon
    return some (.variables declared)
  else if ← eatWord "function" then return some (← functionDeclaration grammar)
  else if ← atAsyncFunction? then
    advance
    advance
    return some (← functionDeclaration grammar)
  else if ← eatWord "class" then return some (← classDeclaration grammar)
  else if (← at? "@") && (← ahead (attempt (decorators grammar *> expectWord "class"))).isSome then
    let _ ← decorators grammar
    expectWord "class"
    return some (← classDeclaration grammar)
  else if (← hasTypes) && (← at? "@") &&
      (← ahead (attempt (decorators grammar *> expectWord "abstract"))).isSome then
    let _ ← decorators grammar
    typeDeclaration? grammar
  else typeDeclaration? grammar

/-- An announced declaration, if the word `declare` is next and starts one. -/
def announced? (grammar : Grammar) : Parser (Option Decl) := do
  if ! (← hasTypes) || ! (← atWord? "declare") || (← peek afterBreak) then return none
  match ← attempt (advance *> declaration? grammar true true) with
  | some (some declared) => return some declared
  | _ => return none

/-! ### Statements -/

/-- An expression in parentheses, as the head of a statement. -/
def condition (grammar : Grammar) : Parser Expr := do
  expect "("
  let value ← bracketed grammar.expression
  expect ")"
  return value

/-- What is left of the head of a loop over a collection, after its target. -/
def loopSource? (grammar : Grammar) : Parser (Option Expr) := do
  if ← eatWord "of" then return some (← bracketed grammar.assignment)
  else if ← eatWord "in" then return some (← bracketed grammar.expression)
  else return none

/-- An expression, unless the punctuator that ends its place is next. -/
def expressionBefore? (grammar : Grammar) (close : String) : Parser (List Expr) := do
  let values ← if ← at? close then pure [] else List.singleton <$> bracketed grammar.expression
  expect close
  return values

/-- A loop with three parts in its head, after the first of them. -/
def threePartLoop (grammar : Grammar) (lo : Nat) (start : List Expr) (declared : List Stmt) :
    Parser Stmt := do
  expect ";"
  let test ← expressionBefore? grammar ";"
  let update ← expressionBefore? grammar ")"
  let body ← grammar.statement
  return .compound (← spanFrom lo) [] (start ++ test ++ update) (declared ++ [body])

/-- A loop after the word `for`. -/
def forLoop (grammar : Grammar) (lo : Nat) : Parser Stmt := do
  let _ ← eatWord "await"
  expect "("
  let noIn (around : Surroundings) : Surroundings := { around.bracketed with noIn := true }
  if ← at? ";" then threePartLoop grammar lo [] []
  else if (← atAnyWord? ["var", "const"]) || (← atLet?) then
    let start ← position
    advance
    let declared ← within noIn (declarators grammar true false)
    let statement := Stmt.decl (← spanFrom start) (.variables declared)
    match ← loopSource? grammar with
    | some source =>
      expect ")"
      let body ← grammar.statement
      return .compound (← spanFrom lo) [] [source] [statement, body]
    | none => threePartLoop grammar lo [] [statement]
  else
    let first ← within noIn grammar.expression
    match ← loopSource? grammar with
    | some source =>
      expect ")"
      let body ← grammar.statement
      return .compound (← spanFrom lo) [Pattern.ofExpr first] [source] [body]
    | none => threePartLoop grammar lo [first] []

/-- The statements under one label of a `switch` statement, and the value they are for. -/
def switchCase (grammar : Grammar) : Parser (List Expr × List Stmt) := do
  let tests ←
    if ← eatWord "default" then pure []
    else
      expectWord "case"
      List.singleton <$> bracketed grammar.expression
  expect ":"
  let body ← many do
    if (← at? closeBrace) || (← atAnyWord? ["case", "default"]) then return none
    else return some (← grammar.statement)
  return (tests, body)

/-- A `switch` statement after its keyword. -/
def switchRest (grammar : Grammar) (lo : Nat) : Parser Stmt := do
  let subject ← condition grammar
  expect openBrace
  let cases ← many do
    if ← at? closeBrace then return none else return some (← switchCase grammar)
  expect closeBrace
  return .compound (← spanFrom lo) [] (subject :: cases.flatMap (·.1)) (cases.flatMap (·.2))

/-- A `try` statement after its keyword. -/
def tryRest (grammar : Grammar) (lo : Nat) : Parser Stmt := do
  let body ← block grammar
  let (bound, handler) ←
    if ← eatWord "catch" then
      let bound ←
        if ← eat "(" then
          let target ← grammar.pattern
          if ← hasTypes then annotation? grammar
          expect ")"
          pure [target]
        else pure []
      pure (bound, some (← block grammar))
    else pure ([], none)
  let finalizer ← if ← eatWord "finally" then some <$> block grammar else pure none
  if handler.isNone && finalizer.isNone then failure
  return .compound (← spanFrom lo) bound [] (body ++ handler.getD [] ++ finalizer.getD [])

/-- A jump to a label or out of a loop, after its keyword. -/
def jumpRest (lo : Nat) : Parser Stmt := do
  if ! (← afterBreak) && (← atIdentifier?) then advance
  semicolon
  return .compound (← spanFrom lo) [] [] []

/-- A statement that starts with a keyword of its own, if one is next. -/
def keywordStatement? (grammar : Grammar) : Parser (Option Stmt) := do
  let lo ← position
  if ← eatWord "if" then
    let test ← condition grammar
    let consequent ← grammar.statement
    let alternate ← if ← eatWord "else" then some <$> grammar.statement else pure none
    return some (.compound (← spanFrom lo) [] [test] (consequent :: alternate.toList))
  else if ← eatWord "for" then return some (← forLoop grammar lo)
  else if ← eatWord "while" then
    let test ← condition grammar
    let body ← grammar.statement
    return some (.compound (← spanFrom lo) [] [test] [body])
  else if ← eatWord "do" then
    let body ← grammar.statement
    expectWord "while"
    let test ← condition grammar
    let _ ← eat ";"
    return some (.compound (← spanFrom lo) [] [test] [body])
  else if ← eatWord "return" then
    let ends := (← afterBreak) || (← atAny? [";", closeBrace]) ||
      (← token).lexeme = .endOfInput
    let value ← if ends then pure none else some <$> bracketed grammar.expression
    semicolon
    return some (.return (← spanFrom lo) value)
  else if ← eatWord "throw" then
    if ← afterBreak then failure
    let value ← bracketed grammar.expression
    semicolon
    return some (.compound (← spanFrom lo) [] [value] [])
  else if (← eatWord "break") || (← eatWord "continue") then return some (← jumpRest lo)
  else if ← eatWord "debugger" then
    semicolon
    return some (.compound (← spanFrom lo) [] [] [])
  else if ← eatWord "switch" then return some (← switchRest grammar lo)
  else if ← eatWord "try" then return some (← tryRest grammar lo)
  else if ← eatWord "with" then
    let subject ← condition grammar
    let body ← grammar.statement
    return some (.compound (← spanFrom lo) [] [subject] [body])
  else return none

/-- A statement. -/
def anyStatement (grammar : Grammar) : Parser Stmt := do
  let lo ← position
  if ← at? openBrace then
    let body ← block grammar
    return .compound (← spanFrom lo) [] [] body
  if ← eat ";" then return .compound (← spanFrom lo) [] [] []
  if let some statement ← keywordStatement? grammar then return statement
  if let some declared ← announced? grammar then
    return .decl (← spanFrom lo) declared
  if let some declared ← declaration? grammar true false then
    return .decl (← spanFrom lo) declared
  if (← atIdentifier?) && (← peek (at? ":")) then
    advance
    advance
    let body ← grammar.statement
    return .compound (← spanFrom lo) [] [] [body]
  let value ← grammar.expression
  semicolon
  return .expr (← spanFrom lo) value

end PropCatalog.Syntax.Grammar
