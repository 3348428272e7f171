import PropCatalog.Syntax.Grammar.Statements

/-! Imports and exports, and the grammar as a whole. -/

namespace PropCatalog.Syntax.Grammar

open Parser

/-- The name of a module: missing when it is not valid text. -/
def moduleName : Parser (Option String) := do
  match (← token).lexeme with
  | .string value wellFormed =>
    advance
    return if wellFormed then some value else none
  | _ => failure

/-- The attributes of an import. -/
def importAttributes (grammar : Grammar) : Parser Unit := do
  let marked ← if ← eatWord "with" then pure true
    else if ! (← afterBreak) then eatWord "assert" else pure false
  if marked then
    let _ ← objectLiteral grammar

/-- The name of something that a module exports: a word or a string. The result is the word, if it
can name something here as well. -/
def exportedName : Parser (Option String) := do
  match (← token).lexeme with
  | .word text _ =>
    advance
    return if reservedWords.contains text then none else some text
  | .string _ _ =>
    advance
    return none
  | _ => failure

/-- Whether another name follows the word before. -/
def atName? : Parser Bool := do
  match (← token).lexeme with
  | .word _ _ | .string _ _ => return true
  | _ => return false

/-- An entry in the braces of an import or export: the name before and the name after the word
`as`. -/
def specifier : Parser (Option String × Option (Option String)) := do
  let renamed : Parser (Option (Option String)) := do
    if ← eatWord "as" then return some (← exportedName) else return none
  let types ← hasTypes
  if types && (← atWord? "type") && (← peek atName?) then
    let plain ← attempt do
      -- The word can be the name itself, with a new name after it.
      let first ← exportedName
      let second ← renamed
      if ! (← atAny? [",", closeBrace]) then failure
      return (first, second)
    if let some names := plain then return names
    advance
  let first ← exportedName
  return (first, ← renamed)

/-- The names that the braces of an import bind. -/
def importedNames : Parser (List String) := do
  expect openBrace
  listUntil closeBrace do
    let (first, second) ← specifier
    match second.getD first with
    | some name => return name
    | none => failure

/-- An import after its keyword and the names it starts with. -/
def importRest (grammar : Grammar) (lo : Nat) (typeOnly : Bool) (names : List String) :
    Parser Item := do
  expectWord "from"
  let origin ← moduleName
  importAttributes grammar
  semicolon
  return .importDecl (← spanFrom lo) typeOnly origin names

/-- The names that an import binds, in the order in which it lists them. -/
def importClause : Parser (List String) := do
  let nameSpace : Parser (List String) := do
    expect "*"
    expectWord "as"
    return [← identifier]
  if ← at? "*" then nameSpace
  else if ← at? openBrace then importedNames
  else
    let first ← identifier
    if ← eat "," then
      let rest ← if ← at? "*" then nameSpace else importedNames
      return first :: rest
    else return [first]

/-- What stands after the equals sign of an import that names an entity. -/
def importedEntity (grammar : Grammar) : Parser Unit := do
  if (← atWord? "require") && (← peek (at? "(")) then
    advance
    let _ ← arguments grammar
  else
    let _ ← identifier
    typeReference grammar
  semicolon

/-- An import. -/
def importItem (grammar : Grammar) : Parser Item := do
  let lo ← position
  expectWord "import"
  if (← token).lexeme matches .string _ _ then
    let origin ← moduleName
    importAttributes grammar
    semicolon
    return .importDecl (← spanFrom lo) false origin []
  if ← hasTypes then
    let entity ← attempt do
      if ← atWordBeforeName? "type" then advance
      let _ ← identifier
      expect "="
      importedEntity grammar
    if entity.isSome then return .other (← spanFrom lo)
    let typed ← attempt do
      expectWord "type"
      let names ← importClause
      importRest grammar lo true names
    if let some item := typed then return item
  let names ← importClause
  importRest grammar lo false names

/-- What follows the words `export default`. -/
def defaultExport (grammar : Grammar) (lo : Nat) : Parser Item := do
  let declared ← attempt do
    let decorated ← decorators grammar
    if (← hasTypes) && (← atWord? "abstract") then advance
    else if decorated && ! (← atWord? "class") then failure
    expectWord "class"
    classTail grammar (baseClass grammar)
  if let some (name, definition) := declared then
    return .exportDefaultClass (← spanFrom lo) name definition
  let asynchronous ← atAsyncFunction?
  if asynchronous || (← atWord? "function") then
    if asynchronous then advance
    advance
    let (name, body) ← functionTail grammar
    return .exportDefaultFunction (← spanFrom lo) name body
  if (← hasTypes) && (← atWordBeforeName? "interface") then
    advance
    interface grammar
    return .other (← spanFrom lo)
  let value ← grammar.assignment
  semicolon
  return .exportDefaultExpr (← spanFrom lo) value

/-- Names exported in braces, from this module or from another. -/
def namedExport (grammar : Grammar) (lo : Nat) : Parser Item := do
  expect openBrace
  let names ← listUntil closeBrace specifier
  if ← eatWord "from" then
    let _ ← moduleName
    importAttributes grammar
  else if names.any (·.1.isNone) then failure
  semicolon
  return .other (← spanFrom lo)

/-- Everything that another module exports. -/
def starExport (grammar : Grammar) (lo : Nat) : Parser Item := do
  expect "*"
  if ← eatWord "as" then
    let _ ← exportedName
  expectWord "from"
  let _ ← moduleName
  importAttributes grammar
  semicolon
  return .other (← spanFrom lo)

/-- The exports that only a dialect with types has, if one of them is next. -/
def typedExport? (grammar : Grammar) (lo : Nat) : Parser (Option Item) := do
  if ! (← hasTypes) then return none
  if ← eat "=" then
    let _ ← grammar.expression
    semicolon
    return some (.other (← spanFrom lo))
  else if (← atWord? "as") && (← peek (atWord? "namespace")) then
    advance
    advance
    let _ ← identifier
    semicolon
    return some (.other (← spanFrom lo))
  else if ← atWord? "import" then
    let _ ← importItem grammar
    return some (.other (← spanFrom lo))
  else if (← atWord? "type") && (← peek (at? openBrace)) then
    advance
    return some (← namedExport grammar lo)
  else if (← atWord? "type") && (← peek (at? "*")) then
    advance
    return some (← starExport grammar lo)
  else return none

/-- An export. -/
def exportItem (grammar : Grammar) : Parser Item := do
  let lo ← position
  expectWord "export"
  if ← eatWord "default" then defaultExport grammar lo
  else if ← at? "*" then starExport grammar lo
  else if ← at? openBrace then namedExport grammar lo
  else if let some item ← typedExport? grammar lo then return item
  else if let some declared ← announced? grammar then
    return .exportDecl (← spanFrom lo) declared
  else
    match ← declaration? grammar true false with
    | some declared => return .exportDecl (← spanFrom lo) declared
    | none => failure

/-- An import, an export or a statement. Where the dialect has types, decorators can stand in front
of an exported class, which then starts at the word `export`. -/
def anyItem (grammar : Grammar) : Parser Item := do
  let callsImport := peek (atAny? ["(", "."])
  if (← atWord? "import") && ! (← callsImport) then importItem grammar
  else if ← atWord? "export" then exportItem grammar
  else
    let decorated := (← hasTypes) && (← at? "@") &&
      (← ahead (attempt (decorators grammar *> expectWord "export"))).isSome
    if decorated then
      let _ ← decorators grammar
      exportItem grammar
    else return .stmt (← grammar.statement)

/-- The grammar with one more level of nesting. -/
def deepen (grammar : Grammar) : Grammar
  | .assignment => assignmentExpression grammar
  | .unary => unaryExpression grammar
  | .statement => anyStatement grammar
  | .item => anyItem grammar
  | .pattern => bindingPattern grammar
  | .type => anyType grammar
  | .markup => element grammar

/-- The grammar for sources with a limited number of levels of nesting. -/
def ofDepth : Nat → Grammar
  | 0, _ => failure
  | depth + 1, goal => deepen (ofDepth depth) goal

/-- All items up to the end of the input. -/
def items (grammar : Grammar) : Parser (List Item) := do
  let found ← many do
    if (← token).lexeme = .endOfInput then return none else return some (← grammar.item)
  if (← token).lexeme = .endOfInput then return found else failure

end PropCatalog.Syntax.Grammar
