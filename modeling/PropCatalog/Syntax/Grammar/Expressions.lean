import PropCatalog.Syntax.Grammar.Functions
import PropCatalog.Syntax.Grammar.Markup
import PropCatalog.Syntax.Pattern

/-! Expressions, from literals up to assignments and arrow functions. -/

namespace PropCatalog.Syntax.Grammar

open Parser

/-! ### Arrow functions and parentheses -/

/-- The body of an arrow function after its arrow. -/
def arrowBody (grammar : Grammar) : Parser (List Stmt) := do
  if ← at? openBrace then functionBody grammar false
  else
    let value ← grammar.assignment
    return [.return value.span (some value)]

/-- An arrow function from its arrow on, which has to be on the line of its parameters. -/
def arrowRest (grammar : Grammar) (lo : Nat) (parameters : List Pattern) : Parser Expr := do
  if ← afterBreak then failure
  expect "=>"
  let body ← arrowBody grammar
  return .arrow (← spanFrom lo) parameters body

/-- Whether an arrow function may start at the next token. -/
def arrowAllowed : Parser Bool := do
  return (← position) == (← get).arrowStart

/-- An entry in parentheses, which can turn out to be an argument or a parameter. -/
inductive ParenthesisItem where
  | element (element : Element)
  | parameter (pattern : Pattern)

/-- The parameter that an entry in parentheses spells. -/
def ParenthesisItem.pattern : ParenthesisItem → Pattern
  | .parameter pattern => pattern
  | .element (.item value) => Pattern.ofExpr value
  | .element (.spread value) => .rest (Pattern.ofExpr value)
  | .element .hole => .array []

/-- An entry in parentheses. Where the dialect has types, a parameter is told from an expression by
what annotates it. -/
def parenthesisItem (grammar : Grammar) : Parser ParenthesisItem := do
  if ← hasTypes then
    let parameter ← attempt do
      let (target, annotated) ← annotatedParameter grammar
      if annotated && (← atAny? [",", ")"]) then return target else failure
    if let some target := parameter then return .parameter target
  if ← eat "..." then return .element (.spread (← grammar.assignment))
  else return .element (.item (← grammar.assignment))

/-- The return type of an arrow function, if one is next and its arrow follows. -/
def arrowReturnType (grammar : Grammar) : Parser Bool := do
  if ! (← hasTypes) || ! (← at? ":") || (← get).surroundings.colonAhead then return false
  let read ← attempt do
    expect ":"
    returnedType grammar
    if ! (← at? "=>") then failure
  return read.isSome

/-- An arrow function with a return type inside a conditional, where the colon can also belong to
the conditional. -/
def conditionalArrow? (grammar : Grammar) (lo : Nat) (parameters : List Pattern) :
    Parser (Option Expr) := do
  let around := (← get).surroundings
  if ! around.conditional || ! (← hasTypes) || ! (← at? ":") then return none
  attempt do
    expect ":"
    returnedType grammar
    let value ← arrowRest grammar lo parameters
    -- In the middle part the conditional's own colon has to be left.
    if around.colonAhead && ! (← at? ":") then failure
    return value

/-- The entries in parentheses. -/
def parenthesisItems (grammar : Grammar) : Parser (List ParenthesisItem) := do
  expect "("
  bracketed (listUntil ")" (parenthesisItem grammar))

/-- Expressions in parentheses, or the parameters and body of an arrow function. -/
def parenthesized (grammar : Grammar) : Parser Expr := do
  let lo ← position
  let allowed ← arrowAllowed
  let items ← parenthesisItems grammar
  let parameters := items.map ParenthesisItem.pattern
  if allowed then
    if let some value ← conditionalArrow? grammar lo parameters then return value
  let typed ← arrowReturnType grammar
  let hasParameter := items.any (· matches .parameter _)
  if typed || hasParameter || (← at? "=>") then
    if allowed then arrowRest grammar lo parameters else failure
  else
    let values ← items.mapM fun
      | .element (.item value) => pure value
      | _ => failure
    match values with
    | [] => failure
    | [value] => return .wrapped (← spanFrom lo) .parentheses value
    | first :: rest =>
      let last := rest.getLastD first
      let sequence := Expr.operation ⟨first.span.lo, last.span.hi⟩ values
      return .wrapped (← spanFrom lo) .parentheses sequence

/-- An arrow function with type parameters. -/
def genericArrow (grammar : Grammar) (lo : Nat) : Parser Expr := do
  typeParameters grammar
  let parameters ← parameters grammar
  let _ ← within (fun around => { around with colonAhead := false }) (arrowReturnType grammar)
  arrowRest grammar lo parameters

/-- What starts with the word `async`: a function, an arrow function, or the name itself. -/
def asyncExpression (grammar : Grammar) : Parser Expr := do
  let lo ← position
  if ← atAsyncFunction? then
    advance
    advance
    let (name, body) ← functionTail grammar
    return .function (← spanFrom lo) name body
  let allowed ← arrowAllowed
  let sameLine (test : Parser Bool) : Parser Bool := do
    if ← afterBreak then return false else test
  if allowed && (← hasTypes) && (← peek (sameLine (at? "<"))) then
    if let some value ← attempt (advance *> genericArrow grammar lo) then return value
  if allowed && (← peek (sameLine atIdentifier?)) then
    let arrow ← attempt do
      advance
      let name ← identifier
      arrowRest grammar lo [.name name]
    if let some value := arrow then return value
  if allowed && (← peek (sameLine (at? "("))) then
    let arrow ← attempt do
      advance
      let items ← parenthesisItems grammar
      let _ ← arrowReturnType grammar
      arrowRest grammar lo (items.map ParenthesisItem.pattern)
    if let some value := arrow then return value
  let name ← identifier
  if allowed && (← at? "=>") then arrowRest grammar lo [.name name]
  else return .name (← spanFrom lo) name

/-! ### Operands -/

/-- A template, which has to be valid here. -/
def templateLiteral (grammar : Grammar) : Parser Expr := do
  let lo ← position
  let (head, holes, valid) ← template grammar.expression
  if valid then return .template (← spanFrom lo) head holes else failure

/-- A class expression, perhaps with decorators. -/
def classExpression (grammar : Grammar) (base : Parser Expr) : Parser Expr := do
  let lo ← position
  let _ ← decorators grammar
  expectWord "class"
  let (name, definition) ← classTail grammar base
  return .class (← spanFrom lo) name definition

/-- What the word `super` starts: a call or an access. -/
def superExpression (grammar : Grammar) : Parser Expr := do
  let lo ← position
  expectWord "super"
  if ← at? "(" then
    let entries ← arguments grammar
    return .keywordCall (← spanFrom lo) entries
  else if ← eat "." then
    if (← token).lexeme matches .privateName _ then advance
    else
      let _ ← word
    return .operation (← spanFrom lo) []
  else
    expect "["
    let value ← bracketed grammar.expression
    expect "]"
    return .operation (← spanFrom lo) [value]

/-- What the word `import` starts inside an expression: a call or the module's own data. -/
def importExpression (grammar : Grammar) : Parser Expr := do
  let lo ← position
  expectWord "import"
  if ← eat "." then
    expectWord "meta"
    return .operation (← spanFrom lo) []
  else
    let entries ← arguments grammar
    return .keywordCall (← spanFrom lo) entries

/-- What a word starts. -/
def wordExpression (grammar : Grammar) (base : Parser Expr) (text : String) : Parser Expr := do
  let lo ← position
  if text == "function" then
    advance
    let (name, body) ← functionTail grammar
    return .function (← spanFrom lo) name body
  else if text == "class" then classExpression grammar base
  else if text == "super" then superExpression grammar
  else if text == "import" then importExpression grammar
  else if ["null", "true", "false"].contains text then
    advance
    return .constant (← spanFrom lo)
  else if text == "this" then
    advance
    return .operation (← spanFrom lo) []
  else if text == "async" then asyncExpression grammar
  else
    let allowed ← arrowAllowed
    let name ← identifier
    if allowed && (← at? "=>") then arrowRest grammar lo [.name name]
    else return .name (← spanFrom lo) name

/-- An expression without operators around it. -/
def primary (grammar : Grammar) (base : Parser Expr) : Parser Expr := do
  let lo ← position
  match (← token).lexeme with
  | .word text escaped => wordExpression grammar base (if escaped then "" else text)
  | .string value _ =>
    advance
    return .string (← spanFrom lo) value
  | .number value =>
    advance
    return .number (← spanFrom lo) value
  | .bigInteger | .regex =>
    advance
    return .constant (← spanFrom lo)
  | .backquote => templateLiteral grammar
  | .privateName _ =>
    advance
    if ← atWord? "in" then return .operation (← spanFrom lo) [] else failure
  | .punctuator text =>
    if text == "(" then parenthesized grammar
    else if text == "[" then arrayLiteral grammar
    else if text == openBrace then objectLiteral grammar
    else if text == "@" then classExpression grammar base
    else if text == "/" || text == "/=" then
      rescan (scanRegex ((← token).source.drop 1))
      advance
      return .constant (← spanFrom lo)
    else if text == "<" && (← hasMarkup) then
      grammar.markup
      return .markup (← spanFrom lo)
    else failure
  | _ => failure

/-! ### Accesses and calls -/

/-- An operand with the accesses and calls behind it, and whether one of them is optional. -/
structure Chain where
  value : Expr
  isOptional : Bool

/-- The chain with one more link: optional chains are operations. -/
def Chain.link (chain : Chain) (optional : Bool) (value : Expr) (operands : List Expr) : Chain :=
  if chain.isOptional || optional then ⟨.operation value.span (chain.value :: operands), true⟩
  else ⟨value, false⟩

/-- The expressions inside a key. -/
def keyOperands : Key → List Expr
  | .computed value => [value]
  | _ => []

/-- An access by name after a dot. -/
def memberName : Parser Key := do
  match (← token).lexeme with
  | .privateName text =>
    advance
    return .privateName text
  | _ => return .name (← word)

/-- A link by brackets or parentheses. -/
def bracketLink (grammar : Grammar) (lo : Nat) (calls optional : Bool) (chain : Chain) :
    Parser (Option Chain) := do
  if ← eat "[" then
    let inner ← bracketed grammar.expression
    expect "]"
    let key := Key.computed inner
    return some (chain.link optional (.member (← spanFrom lo) chain.value key) (keyOperands key))
  else if calls && (← at? "(") then
    let entries ← arguments grammar
    return some
      (chain.link optional (.call (← spanFrom lo) chain.value entries) (operandsOf entries))
  else return none

/-- Whether what follows a type argument list shows that it was one, although no call follows. -/
def endsInstantiation? : Parser Bool := do
  if ← afterBreak then return true
  match (← token).lexeme with
  | .punctuator text =>
    return ! ["(", "[", openBrace, "<", ">", "+", "-", "!", "~", "++", "--", "/", "@"].contains text
  | .word text false => return ["as", "satisfies", "in", "instanceof"].contains text
  | .endOfInput => return true
  | _ => return false

/-- A link by type arguments. -/
def typeArgumentLink (grammar : Grammar) (lo : Nat) (calls optional : Bool) (chain : Chain) :
    Parser (Option Chain) := do
  if ! (← hasTypes) || ! (← atAny? ["<", "<<"]) then return none
  attempt do
    typeArguments grammar
    if (← token).lexeme = .backquote then
      let (_, holes, _) ← template grammar.expression
      return ⟨.operation (← spanFrom lo) (chain.value :: holes), chain.isOptional⟩
    else if calls && (← at? "(") then
      match ← bracketLink grammar lo true optional chain with
      | some longer => return longer
      | none => failure
    else if (← endsInstantiation?) || (← at? "(") then
      return ⟨.operation (← spanFrom lo) [chain.value], chain.isOptional⟩
    else failure

/-- One more access, call, template or assertion behind an operand. -/
def link (grammar : Grammar) (lo : Nat) (calls : Bool) (chain : Chain) :
    Parser (Option Chain) := do
  if ← eat "." then
    let key ← memberName
    return some (chain.link false (.member (← spanFrom lo) chain.value key) [])
  else if calls && (← eat "?.") then
    match ← bracketLink grammar lo true true chain with
    | some longer => return some longer
    | none =>
      match ← typeArgumentLink grammar lo true true chain with
      | some longer => return some longer
      | none =>
        let key ← memberName
        return some (chain.link true (.member (← spanFrom lo) chain.value key) [])
  else if (← hasTypes) && ! (← afterBreak) && (← eat "!") then
    return some ⟨.wrapped (← spanFrom lo) .nonNull chain.value, chain.isOptional⟩
  else if (← token).lexeme = .backquote then
    if chain.isOptional then failure
    let (_, holes, _) ← template grammar.expression
    return some ⟨.operation (← spanFrom lo) (chain.value :: holes), false⟩
  else
    match ← bracketLink grammar lo calls false chain with
    | some longer => return some longer
    | none => typeArgumentLink grammar lo calls false chain

/-- The accesses and calls behind an operand. -/
def links (grammar : Grammar) (lo : Nat) (calls : Bool) (value : Expr) : Parser Expr := do
  return (← extend (link grammar lo calls) ⟨value, false⟩).value

/-- An expression without operators: an operand with accesses and calls behind it, or a `new`
expression. The bound limits how many times `new` is repeated. -/
def leftHandUpTo (grammar : Grammar) : Nat → (calls : Bool) → Parser Expr
  | 0, _ => failure
  | bound + 1, calls => do
    let lo ← position
    let base := leftHandUpTo grammar bound true
    let operand ←
      if ← eatWord "new" then
        if ← eat "." then
          expectWord "target"
          pure (.operation (← spanFrom lo) [])
        else
          let callee ← leftHandUpTo grammar bound false
          if ← at? "?." then failure
          let entries ← if ← at? "(" then arguments grammar else pure []
          pure (.operation (← spanFrom lo) (callee :: operandsOf entries))
      else primary grammar base
    match operand with
    | .arrow _ _ _ => return operand
    | _ => links grammar lo calls operand

/-- An expression without operators. -/
def leftHand (grammar : Grammar) : Parser Expr := do
  leftHandUpTo grammar ((← get).size + 1 - (← position)) true

/-! ### Operators -/

/-- The words that are unary operators. -/
def unaryWords : List String := ["delete", "void", "typeof"]

/-- The word `await` before an operand is an operator, and a name before a closing bracket. -/
def atAwait? : Parser Bool := do
  if ← atWord? "await" then
    peek (return ! (← atAny? [")", "]", ";", ","]))
  else return false

/-- A type assertion in front of an operand. -/
def castExpression (grammar : Grammar) : Parser Expr := do
  let lo ← position
  openAngle
  let isConst ← do
    if ← atWord? "const" then peek (return (← token).source.head? == some '>') else pure false
  if isConst then advance else bracketed grammar.type
  closeAngle
  let value ← grammar.unary
  return .wrapped (← spanFrom lo) (if isConst then .asConst else .cast) value

/-- An operand with unary operators around it. -/
def unaryExpression (grammar : Grammar) : Parser Expr := do
  let lo ← position
  let isOperator := (← atAny? ["+", "-", "~", "!", "++", "--"]) || (← atAnyWord? unaryWords) ||
    (← atAwait?)
  if isOperator then
    advance
    let operand ← grammar.unary
    return .operation (← spanFrom lo) [operand]
  else if (← at? "<") && (← hasTypes) && ! (← hasMarkup) then castExpression grammar
  else
    let operand ← leftHand grammar
    match operand with
    | .arrow _ _ _ => return operand
    | _ =>
      if ! (← afterBreak) && (← atAny? ["++", "--"]) then
        advance
        return .operation (← spanFrom lo) [operand]
      else return operand

/-- The binary operators from the loosest to the tightest, exponentiation apart. -/
def binaryOperators : List (List String) := [
  ["||", "??"], ["&&"], ["|"], ["^"], ["&"], ["==", "!=", "===", "!=="],
  ["<", ">", "<=", ">="], ["<<", ">>", ">>>"], ["+", "-"], ["*", "/", "%"]]

/-- A power: the exponent can be a power itself, and the base has no unary operator. -/
def power (grammar : Grammar) : Parser Expr := do
  let lo ← position
  let startsUnary := (← atAny? ["+", "-", "~", "!"]) || (← atAnyWord? unaryWords)
  let first ← grammar.unary
  match first with
  | .arrow _ _ _ => return first
  | _ =>
    let rest ← many do
      if ← eat "**" then return some (← grammar.unary) else return none
    if rest.isEmpty then return first
    else if startsUnary then failure
    else return .operation (← spanFrom lo) (first :: rest)

/-- A type after an operand, with one of two words between them. -/
def typeOperator? (grammar : Grammar) (lo : Nat) (value : Expr) : Parser (Option Expr) := do
  if ! (← hasTypes) || (← afterBreak) then return none
  if ← eatWord "as" then
    if ← eatWord "const" then return some (.wrapped (← spanFrom lo) .asConst value)
    else
      grammar.type
      return some (.wrapped (← spanFrom lo) .asType value)
  else if ← eatWord "satisfies" then
    grammar.type
    return some (.wrapped (← spanFrom lo) .satisfies value)
  else return none

/-- Operands with binary operators of some levels between them, the loosest level first. -/
def binary (grammar : Grammar) : List (List String) → Parser Expr
  | [] => power grammar
  | operators :: tighter => do
    let lo ← position
    let first ← binary grammar tighter
    let isRelational := operators.contains "<"
    match first with
    | .arrow _ _ _ => return first
    | _ =>
      extend (fun left => do
        let isIn ← if isRelational && ! (← get).surroundings.noIn then atWord? "in" else pure false
        if isIn || (← atAny? operators) || (isRelational && (← atWord? "instanceof")) then
          advance
          let right ← binary grammar tighter
          return some (.operation (← spanFrom lo) [left, right])
        else if isRelational then typeOperator? grammar lo left
        else return none) first

/-- A conditional expression, or an operand of one. -/
def conditional (grammar : Grammar) : Parser Expr := do
  let lo ← position
  let test ← binary grammar binaryOperators
  match test with
  | .arrow _ _ _ => return test
  | _ =>
    if ← eat "?" then
      let middle (around : Surroundings) : Surroundings :=
        { around with noIn := false, conditional := true, colonAhead := true }
      let consequent ← within middle grammar.assignment
      expect ":"
      let last (around : Surroundings) : Surroundings :=
        { around with conditional := true, colonAhead := false }
      let alternate ← within last grammar.assignment
      return .operation (← spanFrom lo) [test, consequent, alternate]
    else return test

/-- The operators that assign. -/
def assignmentOperators : List String := [
  "=", "+=", "-=", "*=", "/=", "%=", "&=", "|=", "^=", "<<=", ">>=", ">>>=", "**=", "&&=", "||=",
  "??="]

/-- What the word `yield` starts in a generator. -/
def yieldExpression (grammar : Grammar) : Parser Expr := do
  let lo ← position
  expectWord "yield"
  let token ← token
  let ends ← atAny? [")", "]", closeBrace, ";", ",", ":", "?"]
  if token.afterBreak || ends || token.lexeme = .endOfInput || (← atAnyWord? ["in", "of"]) then
    return .operation (← spanFrom lo) []
  else
    let _ ← eat "*"
    let value ← grammar.assignment
    return .operation (← spanFrom lo) [value]

/-- A conditional expression or an assignment. -/
def plainAssignment (grammar : Grammar) : Parser Expr := do
  let lo ← position
  if (← get).surroundings.generator && (← atWord? "yield") then yieldExpression grammar
  else
    modify fun cursor => { cursor with arrowStart := lo }
    let target ← conditional grammar
    match target with
    | .arrow _ _ _ => return target
    | _ =>
      if ← atAny? assignmentOperators then
        let plain ← at? "="
        advance
        let value ← grammar.assignment
        return .assign (← spanFrom lo) plain (Pattern.ofExpr target) value
      else return target

/-- An expression without commas outside brackets. Where an angle bracket can start markup or a
type assertion as well, an arrow function with type parameters is tried after the one and before
the other. -/
def assignmentExpression (grammar : Grammar) : Parser Expr := do
  let lo ← position
  if (← hasTypes) && (← at? "<") then
    let arrow := do
      modify fun cursor => { cursor with arrowStart := lo }
      genericArrow grammar lo
    if ← hasMarkup then
      match ← attempt (plainAssignment grammar) with
      | some value => return value
      | none => arrow
    else
      match ← attempt arrow with
      | some value => return value
      | none => plainAssignment grammar
  else plainAssignment grammar

end PropCatalog.Syntax.Grammar
