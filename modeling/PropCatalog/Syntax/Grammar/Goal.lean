import PropCatalog.Syntax.Cursor

/-! What a grammar reads. The parts of the grammar are given readers for the constructs nested in
theirs, so that only the step from one level of nesting to the next is recursive. -/

namespace PropCatalog.Syntax

/-- The constructs that can contain themselves. -/
inductive Goal where
  | assignment
  | unary
  | statement
  | item
  | pattern
  | type
  | markup
  deriving DecidableEq, Repr

/-- What is recorded of each construct: nothing of types and markup. -/
def Goal.Result : Goal → Type
  | .assignment | .unary => Expr
  | .statement => Stmt
  | .item => Item
  | .pattern => Pattern
  | .type | .markup => Unit

/-- A reader for each construct. -/
abbrev Grammar := (goal : Goal) → Parser goal.Result

namespace Grammar

/-- An expression without commas outside brackets. -/
def assignment (grammar : Grammar) : Parser Expr := grammar .assignment

/-- An expression that can be the operand of a unary operator. -/
def unary (grammar : Grammar) : Parser Expr := grammar .unary

def statement (grammar : Grammar) : Parser Stmt := grammar .statement

/-- An import, an export or a statement. -/
def item (grammar : Grammar) : Parser Item := grammar .item

/-- A pattern that binds names, without a default. -/
def pattern (grammar : Grammar) : Parser Pattern := grammar .pattern

def type (grammar : Grammar) : Parser Unit := grammar .type

/-- An element or a fragment. -/
def markup (grammar : Grammar) : Parser Unit := grammar .markup

/-- Expressions with commas between them. Two or more of them are one expression. -/
def expression (grammar : Grammar) : Parser Expr := do
  let lo ← Parser.position
  let first ← grammar.assignment
  let rest ← Parser.many do
    if ← Parser.eat "," then return some (← grammar.assignment) else return none
  if rest.isEmpty then return first
  else return .operation (← Parser.spanFrom lo) (first :: rest)

end Grammar

end PropCatalog.Syntax
