import PropCatalog.Number.Shortest
import PropCatalog.Syntax.Equality

/-! Literals and the names that keys spell without any evaluation. -/

namespace PropCatalog.Syntax

/-- The text of a string, a number or a template without placeholders. -/
def Expr.literalText? (e : Expr) : Option String :=
  match e.unwrap with
  | .string _ value => some value
  | .number _ value => some value.text
  | .template _ head [] => head
  | _ => none

/-- Whether an expression is a literal; a template counts when it has no placeholders. -/
def Expr.isLiteral (e : Expr) : Bool :=
  match e.unwrap with
  | .string _ _ | .number _ _ | .constant _ => true
  | .template _ _ holes => holes.isEmpty
  | _ => false

/-- Whether an expression is a name. -/
def Expr.isName (e : Expr) : Bool :=
  match e with
  | .name _ _ => true
  | _ => false

/-- The name that a key of a property or class member spells: one in brackets spells none. -/
def Key.spelled? : Key → Option String
  | .name text => some text
  | .string value => some value
  | .number value => some value.text
  | .bigInteger | .computed _ | .privateName _ => none

/-- The expression that a property gives to its name. -/
def Property.value? : Property → Option Expr
  | .pair _ _ value => some value
  | .shorthand span text => some (.name span text)
  | _ => none

/-- The name that the key of an access spells: one in brackets spells the text of a literal. -/
def Key.accessed? : Key → Option String
  | .computed value => value.literalText?
  | .name text => some text
  | _ => none

/-- Wrappers around an expression do not change its text. -/
theorem Expr.literalText?_unwrap (e : Expr) : e.unwrap.literalText? = e.literalText? := by
  -- Both sides read the unwrapped expression.
  simp [Expr.literalText?, Expr.unwrap_unwrap]

/-- Wrappers around an expression do not change whether it is a literal. -/
theorem Expr.isLiteral_unwrap (e : Expr) : e.unwrap.isLiteral = e.isLiteral := by
  -- Both sides read the unwrapped expression.
  simp [Expr.isLiteral, Expr.unwrap_unwrap]

/-- The expression that the first `return` statement with a value gives back. -/
def returned? : List Stmt → Option Expr
  | [] => none
  | .return _ (some value) :: _ => some value
  | _ :: rest => returned? rest

/-- The value of a static member of a class: of the last field with a value, or of the last getter
that returns one. -/
def Class.static? (definition : Class) (name : String) : Option Expr :=
  definition.members.reverse.findSome? fun
    | .field true key value => if key.spelled? = some name then value else none
    | .getter true key body => if key.spelled? = some name then returned? body else none
    | _ => none

/-- An object literal apart from its expression. Its span tells it from every other literal of the
same source, so that only a literal itself is equal to it. -/
structure ObjectLiteral where
  span : Span
  properties : List Property
  deriving DecidableEq

/-- The object literal that an expression is. -/
def Expr.object? : Expr → Option ObjectLiteral
  | .object span properties => some ⟨span, properties⟩
  | _ => none

end PropCatalog.Syntax
