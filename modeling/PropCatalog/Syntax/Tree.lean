import PropCatalog.Number.Double

/-! Syntax trees of modules: what the analysis looks into has a form of its own, and every other
expression or statement keeps its parts only. -/

namespace PropCatalog.Syntax

open PropCatalog.Number (Double)

/-- The bytes of a node in its source, from `lo` up to but not including `hi`. -/
structure Span where
  lo : Nat
  hi : Nat
  deriving DecidableEq, Repr, Inhabited

/-- What can stand around an expression without changing its value. -/
inductive Wrapper where
  | parentheses
  | asType
  | asConst
  | satisfies
  | nonNull
  | cast
  deriving DecidableEq, Repr, Inhabited

mutual

inductive Expr where
  | name (span : Span) (text : String)
  | string (span : Span) (value : String)
  | number (span : Span) (value : Double)
  /-- Null, a truth value, a big integer or a regular expression. -/
  | constant (span : Span)
  /-- A template: the text before its first placeholder, if it is well formed, and the
  placeholders. -/
  | template (span : Span) (head : Option String) (holes : List Expr)
  | array (span : Span) (elements : List Element)
  | object (span : Span) (properties : List Property)
  | member (span : Span) (object : Expr) (key : Key)
  | call (span : Span) (callee : Expr) (arguments : List Element)
  /-- A call of `super` or `import`, which are no expressions themselves. -/
  | keywordCall (span : Span) (arguments : List Element)
  /-- An assignment; it is plain when its operator is a single equals sign. -/
  | assign (span : Span) (plain : Bool) (target : Pattern) (value : Expr)
  | wrapped (span : Span) (wrapper : Wrapper) (inner : Expr)
  | function (span : Span) (name : Option String) (body : List Stmt)
  /-- An arrow function; a body that is an expression is recorded as the statement that returns
  it. -/
  | arrow (span : Span) (parameters : List Pattern) (body : List Stmt)
  | class (span : Span) (name : Option String) (definition : Class)
  /-- An element or a fragment. -/
  | markup (span : Span)
  /-- Any other expression, with the expressions it is made of. -/
  | operation (span : Span) (operands : List Expr)

/-- An entry of an array literal or an argument list. Only array literals have holes. -/
inductive Element where
  | hole
  | item (value : Expr)
  | spread (value : Expr)

/-- An entry of an object literal, with the position of its first token. -/
inductive Property where
  | pair (start : Nat) (key : Key) (value : Expr)
  | shorthand (span : Span) (name : String)
  | spread (value : Expr)
  | method (start : Nat) (key : Key) (body : List Stmt)
  | getter (start : Nat) (key : Key) (body : List Stmt)
  | setter (start : Nat) (key : Key) (parameter : Pattern) (body : List Stmt)
  /-- A name with a default, which makes sense only when the literal turns out to be a pattern. -/
  | defaulted (start : Nat) (name : String) (value : Expr)

/-- The key of a property, a class member or an access. -/
inductive Key where
  | name (text : String)
  | string (value : String)
  | number (value : Double)
  | bigInteger
  | computed (value : Expr)
  | privateName (text : String)

inductive Class where
  | mk (superClass : Option Expr) (members : List ClassMember)

inductive ClassMember where
  | field (isStatic : Bool) (key : Key) (value : Option Expr)
  | method (isStatic : Bool) (key : Key) (body : List Stmt)
  | getter (isStatic : Bool) (key : Key) (body : List Stmt)
  | setter (isStatic : Bool) (key : Key)
  /-- A constructor, a private member, a static block, an auto-accessor or an index signature. -/
  | other

inductive Stmt where
  | expr (span : Span) (value : Expr)
  | return (span : Span) (value : Option Expr)
  | decl (span : Span) (declaration : Decl)
  /-- Any other statement, with the patterns, expressions and statements it is made of. -/
  | compound (span : Span) (patterns : List Pattern) (operands : List Expr) (body : List Stmt)

inductive Decl where
  | class (name : String) (definition : Class)
  | function (name : String) (body : List Stmt)
  | variables (declarators : List Declarator)
  /-- A declaration that binds no value here: a type, an enumeration, a namespace. -/
  | other (operands : List Expr)

/-- One declared variable or pattern, with its initial value. -/
inductive Declarator where
  | mk (pattern : Pattern) (value : Option Expr)

inductive Pattern where
  | name (text : String)
  | object (fields : List Field)
  | array (elements : List Pattern)
  | defaulted (target : Pattern) (value : Expr)
  | rest (target : Pattern)
  /-- An expression that is assigned to. -/
  | expr (value : Expr)

/-- An entry of an object pattern. -/
inductive Field where
  | shorthand (name : String) (value : Option Expr)
  | pair (key : Key) (target : Pattern)
  | rest (target : Pattern)

end

instance : Inhabited Expr := ⟨.constant default⟩
instance : Inhabited Stmt := ⟨.return default none⟩
instance : Inhabited Pattern := ⟨.name ""⟩

/-- The span of an expression. -/
def Expr.span : Expr → Span
  | .name span _ | .string span _ | .number span _ | .constant span | .template span _ _
  | .array span _ | .object span _ | .member span _ _ | .call span _ _ | .keywordCall span _
  | .assign span _ _ _ | .wrapped span _ _ | .function span _ _ | .arrow span _ _
  | .class span _ _ | .markup span | .operation span _ => span

/-- The span of a statement. -/
def Stmt.span : Stmt → Span
  | .expr span _ | .return span _ | .decl span _ | .compound span _ _ _ => span

/-- The base class. -/
def Class.superClass : Class → Option Expr
  | .mk superClass _ => superClass

/-- The members in source order. -/
def Class.members : Class → List ClassMember
  | .mk _ members => members

/-- The expression without parentheses and type annotations around it. -/
def Expr.unwrap : Expr → Expr
  | .wrapped _ _ inner => inner.unwrap
  | other => other

/-- What is left after unwrapping has no wrapper around it. -/
theorem Expr.unwrap_ne_wrapped (e : Expr) (span : Span) (wrapper : Wrapper) (inner : Expr) :
    e.unwrap ≠ .wrapped span wrapper inner := by
  -- A wrapper is removed by the recursion, and no other form is a wrapper.
  fun_induction Expr.unwrap e with
  | case1 _ _ _ ih => exact ih
  | case2 e plain => exact fun same => plain _ _ _ same

/-- Unwrapping twice is unwrapping once. -/
theorem Expr.unwrap_unwrap (e : Expr) : e.unwrap.unwrap = e.unwrap := by
  -- The first pass leaves no wrapper for the second.
  fun_induction Expr.unwrap e with
  | case1 _ _ _ ih => exact ih
  | case2 e plain => rw [Expr.unwrap]; exact plain

/-- A statement or declaration at the top level of a module. -/
inductive Item where
  /-- An import with the names it binds. The module is missing when its name is not valid text. -/
  | importDecl (span : Span) (typeOnly : Bool) (origin : Option String) (names : List String)
  | exportDecl (span : Span) (declaration : Decl)
  | exportDefaultClass (span : Span) (name : Option String) (definition : Class)
  | exportDefaultFunction (span : Span) (name : Option String) (body : List Stmt)
  | exportDefaultExpr (span : Span) (value : Expr)
  | stmt (statement : Stmt)
  /-- An item that neither binds a value nor defines a component. -/
  | other (span : Span)

/-- The span of an item. -/
def Item.span : Item → Span
  | .importDecl span _ _ _ | .exportDecl span _ | .exportDefaultClass span _ _
  | .exportDefaultFunction span _ _ | .exportDefaultExpr span _ | .other span => span
  | .stmt statement => statement.span

/-- A parsed module. -/
structure Module where
  items : List Item

end PropCatalog.Syntax
