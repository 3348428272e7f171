import PropCatalog.Syntax.Literal

/-! The names that a module binds at its top level, and the members it assigns to there. -/

namespace PropCatalog

open Syntax

/-- What a name stands for. -/
inductive Binding where
  | imported (origin : String)
  | value (value : Expr)
  /-- A property of a value, taken by an object pattern. -/
  | property (value : Expr) (key : String)
  | class (definition : Syntax.Class)
  | function (body : List Stmt)

/-- The bindings and member assignments of a module, each list with the latest first. -/
structure Scope where
  bindings : List (String × Binding)
  assignments : List ((String × String) × Expr)

namespace Scope

def empty : Scope := ⟨[], []⟩

/-- What a name stands for: its latest binding counts. -/
def get? (scope : Scope) (name : String) : Option Binding :=
  scope.bindings.lookup name

/-- The value last assigned to a member of a name. -/
def assigned? (scope : Scope) (object member : String) : Option Expr :=
  scope.assignments.lookup (object, member)

def bind (scope : Scope) (name : String) (binding : Binding) : Scope :=
  { scope with bindings := (name, binding) :: scope.bindings }

def assign (scope : Scope) (object member : String) (value : Expr) : Scope :=
  { scope with assignments := ((object, member), value) :: scope.assignments }

@[simp]
theorem get?_bind (scope : Scope) (name other : String) (binding : Binding) :
    (scope.bind name binding).get? other =
      if other = name then some binding else scope.get? other := by
  -- The new entry is the first one that a lookup meets.
  by_cases same : other = name
  · simp [bind, get?, same]
  · simp [bind, get?, List.lookup_cons, beq_eq_false_iff_ne.2 same, same]

@[simp]
theorem assigned?_bind (scope : Scope) (name : String) (binding : Binding) :
    (scope.bind name binding).assigned? = scope.assigned? := rfl

@[simp]
theorem get?_assign (scope : Scope) (object member : String) (value : Expr) :
    (scope.assign object member value).get? = scope.get? := rfl

@[simp]
theorem assigned?_assign (scope : Scope) (object member object' member' : String) (value : Expr) :
    (scope.assign object member value).assigned? object' member' =
      if object' = object ∧ member' = member then some value
      else scope.assigned? object' member' := by
  -- The new entry is the first one that a lookup meets.
  by_cases same : object' = object ∧ member' = member
  · simp [assign, assigned?, same]
  · have differs : ((object', member') == (object, member)) = false := by
      simpa [Prod.ext_iff] using same
    simp [assign, assigned?, List.lookup_cons, differs, same]

/-- The names that an object pattern takes from a value. A name with a default is taken only by a
field without a key; patterns inside the pattern take nothing. -/
def bindField (value : Expr) (scope : Scope) : Field → Scope
  | .shorthand name _ => scope.bind name (.property value name)
  | .pair key (.name text) =>
    match key.spelled? with
    | some key => scope.bind text (.property value key)
    | none => scope
  | _ => scope

/-- A variable with a value binds its name or the fields of its pattern. -/
def bindDeclarator (scope : Scope) : Declarator → Scope
  | .mk (.name text) (some value) => scope.bind text (.value value)
  | .mk (.object fields) (some value) => fields.foldl (bindField value) scope
  | _ => scope

/-- The bindings of a declaration. -/
def bindDecl (scope : Scope) : Decl → Scope
  | .class name definition => scope.bind name (.class definition)
  | .function name body => scope.bind name (.function body)
  | .variables declarators => declarators.foldl bindDeclarator scope
  | .other _ => scope

/-- The member assignment that a whole expression is: the object is a name without anything around
it. -/
def assignExpr (scope : Scope) : Expr → Scope
  | .assign _ true (.expr (.member _ (.name _ object) key)) value =>
    match key.accessed? with
    | some member => scope.assign object member value
    | none => scope
  | _ => scope

/-- The bindings and member assignments of a top-level item. -/
def bindItem (scope : Scope) : Item → Scope
  | .importDecl _ false (some origin) names =>
    names.foldl (fun scope name => scope.bind name (.imported origin)) scope
  | .exportDecl _ declaration => scope.bindDecl declaration
  | .exportDefaultClass _ (some name) definition => scope.bind name (.class definition)
  | .exportDefaultFunction _ (some name) body => scope.bind name (.function body)
  | .stmt (.decl _ declaration) => scope.bindDecl declaration
  | .stmt (.expr _ value) => scope.assignExpr value
  | _ => scope

/-- The bindings and member assignments of a module, item by item. -/
def ofModule (source : Module) : Scope :=
  source.items.foldl bindItem empty

end Scope

end PropCatalog
