import PropCatalog.Analysis
import PropCatalog.Component.Markup
import PropCatalog.Text.Uppercase

/-! The components that a module defines at its top level. -/

namespace PropCatalog

open Syntax

/-- How a component is defined. -/
inductive ComponentKind where
  /-- By an object literal handed to `createClass`. -/
  | specification (literal : ObjectLiteral)
  | class (definition : Syntax.Class)
  | function

/-- A component, with its name if it is bound to one. -/
structure Component where
  name : Option String
  kind : ComponentKind
  /-- Where the top-level item that defines it starts. -/
  position : Nat

/-- Names of components start with an upper-case letter. -/
def isComponentName (name : String) : Bool :=
  name.toList.head?.any Text.isUppercase

/-- The functions that make a component from another one. -/
def wrapperNames : List String := ["memo", "forwardRef"]

/-- The base classes of components. -/
def baseClassNames : List String := ["Component", "PureComponent"]

/-- The name that an expression ends with: its own, or that of its last access. -/
def Syntax.Expr.lastName? (e : Expr) : Option String :=
  match e.unwrap with
  | .member _ _ key => key.accessed?
  | .name _ text => some text
  | _ => none

/-- Whether a class member is a method or accessor of instances with this name. -/
def Syntax.ClassMember.isInstanceMethod (name : String) : ClassMember → Bool
  | .method false key _ | .getter false key _ | .setter false key => key.spelled? = some name
  | _ => false

/-- The first argument of a call, unless the arguments start with a spread. -/
def firstArgument? : List Element → Option Expr
  | .item value :: _ => some value
  | _ => none

namespace Analysis

/-- Whether an expression comes from a module that exports React. -/
def isFromReact (analysis : Analysis) (e : Expr) : Bool :=
  (analysis.scope.origin? e).any reactModules.contains

/-- Classes are components when they have a `render` method or a base class of React. -/
def isComponentClass (analysis : Analysis) (definition : Syntax.Class) : Bool :=
  definition.members.any (·.isInstanceMethod "render") ||
    definition.superClass.any fun base =>
      base.lastName?.any baseClassNames.contains && analysis.isFromReact base

/-- Whether a callee makes components from object literals. -/
def isCreateClass (analysis : Analysis) (callee : Expr) : Bool :=
  match callee.unwrap with
  | .member _ object key => key.accessed? = some "createClass" && analysis.isFromReact object
  | .name _ _ => analysis.scope.origin? callee = some createClassModule
  | _ => false

/-- The object literal that a call makes a component from. -/
def specification? (analysis : Analysis) (callee : Expr) (arguments : List Element) :
    Option ObjectLiteral :=
  if analysis.isCreateClass callee then (firstArgument? arguments).bind analysis.scope.object?
  else none

/-- The component that a call makes another one from. -/
def wrappedComponent? (analysis : Analysis) (callee : Expr) (arguments : List Element) :
    Option Expr :=
  if callee.lastName?.any wrapperNames.contains && analysis.isFromReact callee then
    firstArgument? arguments
  else none

/-- How an expression defines a component, when a limited number of calls may be around it. -/
def kindWithin? (analysis : Analysis) : Nat → Expr → Option ComponentKind
  | 0, _ => none
  | calls + 1, e =>
    match e.unwrap with
    | .call _ callee arguments =>
      match analysis.specification? callee arguments with
      | some literal => some (.specification literal)
      | none =>
        (analysis.wrappedComponent? callee arguments).bind (analysis.kindWithin? calls)
    | .class _ _ definition =>
      if analysis.isComponentClass definition then some (.class definition) else none
    | .function _ _ body | .arrow _ _ body => if stmtsHaveMarkup body then some .function else none
    | _ => none

/-- How an expression defines a component; each wrapper may stand around it once. -/
def kind? (analysis : Analysis) (e : Expr) : Option ComponentKind :=
  analysis.kindWithin? (wrapperNames.length + 1) e

end Analysis

/-- The name and the value that an assignment exports; `module.exports` itself has no name. What
only exports a name is passed over. -/
def exportedValue? : Expr → Option (Option String × Expr)
  | .assign _ true (.expr (.member _ object key)) value =>
    if value.unwrap.isName then none
    else
      key.accessed?.bind fun property =>
        match object.unwrap with
        | .name _ "module" => if property = "exports" then some (none, value) else none
        | .name _ "exports" => some (some property, value)
        | .member _ inner innerKey =>
          match inner.unwrap with
          | .name _ "module" =>
            if innerKey.accessed? = some "exports" then some (some property, value) else none
          | _ => none
        | _ => none
  | _ => none

namespace Analysis

/-- The component that a variable with a value is; only one whose name says so can be a function. -/
def declaratorComponent? (analysis : Analysis) (position : Nat) : Declarator → Option Component
  | .mk (.name text) (some value) =>
    match analysis.kind? value with
    | some .function => if isComponentName text then some ⟨some text, .function, position⟩ else none
    | some kind => some ⟨some text, kind, position⟩
    | none => none
  | _ => none

/-- The components that a declaration defines. -/
def declComponents (analysis : Analysis) (position : Nat) : Decl → List Component
  | .class name definition =>
    if analysis.isComponentClass definition then [⟨some name, .class definition, position⟩] else []
  | .function name body =>
    if isComponentName name && stmtsHaveMarkup body then [⟨some name, .function, position⟩] else []
  | .variables declarators => declarators.filterMap (analysis.declaratorComponent? position)
  | .other _ => []

/-- The components that a top-level item defines. -/
def itemComponents (analysis : Analysis) (item : Item) : List Component :=
  let position := item.span.lo
  match item with
  | .stmt (.decl _ declaration) | .exportDecl _ declaration =>
    analysis.declComponents position declaration
  | .stmt (.expr _ value) =>
    match exportedValue? value with
    | some (name, value) => ((analysis.kind? value).map fun kind => ⟨name, kind, position⟩).toList
    | none => []
  | .exportDefaultClass _ name definition =>
    if analysis.isComponentClass definition then [⟨name, .class definition, position⟩] else []
  | .exportDefaultFunction _ name body =>
    if stmtsHaveMarkup body then [⟨name, .function, position⟩] else []
  | .exportDefaultExpr _ value =>
    if value.unwrap.isName then []
    else ((analysis.kind? value).map fun kind => ⟨none, kind, position⟩).toList
  | _ => []

/-- The components of the module, in source order. -/
def components (analysis : Analysis) : List Component :=
  analysis.file.module.items.flatMap analysis.itemComponents

/-- The expression that a static member of a component is given: by an assignment, or else in the
definition. -/
def memberValue? (analysis : Analysis) (component : Component) (member : String) : Option Expr :=
  (component.name.bind fun name => analysis.scope.assigned? name member).or
    (match component.kind with
    | .specification literal => analysis.scope.property? literal member
    | .class definition => definition.static? member
    | .function => none)

end Analysis

end PropCatalog
