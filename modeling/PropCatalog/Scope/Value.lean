import PropCatalog.Scope.Binding

/-! The expression that stands for the value of another one, found by following names, accesses and
object literals. -/

namespace PropCatalog.Scope

open Syntax

/-- How many names and accesses are followed behind each other. -/
def depthLimit : Nat := 32

/-- The result of looking up a property, with the object literals searched so far. -/
abbrev Search := Option Expr × List ObjectLiteral

/-- The name of a property, whose brackets can hold a reference to a literal. -/
def nameOfKey? (value? : Expr → Option Expr) : Key → Option String
  | .computed e => (value? e).bind Expr.literalText?
  | key => key.spelled?

/-- The name of an access, whose brackets can hold a reference to a literal. -/
def nameOfAccess? (value? : Expr → Option Expr) : Key → Option String
  | .computed e => (value? e).bind Expr.literalText?
  | .name text => some text
  | _ => none

/-- Searches properties in the order given for one of a name, inside spread literals too. A property
that is found ends the search even when its value leads nowhere. -/
def searchProperties (value? : Expr → Option Expr)
    (inside : ObjectLiteral → List ObjectLiteral → Search) (name : String) :
    List Property → List ObjectLiteral → Search
  | [], searched => (none, searched)
  | property :: rest, searched =>
    let others := searchProperties value? inside name rest
    match property with
    | .pair _ key value =>
      if nameOfKey? value? key = some name then (value? value, searched) else others searched
    | .shorthand span text =>
      if text = name then (value? (.name span text), searched) else others searched
    | .spread value =>
      match (value? value).bind Expr.object? with
      | none => others searched
      | some literal =>
        match inside literal searched with
        | (some found, searched) => (some found, searched)
        | (none, searched) => others searched
    | _ => others searched

/-- What a name leads to, given how values and properties are found. -/
def followName (scope : Scope) (value? : Expr → Option Expr)
    (property? : ObjectLiteral → String → Option Expr) (name : String) : Option Expr :=
  match scope.get? name with
  | some (.value value) => value? value
  | some (.property value key) =>
    ((value? value).bind Expr.object?).bind fun literal => property? literal key
  | _ => none

/-- What an access leads to, given how values and properties are found: the value last assigned to
that member, a static member of a class, or a property of an object literal. -/
def followAccess (scope : Scope) (value? : Expr → Option Expr)
    (property? : ObjectLiteral → String → Option Expr) (object : Expr) (key : Key) :
    Option Expr :=
  (nameOfAccess? value? key).bind fun name =>
    let throughObject :=
      ((value? object).bind Expr.object?).bind fun literal => property? literal name
    match object.unwrap with
    | .name _ text =>
      match scope.assigned? text name with
      | some value => value? value
      | none =>
        match scope.get? text with
        | some (.class definition) => (definition.static? name).bind value?
        | _ => throughObject
    | _ => throughObject

mutual

/-- The value of an expression when a limited number of steps is left. -/
def valueWithin (scope : Scope) : Nat → Expr → Option Expr
  | 0, _ => none
  | steps + 1, e =>
    let property? (literal : ObjectLiteral) (name : String) : Option Expr :=
      (searchWithin scope steps name literal []).1
    match e.unwrap with
    | .name _ text => scope.followName (valueWithin scope steps) property? text
    | .member span object key =>
      some ((scope.followAccess (valueWithin scope steps) property? object key).getD
        (.member span object key))
    | other => some other

/-- The value of the last property of a name in an object literal that has not been searched yet,
when a limited number of steps is left. -/
def searchWithin (scope : Scope) : Nat → String → ObjectLiteral → List ObjectLiteral → Search
  | 0, _, _, searched => (none, searched)
  | steps + 1, name, literal, searched =>
    if searched.contains literal then (none, searched)
    else
      searchProperties (valueWithin scope steps) (searchWithin scope steps name) name
        literal.properties.reverse (literal :: searched)

end

/-- The expression that stands for the value of an expression. Names that are imported, unbound or
bound to a class or function have none; an access that leads nowhere stands for itself. -/
def value? (scope : Scope) (e : Expr) : Option Expr :=
  scope.valueWithin (depthLimit + 1) e

/-- The object literal that stands for the value of an expression. -/
def object? (scope : Scope) (e : Expr) : Option ObjectLiteral :=
  (scope.value? e).bind Expr.object?

/-- The value of a property of an object literal. -/
def property? (scope : Scope) (literal : ObjectLiteral) (name : String) : Option Expr :=
  (scope.searchWithin (depthLimit + 1) name literal []).1

/-- The name of a property of an object literal or class. -/
def keyName? (scope : Scope) (key : Key) : Option String :=
  nameOfKey? scope.value? key

/-- The name of a property that has a value of its own. -/
def propertyName? (scope : Scope) : Property → Option String
  | .pair _ key _ => scope.keyName? key
  | .shorthand _ text => some text
  | _ => none

end PropCatalog.Scope
