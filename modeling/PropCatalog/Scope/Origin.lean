import PropCatalog.Scope.Value

/-! The module that an expression comes from. -/

namespace PropCatalog.Scope

open Syntax

/-- The module that a call of `require` names. -/
def required? (callee : Expr) (arguments : List Element) : Option String :=
  match callee, arguments with
  | .name _ "require", .item value :: _ => value.literalText?
  | _, _ => none

/-- What the next expression on the way to an origin is, or the origin itself. -/
inductive OriginStep where
  | found (origin : String)
  | next (e : Expr)
  | stuck

/-- One step towards the root of an expression, or from its root to what that is bound to. -/
def originStep (scope : Scope) (e : Expr) : OriginStep :=
  match e.unwrap with
  | .member _ object _ => .next object
  | .call _ callee arguments =>
    match required? callee arguments with
    | some origin => .found origin
    | none => .next callee
  | .name _ text =>
    match scope.get? text with
    | some (.imported origin) => .found origin
    | some (.value value) | some (.property value _) => .next value
    | _ => .stuck
  | _ => .stuck

/-- The origin found in a limited number of steps. -/
def originWithin (scope : Scope) : Nat → Expr → Option String
  | 0, _ => none
  | steps + 1, e =>
    match scope.originStep e with
    | .found origin => some origin
    | .next e => scope.originWithin steps e
    | .stuck => none

/-- The module that the root of an expression is imported or required from. -/
def origin? (scope : Scope) (e : Expr) : Option String :=
  scope.originWithin depthLimit e

end PropCatalog.Scope
