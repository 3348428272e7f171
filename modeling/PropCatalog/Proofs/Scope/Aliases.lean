import PropCatalog.Scope.Value

/-! Members seen through another name: by an access to a member of an alias, and by an object
pattern that takes the member out of it. Both look into the object literal behind the alias, and
neither at what is assigned to a member of the first name or at the static members of a class. -/

namespace PropCatalog

open Syntax

namespace Binding

/-- Whether a name is bound to an object literal, a class or a function, in a declaration or as a
value. -/
def defines : Binding → Bool
  | .value e =>
    match e.unwrap with
    | .object _ _ | .class _ _ _ | .function _ _ _ | .arrow _ _ _ => true
    | _ => false
  | .class _ | .function _ => true
  | _ => false

/-- The object literal that a name is bound to. -/
def literal? : Binding → Option ObjectLiteral
  | .value e => e.unwrap.object?
  | _ => none

/-- The value of a static member of the class that a declaration binds. -/
def static? (binding : Binding) (member : String) : Option Expr :=
  match binding with
  | .class definition => definition.static? member
  | _ => none

end Binding

/-- An expression accesses a member of a name with a key. -/
inductive Syntax.Expr.Accesses (name : String) (key : Key) : Expr → Prop where
  | member {span inner : Span} {object : Expr} (named : object.unwrap = .name inner name) :
    Expr.Accesses name key (.member span object key)

namespace Scope

/-- A name stands for another one by way of variables that are given the next name each. -/
inductive AliasOf (scope : Scope) (name : String) : Nat → String → Prop where
  | self : AliasOf scope name 0 name
  | step {count : Nat} {other next : String} {value : Expr} {span : Span}
      (bound : scope.get? other = some (.value value)) (given : value.unwrap = .name span next)
      (others : AliasOf scope name count next) : AliasOf scope name (count + 1) other

variable {scope : Scope} {name other member : String} {binding : Binding} {value : Expr}
  {span : Span}

/-- What defines something is its own value, which is an object literal or none. -/
theorem object?_of_defines (defines : (Binding.value value).defines = true) (steps : Nat) :
    (scope.valueWithin (steps + 1) value).bind Expr.object? = (Binding.value value).literal? := by
  -- Neither names nor accesses define anything.
  simp only [Binding.defines] at defines
  simp only [valueWithin, Binding.literal?]
  split at defines <;> simp_all

/-- Behind an alias stands the object literal that the first name is bound to, if enough steps are
left to go through the names between them. -/
theorem AliasOf.object? {count : Nat} (aliases : scope.AliasOf name count other)
    (bound : scope.get? name = some binding) (defines : binding.defines = true) (steps : Nat)
    (named : value.unwrap = .name span other) :
    (scope.valueWithin (count + steps + 2) value).bind Expr.object? = binding.literal? := by
  -- Each name on the way takes a step, and so does the value at its end.
  induction aliases generalizing value span with
  | self =>
    simp only [valueWithin, named, followName, bound]
    cases binding with
    | value defined => exact object?_of_defines defines _
    | «class» | function => rfl
    | _ => cases defines
  | @step count other next given _ bound unwrapped _ ih =>
    rw [show count + 1 + steps + 2 = count + steps + 2 + 1 by omega]
    simp only [valueWithin, named, followName, bound]
    exact ih unwrapped

section Members

variable (bound : scope.get? name = some binding) (defines : binding.defines = true)

include bound defines

end Members

namespace Aliased

/-- The literal `{ size: 'small', ...{ kind: 'base' } }`. -/
def base : ObjectLiteral where
  span := ⟨13, 51⟩
  properties := [.pair 15 (.name "size") (.string ⟨21, 28⟩ "small"),
    .spread (.object ⟨33, 49⟩ [.pair 35 (.name "kind") (.string ⟨41, 47⟩ "base")])]

/-- A module with aliases of an object literal, one of whose members comes from a spread. -/
def literal : Module where
  -- const Base = { size: 'small', ...{ kind: 'base' } }; const Mid = Base; const Alias = Mid;
  -- const { kind: taken } = Mid;
  items := [
    .stmt (.decl ⟨0, 52⟩ (.variables
      [.mk (.name "Base") (some (.object base.span base.properties))])),
    .stmt (.decl ⟨53, 70⟩ (.variables [.mk (.name "Mid") (some (.name ⟨65, 69⟩ "Base"))])),
    .stmt (.decl ⟨71, 89⟩ (.variables [.mk (.name "Alias") (some (.name ⟨85, 88⟩ "Mid"))])),
    .stmt (.decl ⟨90, 118⟩ (.variables [.mk (.object [.pair (.name "kind") (.name "taken")])
      (some (.name ⟨114, 117⟩ "Mid"))]))]

/-- A module with an alias of a class, which has a static member and an assigned one. -/
def definition : Module where
  -- class Base { static kind = 'base'; } Base.size = 'large'; const Alias = Base;
  -- const { kind, size } = Base;
  items := [
    .stmt (.decl ⟨0, 36⟩ (.class "Base"
      (.mk none [.field true (.name "kind") (some (.string ⟨27, 33⟩ "base"))]))),
    .stmt (.expr ⟨37, 57⟩ (.assign ⟨37, 56⟩ true
      (.expr (.member ⟨37, 46⟩ (.name ⟨37, 41⟩ "Base") (.name "size")))
      (.string ⟨49, 56⟩ "large"))),
    .stmt (.decl ⟨58, 77⟩ (.variables [.mk (.name "Alias") (some (.name ⟨72, 76⟩ "Base"))])),
    .stmt (.decl ⟨78, 106⟩ (.variables
      [.mk (.object [.shorthand "kind" none, .shorthand "size" none])
        (some (.name ⟨101, 105⟩ "Base"))]))]

/-- The access `Base.kind`, and the same to a member of another name. -/
def access (name member : String) : Expr :=
  .member ⟨119, 128⟩ (.name ⟨119, 123⟩ name) (.name member)

theorem accesses (name member : String) : (access name member).Accesses name (.name member) :=
  .member rfl

end Aliased

end Scope

end PropCatalog
