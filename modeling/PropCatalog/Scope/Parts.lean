import PropCatalog.Scope.Binding

/-! The expressions that a value can come from: those inside of an expression, without looking into
functions, classes or operations, and those inside of what the names of a scope stand for. -/

namespace PropCatalog

namespace Syntax

mutual

/-- An expression and those inside of it that it can lead to, each without wrappers. -/
def Expr.parts : Expr → List Expr
  | .wrapped _ _ inner => inner.parts
  | .array span elements => .array span elements :: partsOfElements elements
  | .object span properties => .object span properties :: partsOfProperties properties
  | .member span object key => .member span object key :: object.parts
  | .call span callee arguments =>
    .call span callee arguments :: (callee.parts ++ partsOfElements arguments)
  | other => [other]

/-- The parts of the elements of a list. -/
def partsOfElements : List Element → List Expr
  | [] => []
  | .hole :: rest => partsOfElements rest
  | .item value :: rest | .spread value :: rest => value.parts ++ partsOfElements rest

/-- The parts of the values and spreads of an object literal; a shorthand is the name that it is
short for. -/
def partsOfProperties : List Property → List Expr
  | [] => []
  | .pair _ _ value :: rest | .spread value :: rest => value.parts ++ partsOfProperties rest
  | .shorthand span text :: rest => .name span text :: partsOfProperties rest
  | _ :: rest => partsOfProperties rest

end

/-- The parts of the values that a member of a class can have as a static member. -/
def ClassMember.parts : ClassMember → List Expr
  | .field true _ (some value) => value.parts
  | .getter true _ body => ((returned? body).map Expr.parts).getD []
  | _ => []

/-- The parts of the static members of a class. -/
def Class.parts (definition : Class) : List Expr :=
  definition.members.flatMap ClassMember.parts

end Syntax

/-- The parts of what a name stands for. -/
def Binding.parts : Binding → List Syntax.Expr
  | .value e | .property e _ => e.parts
  | .class definition => definition.parts
  | _ => []

/-- The parts of all that the names of a scope and their members stand for. -/
def Scope.parts (scope : Scope) : List Syntax.Expr :=
  scope.bindings.flatMap (fun bound => bound.2.parts) ++
    scope.assignments.flatMap fun assigned => assigned.2.parts

end PropCatalog
