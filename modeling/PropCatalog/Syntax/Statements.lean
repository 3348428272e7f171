import PropCatalog.Syntax.Tree

/-! Expressions that stand as statements of their own. -/

namespace PropCatalog.Syntax

/-- The expression that an item consists of. -/
def Item.expression? : Item → Option Expr
  | .stmt (.expr _ value) => some value
  | _ => none

/-- The expression statements at the top level of a module. -/
def Module.expressions (source : Module) : List Expr :=
  source.items.filterMap Item.expression?

end PropCatalog.Syntax
