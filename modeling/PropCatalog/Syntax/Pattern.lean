import PropCatalog.Syntax.Tree

/-! Expressions read again as patterns, once an equals sign or an arrow follows them. -/

namespace PropCatalog.Syntax

mutual

/-- The pattern that an expression spells. What spells no pattern is assigned to as it stands. -/
def Pattern.ofExpr : Expr → Pattern
  | .name _ text => .name text
  | .object _ properties => .object (Pattern.ofProperties properties)
  | .array _ elements => .array (Pattern.ofElements elements)
  | .assign _ true target value => .defaulted target value
  | other => .expr other

/-- The patterns that the elements of an array literal spell. -/
def Pattern.ofElements : List Element → List Pattern
  | [] => []
  | .hole :: others => Pattern.ofElements others
  | .item value :: others => Pattern.ofExpr value :: Pattern.ofElements others
  | .spread value :: others => .rest (Pattern.ofExpr value) :: Pattern.ofElements others

/-- The fields that the properties of an object literal spell. Methods and accessors spell none. -/
def Pattern.ofProperties : List Property → List Field
  | [] => []
  | .pair _ key value :: others => .pair key (Pattern.ofExpr value) :: Pattern.ofProperties others
  | .shorthand _ text :: others => .shorthand text none :: Pattern.ofProperties others
  | .defaulted _ text value :: others =>
    .shorthand text (some value) :: Pattern.ofProperties others
  | .spread value :: others => .rest (Pattern.ofExpr value) :: Pattern.ofProperties others
  | .method _ _ _ :: others | .getter _ _ _ :: others | .setter _ _ _ _ :: others =>
    Pattern.ofProperties others

end

end PropCatalog.Syntax
