import PropCatalog.Syntax.Tree

/-! Whether markup occurs in a piece of syntax, outside the functions, methods and classes nested in
it. Arrow functions, getters and setters of object literals belong to what is around them. -/

namespace PropCatalog.Syntax

mutual

/-- Whether markup occurs in an expression. -/
def Expr.hasMarkup : Expr → Bool
  | .markup _ => true
  | .name _ _ | .string _ _ | .number _ _ | .constant _ | .function _ _ _ | .class _ _ _ => false
  | .template _ _ holes => exprsHaveMarkup holes
  | .array _ elements => elementsHaveMarkup elements
  | .object _ properties => propertiesHaveMarkup properties
  | .member _ target key => target.hasMarkup || key.hasMarkup
  | .call _ callee arguments => callee.hasMarkup || elementsHaveMarkup arguments
  | .keywordCall _ arguments => elementsHaveMarkup arguments
  | .assign _ _ target value => target.hasMarkup || value.hasMarkup
  | .wrapped _ _ inner => inner.hasMarkup
  | .arrow _ parameters body => patternsHaveMarkup parameters || stmtsHaveMarkup body
  | .operation _ operands => exprsHaveMarkup operands

def exprsHaveMarkup : List Expr → Bool
  | [] => false
  | e :: rest => e.hasMarkup || exprsHaveMarkup rest

/-- Whether markup occurs in an element of a list. -/
def Element.hasMarkup : Element → Bool
  | .hole => false
  | .item value | .spread value => value.hasMarkup

def elementsHaveMarkup : List Element → Bool
  | [] => false
  | element :: rest => element.hasMarkup || elementsHaveMarkup rest

/-- Whether markup occurs in a property: in the body of an accessor, but not of a method. -/
def Property.hasMarkup : Property → Bool
  | .pair _ key value => key.hasMarkup || value.hasMarkup
  | .shorthand _ _ => false
  | .spread value => value.hasMarkup
  | .method _ key _ => key.hasMarkup
  | .getter _ key body => key.hasMarkup || stmtsHaveMarkup body
  | .setter _ key parameter body =>
    key.hasMarkup || parameter.hasMarkup || stmtsHaveMarkup body
  | .defaulted _ _ value => value.hasMarkup

def propertiesHaveMarkup : List Property → Bool
  | [] => false
  | property :: rest => property.hasMarkup || propertiesHaveMarkup rest

/-- Whether markup occurs in the brackets of a key. -/
def Key.hasMarkup : Key → Bool
  | .computed value => value.hasMarkup
  | _ => false

/-- Whether markup occurs in a statement. -/
def Stmt.hasMarkup : Stmt → Bool
  | .expr _ value => value.hasMarkup
  | .return _ value => optionHasMarkup value
  | .decl _ declaration => declaration.hasMarkup
  | .compound _ patterns operands body =>
    patternsHaveMarkup patterns || exprsHaveMarkup operands || stmtsHaveMarkup body

/-- Whether markup occurs in a statement of a list. -/
def stmtsHaveMarkup : List Stmt → Bool
  | [] => false
  | statement :: rest => statement.hasMarkup || stmtsHaveMarkup rest

def optionHasMarkup : Option Expr → Bool
  | none => false
  | some value => value.hasMarkup

/-- Whether markup occurs in a declaration. -/
def Decl.hasMarkup : Decl → Bool
  | .class _ _ | .function _ _ => false
  | .variables declarators => declaratorsHaveMarkup declarators
  | .other operands => exprsHaveMarkup operands

/-- Whether markup occurs in the pattern or the value of a variable. -/
def Declarator.hasMarkup : Declarator → Bool
  | .mk pattern value => pattern.hasMarkup || optionHasMarkup value

def declaratorsHaveMarkup : List Declarator → Bool
  | [] => false
  | declarator :: rest => declarator.hasMarkup || declaratorsHaveMarkup rest

/-- Whether markup occurs in the defaults and keys of a pattern. -/
def Pattern.hasMarkup : Pattern → Bool
  | .name _ => false
  | .object fields => fieldsHaveMarkup fields
  | .array elements => patternsHaveMarkup elements
  | .defaulted target value => target.hasMarkup || value.hasMarkup
  | .rest target => target.hasMarkup
  | .expr value => value.hasMarkup

def patternsHaveMarkup : List Pattern → Bool
  | [] => false
  | pattern :: others => pattern.hasMarkup || patternsHaveMarkup others

/-- Whether markup occurs in a field of an object pattern. -/
def Field.hasMarkup : Field → Bool
  | .shorthand _ value => optionHasMarkup value
  | .pair key target => key.hasMarkup || target.hasMarkup
  | .rest target => target.hasMarkup

def fieldsHaveMarkup : List Field → Bool
  | [] => false
  | field :: others => field.hasMarkup || fieldsHaveMarkup others

end

end PropCatalog.Syntax
