import PropCatalog.Proofs.Wrapping.Alike

/-! Every syntax tree is alike to itself, so that the rules leave no form of the grammar out. -/

namespace PropCatalog

open Syntax

/-- In one source file, each literal corresponds to itself. -/
def Matching.same (file : SourceFile) : Matching file file where
  literal literal literal' := literal = literal'
  apart := by
    rintro _ _ _ _ rfl rfl
    exact Iff.rfl

namespace Syntax

variable {file : SourceFile}

mutual

-- The induction is on the tree, with one rule for each of its nodes.

theorem Expr.alike_self : ∀ e : Expr, e.Alike (Matching.same file) e
  | .name _ text => .inside (.name text)
  | .string _ value => .inside (.string value)
  | .number _ value => .inside (.number value)
  | .constant _ => .inside .constant
  | .template _ head holes => .inside (.template head (exprsAlike_self holes))
  | .array _ elements => .inside (.array (elementsAlike_self elements))
  | .object _ properties => .inside (.object rfl (propertiesAlike_self properties))
  | .member _ object key => .inside (.member object.alike_self key.alike_self)
  | .call _ callee arguments =>
    .inside (.call rfl callee.alike_self (elementsAlike_self arguments))
  | .keywordCall _ arguments => .inside (.keywordCall (elementsAlike_self arguments))
  | .assign _ plain target value =>
    .inside (.assign plain (target.alike_self false) value.alike_self)
  | .wrapped _ _ inner => by
    obtain ⟨same⟩ := inner.alike_self
    exact .inside same
  | .function _ name body => .inside (.function name (stmtsAlike_self body))
  | .arrow _ parameters body =>
    .inside (.arrow (patternsAlike_self false parameters) (stmtsAlike_self body))
  | .class _ name definition => .inside (.class name definition.alike_self)
  | .markup _ => .inside .markup
  | .operation _ operands => .inside (.operation (exprsAlike_self operands))

theorem exprsAlike_self : ∀ es : List Expr, ExprsAlike (Matching.same file) es es
  | [] => .nil
  | e :: rest => .cons e.alike_self (exprsAlike_self rest)

theorem optionAlike_self : ∀ e : Option Expr, OptionAlike (Matching.same file) e e
  | none => .none
  | some e => .some e.alike_self

theorem Element.alike_self : ∀ element : Element, element.Alike (Matching.same file) element
  | .hole => .hole
  | .item value => .item value.alike_self
  | .spread value => .spread value.alike_self

theorem elementsAlike_self :
    ∀ elements : List Element, ElementsAlike (Matching.same file) elements elements
  | [] => .nil
  | element :: rest => .cons element.alike_self (elementsAlike_self rest)

theorem Property.alike_self :
    ∀ property : Property, property.Alike (Matching.same file) property
  | .pair _ key value => .pair rfl key.alike_self value.alike_self
  | .shorthand _ name => .shorthand name rfl
  | .spread value => .spread value.alike_self
  | .method _ key body => .method key.alike_self (stmtsAlike_self body)
  | .getter _ key body => .getter key.alike_self (stmtsAlike_self body)
  | .setter _ key parameter body =>
    .setter key.alike_self (parameter.alike_self false) (stmtsAlike_self body)
  | .defaulted _ name value => .defaulted name value.alike_self

theorem propertiesAlike_self :
    ∀ properties : List Property, PropertiesAlike (Matching.same file) properties properties
  | [] => .nil
  | property :: rest => .cons property.alike_self (propertiesAlike_self rest)

theorem Key.alike_self : ∀ key : Key, key.Alike (Matching.same file) key
  | .name text => .name text
  | .string value => .string value
  | .number value => .number value
  | .bigInteger => .bigInteger
  | .computed value => .computed value.alike_self
  | .privateName text => .privateName text

theorem Class.alike_self : ∀ definition : Class, definition.Alike (Matching.same file) definition
  | .mk base members => .mk (optionAlike_self base) (membersAlike_self members)

theorem ClassMember.alike_self :
    ∀ member : ClassMember, member.Alike (Matching.same file) member
  | .field isStatic key value => .field isStatic key.alike_self (optionAlike_self value)
  | .method isStatic key body => .method isStatic key.alike_self (stmtsAlike_self body)
  | .getter isStatic key body => .getter isStatic key.alike_self (stmtsAlike_self body)
  | .setter isStatic key => .setter isStatic key.alike_self
  | .other => .other

theorem membersAlike_self :
    ∀ members : List ClassMember, MembersAlike (Matching.same file) members members
  | [] => .nil
  | member :: rest => .cons member.alike_self (membersAlike_self rest)

theorem Stmt.alike_self : ∀ statement : Stmt, statement.Alike (Matching.same file) statement
  | .expr _ value => .expr value.alike_self
  | .return _ value => .return (optionAlike_self value)
  | .decl _ declaration => .decl declaration.alike_self
  | .compound _ patterns operands body =>
    .compound (patternsAlike_self false patterns) (exprsAlike_self operands) (stmtsAlike_self body)

theorem stmtsAlike_self : ∀ body : List Stmt, StmtsAlike (Matching.same file) body body
  | [] => .nil
  | statement :: rest => .cons statement.alike_self (stmtsAlike_self rest)

theorem Decl.alike_self : ∀ declaration : Decl, declaration.Alike (Matching.same file) declaration
  | .class name definition => .class name definition.alike_self
  | .function name body => .function name (stmtsAlike_self body)
  | .variables declarators => .declared (declaratorsAlike_self declarators)
  | .other operands => .other (exprsAlike_self operands)

theorem Declarator.alike_self :
    ∀ declarator : Declarator, declarator.Alike (Matching.same file) declarator
  | .mk pattern value => .mk (pattern.alike_self true) (optionAlike_self value)

theorem declaratorsAlike_self :
    ∀ declarators : List Declarator, DeclaratorsAlike (Matching.same file) declarators declarators
  | [] => .nil
  | declarator :: rest => .cons declarator.alike_self (declaratorsAlike_self rest)

theorem Pattern.alike_self (pattern : Pattern) (binding : Bool) :
    Pattern.Alike (Matching.same file) binding pattern pattern :=
  match pattern with
  | .name text => .name text
  | .object fields => .object (fieldsAlike_self binding fields)
  | .array elements => .array (patternsAlike_self binding elements)
  | .defaulted target value => .defaulted (target.alike_self binding) value.alike_self
  | .rest target => .rest (target.alike_self binding)
  | .expr value => .expr value.alike_self

theorem patternsAlike_self (binding : Bool) :
    ∀ patterns : List Pattern, PatternsAlike (Matching.same file) binding patterns patterns
  | [] => .nil
  | pattern :: rest => .cons (pattern.alike_self binding) (patternsAlike_self binding rest)

theorem Field.alike_self (field : Field) (binding : Bool) :
    Field.Alike (Matching.same file) binding field field :=
  match field with
  | .shorthand name value => .shorthand name (optionAlike_self value)
  | .pair key target => .pair key.alike_self (target.alike_self binding)
  | .rest target => .rest (target.alike_self binding)

theorem fieldsAlike_self (binding : Bool) :
    ∀ fields : List Field, FieldsAlike (Matching.same file) binding fields fields
  | [] => .nil
  | field :: rest => .cons (field.alike_self binding) (fieldsAlike_self binding rest)

end

/-- Every statement assigns as it does itself. -/
theorem Stmt.assignsAlike_self (statement : Stmt) : statement.AssignsAlike statement := by
  -- Only an expression as a statement assigns.
  cases statement with
  | expr span value => exact ⟨rfl, rfl⟩
  | _ => trivial

theorem Item.alike_self (item : Item) : item.Alike (Matching.same file) item := by
  -- Each kind of items has a case of its own.
  cases item with
  | importDecl span typeOnly origin names => exact .importDecl typeOnly origin names
  | exportDecl span declaration => exact .exportDecl declaration.alike_self
  | exportDefaultClass span name definition =>
    exact .exportDefaultClass name definition.alike_self
  | exportDefaultFunction span name body =>
    exact .exportDefaultFunction name (stmtsAlike_self body)
  | exportDefaultExpr span value => exact .exportDefaultExpr value.alike_self
  | stmt statement => exact .stmt statement.alike_self statement.assignsAlike_self
  | other span => exact .other

/-- Every module is alike to itself. -/
theorem Module.alike_self (source : Module) : source.Alike (Matching.same file) source :=
  List.forall₂_same.mpr fun item _ => item.alike_self

end Syntax

end PropCatalog
