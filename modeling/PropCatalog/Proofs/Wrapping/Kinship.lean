import PropCatalog.Proofs.Kinship.Record
import PropCatalog.Proofs.Wrapping.Alike

/-! Trees are alike exactly when they are akin without names spelled in other ways. So what is found
out of modules that are akin is found out of those that are alike. -/

namespace PropCatalog

open Syntax

namespace Syntax

variable {file other : SourceFile} {k : Kinship file other}

mutual

-- Both inductions are on the rules, which are the same but for those about keys.

/-- Expressions that are alike are akin. -/
theorem Expr.Alike.akin {e e' : Expr} : e.Alike k.toMatching e' → e.Akin k e'
  | .inside same => .inside same.sameRule

theorem Expr.SameForm.sameRule {e e' : Expr} : e.SameForm k.toMatching e' → e.SameRule k e'
  | .name text => .name text
  | .string value => .string value
  | .number value => .number value
  | .constant => .constant
  | .template head alike => .template head alike.akin
  | .array alike => .array alike.akin
  | .object matched alike => .object matched alike.akin
  | .member objects keys => .member objects.akin (keys.akin .access)
  | .call requires callees alike => .call requires callees.akin alike.akin
  | .keywordCall alike => .keywordCall alike.akin
  | .assign plain targets values => .assign plain targets.akin values.akin
  | .function name bodies => .function name bodies.akin
  | .arrow patterns bodies => .arrow patterns.akin bodies.akin
  | .class name alike => .class name alike.akin
  | .markup => .markup
  | .operation alike => .operation alike.akin

theorem ExprsAlike.akin {es es' : List Expr} : ExprsAlike k.toMatching es es' → ExprsAkin k es es'
  | .nil => .nil
  | .cons first others => .cons first.akin others.akin

theorem OptionAlike.akin {e e' : Option Expr} :
    OptionAlike k.toMatching e e' → OptionAkin k e e'
  | .none => .none
  | .some alike => .some alike.akin

theorem Element.Alike.akin {element element' : Element} :
    element.Alike k.toMatching element' → element.Akin k element'
  | .hole => .hole
  | .item alike => .item alike.akin
  | .spread alike => .spread alike.akin

theorem ElementsAlike.akin {elements elements' : List Element} :
    ElementsAlike k.toMatching elements elements' → ElementsAkin k elements elements'
  | .nil => .nil
  | .cons first others => .cons first.akin others.akin

theorem Property.Alike.akin {property property' : Property} :
    property.Alike k.toMatching property' → property.Akin k property'
  | .pair described keys alike => .pair described (keys.akin .property) alike.akin
  | .shorthand name described => .shorthand name described
  | .spread alike => .spread alike.akin
  | .method keys bodies => .method (keys.akin .property) bodies.akin
  | .getter keys bodies => .getter (keys.akin .property) bodies.akin
  | .setter keys parameters bodies =>
    .setter (keys.akin .property) parameters.akin bodies.akin
  | .defaulted name alike => .defaulted name alike.akin

theorem PropertiesAlike.akin {properties properties' : List Property} :
    PropertiesAlike k.toMatching properties properties' → PropertiesAkin k properties properties'
  | .nil => .nil
  | .cons first others => .cons first.akin others.akin

theorem Key.Alike.akin {key key' : Key} (place : KeyPlace) :
    key.Alike k.toMatching key' → key.Akin k place key'
  | .name text => .name text
  | .string value => .string value
  | .number value => .number value
  | .bigInteger => .bigInteger
  | .computed alike => .computed alike.akin
  | .privateName text => .privateName text

theorem Class.Alike.akin {definition definition' : Class} :
    definition.Alike k.toMatching definition' → definition.Akin k definition'
  | .mk bases alike => .mk bases.akin alike.akin

theorem ClassMember.Alike.akin {member member' : ClassMember} :
    member.Alike k.toMatching member' → member.Akin k member'
  | .field isStatic keys alike => .field isStatic (keys.akin .declaration) alike.akin
  | .method isStatic keys bodies => .method isStatic (keys.akin .declaration) bodies.akin
  | .getter isStatic keys bodies => .getter isStatic (keys.akin .declaration) bodies.akin
  | .setter isStatic keys => .setter isStatic (keys.akin .declaration)
  | .other => .other

theorem MembersAlike.akin {members members' : List ClassMember} :
    MembersAlike k.toMatching members members' → MembersAkin k members members'
  | .nil => .nil
  | .cons first others => .cons first.akin others.akin

theorem Stmt.Alike.akin {statement statement' : Stmt} :
    statement.Alike k.toMatching statement' → statement.Akin k statement'
  | .expr alike => .expr alike.akin
  | .return alike => .return alike.akin
  | .decl alike => .decl alike.akin
  | .compound targets alike bodies => .compound targets.akin alike.akin bodies.akin

theorem StmtsAlike.akin {body body' : List Stmt} :
    StmtsAlike k.toMatching body body' → StmtsAkin k body body'
  | .nil => .nil
  | .cons first others => .cons first.akin others.akin

theorem Decl.Alike.akin {declaration declaration' : Decl} :
    declaration.Alike k.toMatching declaration' → declaration.Akin k declaration'
  | .class name alike => .class name alike.akin
  | .function name bodies => .function name bodies.akin
  | .declared alike => .declared alike.akin
  | .other alike => .other alike.akin

theorem Declarator.Alike.akin {declarator declarator' : Declarator} :
    declarator.Alike k.toMatching declarator' → declarator.Akin k declarator'
  | .mk targets alike => .mk targets.akin alike.akin

theorem DeclaratorsAlike.akin {declarators declarators' : List Declarator} :
    DeclaratorsAlike k.toMatching declarators declarators' →
      DeclaratorsAkin k declarators declarators'
  | .nil => .nil
  | .cons first others => .cons first.akin others.akin

theorem Pattern.Alike.akin {binding : Bool} {pattern pattern' : Pattern} :
    Pattern.Alike k.toMatching binding pattern pattern' → Pattern.Akin k binding pattern pattern'
  | .name text => .name text
  | .wrappedName same => .wrappedName same
  | .unwrappedName same => .unwrappedName same
  | .expr alike => .expr alike.akin
  | .object alike => .object alike.akin
  | .array alike => .array alike.akin
  | .defaulted targets alike => .defaulted targets.akin alike.akin
  | .rest targets => .rest targets.akin

theorem PatternsAlike.akin {binding : Bool} {patterns patterns' : List Pattern} :
    PatternsAlike k.toMatching binding patterns patterns' →
      PatternsAkin k binding patterns patterns'
  | .nil => .nil
  | .cons first others => .cons first.akin others.akin

theorem Field.Alike.akin {binding : Bool} {field field' : Field} :
    Field.Alike k.toMatching binding field field' → Field.Akin k binding field field'
  | .shorthand name alike => .shorthand name alike.akin
  | .pair keys targets => .pair (keys.akin .declaration) targets.akin
  | .rest targets => .rest targets.akin

theorem FieldsAlike.akin {binding : Bool} {fields fields' : List Field} :
    FieldsAlike k.toMatching binding fields fields' → FieldsAkin k binding fields fields'
  | .nil => .nil
  | .cons first others => .cons first.akin others.akin

end

variable {m : Matching file other}

mutual

-- No key is respelled.

/-- Expressions that are akin are alike. -/
theorem Expr.Akin.alike {e e' : Expr} : e.Akin m.wrapping e' → e.Alike m e'
  | .inside same => .inside same.sameForm

theorem Expr.SameRule.sameForm {e e' : Expr} : e.SameRule m.wrapping e' → e.SameForm m e'
  | .name text => .name text
  | .string value => .string value
  | .number value => .number value
  | .constant => .constant
  | .template head akin => .template head akin.alike
  | .array akin => .array akin.alike
  | .object matched akin => .object matched akin.alike
  | .member objects keys => .member objects.alike keys.alike
  | .call requires callees akin => .call requires callees.alike akin.alike
  | .keywordCall akin => .keywordCall akin.alike
  | .assign plain targets values => .assign plain targets.alike values.alike
  | .function name bodies => .function name bodies.alike
  | .arrow patterns bodies => .arrow patterns.alike bodies.alike
  | .class name akin => .class name akin.alike
  | .markup => .markup
  | .operation akin => .operation akin.alike

theorem ExprsAkin.alike {es es' : List Expr} : ExprsAkin m.wrapping es es' → ExprsAlike m es es'
  | .nil => .nil
  | .cons first others => .cons first.alike others.alike

theorem OptionAkin.alike {e e' : Option Expr} :
    OptionAkin m.wrapping e e' → OptionAlike m e e'
  | .none => .none
  | .some akin => .some akin.alike

theorem Element.Akin.alike {element element' : Element} :
    element.Akin m.wrapping element' → element.Alike m element'
  | .hole => .hole
  | .item akin => .item akin.alike
  | .spread akin => .spread akin.alike

theorem ElementsAkin.alike {elements elements' : List Element} :
    ElementsAkin m.wrapping elements elements' → ElementsAlike m elements elements'
  | .nil => .nil
  | .cons first others => .cons first.alike others.alike

theorem Property.Akin.alike {property property' : Property} :
    property.Akin m.wrapping property' → property.Alike m property'
  | .pair described keys akin => .pair described keys.alike akin.alike
  | .shorthand name described => .shorthand name described
  | .spread akin => .spread akin.alike
  | .method keys bodies => .method keys.alike bodies.alike
  | .getter keys bodies => .getter keys.alike bodies.alike
  | .setter keys parameters bodies =>
    .setter keys.alike parameters.alike bodies.alike
  | .defaulted name akin => .defaulted name akin.alike

theorem PropertiesAkin.alike {properties properties' : List Property} :
    PropertiesAkin m.wrapping properties properties' → PropertiesAlike m properties properties'
  | .nil => .nil
  | .cons first others => .cons first.alike others.alike

theorem Key.Akin.alike {place : KeyPlace} {key key' : Key} :
    key.Akin m.wrapping place key' → key.Alike m key'
  | .name text => .name text
  | .string value => .string value
  | .number value => .number value
  | .bigInteger => .bigInteger
  | .computed akin => .computed akin.alike
  | .privateName text => .privateName text
  | .respelled respells _ _ => respells.elim

theorem Class.Akin.alike {definition definition' : Class} :
    definition.Akin m.wrapping definition' → definition.Alike m definition'
  | .mk bases akin => .mk bases.alike akin.alike

theorem ClassMember.Akin.alike {member member' : ClassMember} :
    member.Akin m.wrapping member' → member.Alike m member'
  | .field isStatic keys akin => .field isStatic keys.alike akin.alike
  | .method isStatic keys bodies => .method isStatic keys.alike bodies.alike
  | .getter isStatic keys bodies => .getter isStatic keys.alike bodies.alike
  | .setter isStatic keys => .setter isStatic keys.alike
  | .other => .other

theorem MembersAkin.alike {members members' : List ClassMember} :
    MembersAkin m.wrapping members members' → MembersAlike m members members'
  | .nil => .nil
  | .cons first others => .cons first.alike others.alike

theorem Stmt.Akin.alike {statement statement' : Stmt} :
    statement.Akin m.wrapping statement' → statement.Alike m statement'
  | .expr akin => .expr akin.alike
  | .return akin => .return akin.alike
  | .decl akin => .decl akin.alike
  | .compound targets akin bodies => .compound targets.alike akin.alike bodies.alike

theorem StmtsAkin.alike {body body' : List Stmt} :
    StmtsAkin m.wrapping body body' → StmtsAlike m body body'
  | .nil => .nil
  | .cons first others => .cons first.alike others.alike

theorem Decl.Akin.alike {declaration declaration' : Decl} :
    declaration.Akin m.wrapping declaration' → declaration.Alike m declaration'
  | .class name akin => .class name akin.alike
  | .function name bodies => .function name bodies.alike
  | .declared akin => .declared akin.alike
  | .other akin => .other akin.alike

theorem Declarator.Akin.alike {declarator declarator' : Declarator} :
    declarator.Akin m.wrapping declarator' → declarator.Alike m declarator'
  | .mk targets akin => .mk targets.alike akin.alike

theorem DeclaratorsAkin.alike {declarators declarators' : List Declarator} :
    DeclaratorsAkin m.wrapping declarators declarators' →
      DeclaratorsAlike m declarators declarators'
  | .nil => .nil
  | .cons first others => .cons first.alike others.alike

theorem Pattern.Akin.alike {binding : Bool} {pattern pattern' : Pattern} :
    Pattern.Akin m.wrapping binding pattern pattern' → Pattern.Alike m binding pattern pattern'
  | .name text => .name text
  | .wrappedName same => .wrappedName same
  | .unwrappedName same => .unwrappedName same
  | .expr akin => .expr akin.alike
  | .object akin => .object akin.alike
  | .array akin => .array akin.alike
  | .defaulted targets akin => .defaulted targets.alike akin.alike
  | .rest targets => .rest targets.alike

theorem PatternsAkin.alike {binding : Bool} {patterns patterns' : List Pattern} :
    PatternsAkin m.wrapping binding patterns patterns' →
      PatternsAlike m binding patterns patterns'
  | .nil => .nil
  | .cons first others => .cons first.alike others.alike

theorem Field.Akin.alike {binding : Bool} {field field' : Field} :
    Field.Akin m.wrapping binding field field' → Field.Alike m binding field field'
  | .shorthand name akin => .shorthand name akin.alike
  | .pair keys targets => .pair keys.alike targets.alike
  | .rest targets => .rest targets.alike

theorem FieldsAkin.alike {binding : Bool} {fields fields' : List Field} :
    FieldsAkin m.wrapping binding fields fields' → FieldsAlike m binding fields fields'
  | .nil => .nil
  | .cons first others => .cons first.alike others.alike

end

end Syntax

end PropCatalog
