import PropCatalog.Syntax.Tree

/-! Equality of syntax trees, which can be decided: two nodes are equal when they have the same form
at the same place with equal parts. -/

namespace PropCatalog.Syntax

mutual

/-- Whether two expressions are equal. -/
def Expr.same : Expr → Expr → Bool
  | .name span text, .name span' text' => span = span' && text = text'
  | .string span value, .string span' value' => span = span' && value = value'
  | .number span value, .number span' value' => span = span' && value = value'
  | .constant span, .constant span' => span = span'
  | .template span head holes, .template span' head' holes' =>
    span = span' && head = head' && sameExprs holes holes'
  | .array span elements, .array span' elements' => span = span' && sameElements elements elements'
  | .object span properties, .object span' properties' =>
    span = span' && sameProperties properties properties'
  | .member span object key, .member span' object' key' =>
    span = span' && object.same object' && key.same key'
  | .call span callee arguments, .call span' callee' arguments' =>
    span = span' && callee.same callee' && sameElements arguments arguments'
  | .keywordCall span arguments, .keywordCall span' arguments' =>
    span = span' && sameElements arguments arguments'
  | .assign span plain target value, .assign span' plain' target' value' =>
    span = span' && plain = plain' && target.same target' && value.same value'
  | .wrapped span wrapper inner, .wrapped span' wrapper' inner' =>
    span = span' && wrapper = wrapper' && inner.same inner'
  | .function span name body, .function span' name' body' =>
    span = span' && name = name' && sameStmts body body'
  | .arrow span parameters body, .arrow span' parameters' body' =>
    span = span' && samePatterns parameters parameters' && sameStmts body body'
  | .class span name definition, .class span' name' definition' =>
    span = span' && name = name' && definition.same definition'
  | .markup span, .markup span' => span = span'
  | .operation span operands, .operation span' operands' =>
    span = span' && sameExprs operands operands'
  | _, _ => false

def sameExprs : List Expr → List Expr → Bool
  | [], [] => true
  | e :: rest, e' :: rest' => e.same e' && sameExprs rest rest'
  | _, _ => false

def sameOption : Option Expr → Option Expr → Bool
  | none, none => true
  | some e, some e' => e.same e'
  | _, _ => false

/-- Whether two elements of lists are equal. -/
def Element.same : Element → Element → Bool
  | .hole, .hole => true
  | .item value, .item value' | .spread value, .spread value' => value.same value'
  | _, _ => false

def sameElements : List Element → List Element → Bool
  | [], [] => true
  | element :: rest, element' :: rest' => element.same element' && sameElements rest rest'
  | _, _ => false

/-- Whether two properties are equal. -/
def Property.same : Property → Property → Bool
  | .pair start key value, .pair start' key' value' =>
    start = start' && key.same key' && value.same value'
  | .shorthand span name, .shorthand span' name' => span = span' && name = name'
  | .spread value, .spread value' => value.same value'
  | .method start key body, .method start' key' body'
  | .getter start key body, .getter start' key' body' =>
    start = start' && key.same key' && sameStmts body body'
  | .setter start key parameter body, .setter start' key' parameter' body' =>
    start = start' && key.same key' && parameter.same parameter' && sameStmts body body'
  | .defaulted start name value, .defaulted start' name' value' =>
    start = start' && name = name' && value.same value'
  | _, _ => false

def sameProperties : List Property → List Property → Bool
  | [], [] => true
  | property :: rest, property' :: rest' => property.same property' && sameProperties rest rest'
  | _, _ => false

/-- Whether two keys are equal. -/
def Key.same : Key → Key → Bool
  | .name text, .name text' => text = text'
  | .string value, .string value' => value = value'
  | .number value, .number value' => value = value'
  | .bigInteger, .bigInteger => true
  | .computed value, .computed value' => value.same value'
  | .privateName text, .privateName text' => text = text'
  | _, _ => false

/-- Whether two classes are equal. -/
def Class.same : Class → Class → Bool
  | .mk superClass members, .mk superClass' members' =>
    sameOption superClass superClass' && sameMembers members members'

/-- Whether two class members are equal. -/
def ClassMember.same : ClassMember → ClassMember → Bool
  | .field isStatic key value, .field isStatic' key' value' =>
    isStatic = isStatic' && key.same key' && sameOption value value'
  | .method isStatic key body, .method isStatic' key' body'
  | .getter isStatic key body, .getter isStatic' key' body' =>
    isStatic = isStatic' && key.same key' && sameStmts body body'
  | .setter isStatic key, .setter isStatic' key' => isStatic = isStatic' && key.same key'
  | .other, .other => true
  | _, _ => false

def sameMembers : List ClassMember → List ClassMember → Bool
  | [], [] => true
  | member :: rest, member' :: rest' => member.same member' && sameMembers rest rest'
  | _, _ => false

/-- Whether two statements are equal. -/
def Stmt.same : Stmt → Stmt → Bool
  | .expr span value, .expr span' value' => span = span' && value.same value'
  | .return span value, .return span' value' => span = span' && sameOption value value'
  | .decl span declaration, .decl span' declaration' =>
    span = span' && declaration.same declaration'
  | .compound span patterns operands body, .compound span' patterns' operands' body' =>
    span = span' && samePatterns patterns patterns' && sameExprs operands operands' &&
      sameStmts body body'
  | _, _ => false

def sameStmts : List Stmt → List Stmt → Bool
  | [], [] => true
  | statement :: rest, statement' :: rest' => statement.same statement' && sameStmts rest rest'
  | _, _ => false

/-- Whether two declarations are equal. -/
def Decl.same : Decl → Decl → Bool
  | .class name definition, .class name' definition' => name = name' && definition.same definition'
  | .function name body, .function name' body' => name = name' && sameStmts body body'
  | .variables declarators, .variables declarators' => sameDeclarators declarators declarators'
  | .other operands, .other operands' => sameExprs operands operands'
  | _, _ => false

/-- Whether two declared variables are equal. -/
def Declarator.same : Declarator → Declarator → Bool
  | .mk pattern value, .mk pattern' value' => pattern.same pattern' && sameOption value value'

def sameDeclarators : List Declarator → List Declarator → Bool
  | [], [] => true
  | declarator :: rest, declarator' :: rest' =>
    declarator.same declarator' && sameDeclarators rest rest'
  | _, _ => false

/-- Whether two patterns are equal. -/
def Pattern.same : Pattern → Pattern → Bool
  | .name text, .name text' => text = text'
  | .object fields, .object fields' => sameFields fields fields'
  | .array elements, .array elements' => samePatterns elements elements'
  | .defaulted target value, .defaulted target' value' =>
    target.same target' && value.same value'
  | .rest target, .rest target' => target.same target'
  | .expr value, .expr value' => value.same value'
  | _, _ => false

def samePatterns : List Pattern → List Pattern → Bool
  | [], [] => true
  | pattern :: others, pattern' :: others' => pattern.same pattern' && samePatterns others others'
  | _, _ => false

/-- Whether two fields of object patterns are equal. -/
def Field.same : Field → Field → Bool
  | .shorthand name value, .shorthand name' value' => name = name' && sameOption value value'
  | .pair key target, .pair key' target' => key.same key' && target.same target'
  | .rest target, .rest target' => target.same target'
  | _, _ => false

def sameFields : List Field → List Field → Bool
  | [], [] => true
  | field :: others, field' :: others' => field.same field' && sameFields others others'
  | _, _ => false

end

mutual

-- Nodes of different forms fail at once, and those of one form are compared part by part; the
-- induction is the recursion of the comparison.

/-- Two expressions pass the comparison exactly when they are equal. -/
theorem Expr.same_iff : ∀ e e' : Expr, e.same e' = true ↔ e = e'
  | .name _ _, e' => by cases e' <;> simp [Expr.same]
  | .string _ _, e' => by cases e' <;> simp [Expr.same]
  | .number _ _, e' => by cases e' <;> simp [Expr.same]
  | .constant _, e' => by cases e' <;> simp [Expr.same]
  | .template _ _ holes, e' => by cases e' <;> simp [Expr.same, sameExprs_iff holes, and_assoc]
  | .array _ elements, e' => by cases e' <;> simp [Expr.same, sameElements_iff elements]
  | .object _ properties, e' => by cases e' <;> simp [Expr.same, sameProperties_iff properties]
  | .member _ object key, e' => by
    cases e' <;> simp [Expr.same, Expr.same_iff object, Key.same_iff key, and_assoc]
  | .call _ callee arguments, e' => by
    cases e' <;> simp [Expr.same, Expr.same_iff callee, sameElements_iff arguments, and_assoc]
  | .keywordCall _ arguments, e' => by
    cases e' <;> simp [Expr.same, sameElements_iff arguments]
  | .assign _ _ target value, e' => by
    cases e' <;> simp [Expr.same, Pattern.same_iff target, Expr.same_iff value, and_assoc]
  | .wrapped _ _ inner, e' => by cases e' <;> simp [Expr.same, Expr.same_iff inner, and_assoc]
  | .function _ _ body, e' => by cases e' <;> simp [Expr.same, sameStmts_iff body, and_assoc]
  | .arrow _ parameters body, e' => by
    cases e' <;> simp [Expr.same, samePatterns_iff parameters, sameStmts_iff body, and_assoc]
  | .class _ _ definition, e' => by
    cases e' <;> simp [Expr.same, Class.same_iff definition, and_assoc]
  | .markup _, e' => by cases e' <;> simp [Expr.same]
  | .operation _ operands, e' => by cases e' <;> simp [Expr.same, sameExprs_iff operands]

theorem sameExprs_iff : ∀ es es' : List Expr, sameExprs es es' = true ↔ es = es'
  | [], es' => by cases es' <;> simp [sameExprs]
  | e :: rest, es' => by
    cases es' <;> simp [sameExprs, Expr.same_iff e, sameExprs_iff rest]

theorem sameOption_iff : ∀ e e' : Option Expr, sameOption e e' = true ↔ e = e'
  | none, e' => by cases e' <;> simp [sameOption]
  | some e, e' => by cases e' <;> simp [sameOption, Expr.same_iff e]

/-- The comparison of elements is equality. -/
theorem Element.same_iff : ∀ e e' : Element, e.same e' = true ↔ e = e'
  | .hole, e' => by cases e' <;> simp [Element.same]
  | .item value, e' => by cases e' <;> simp [Element.same, Expr.same_iff value]
  | .spread value, e' => by cases e' <;> simp [Element.same, Expr.same_iff value]

theorem sameElements_iff : ∀ es es' : List Element, sameElements es es' = true ↔ es = es'
  | [], es' => by cases es' <;> simp [sameElements]
  | e :: rest, es' => by
    cases es' <;> simp [sameElements, Element.same_iff e, sameElements_iff rest]

/-- The comparison of properties is equality. -/
theorem Property.same_iff : ∀ p p' : Property, p.same p' = true ↔ p = p'
  | .pair _ key value, p' => by
    cases p' <;> simp [Property.same, Key.same_iff key, Expr.same_iff value, and_assoc]
  | .shorthand _ _, p' => by cases p' <;> simp [Property.same]
  | .spread value, p' => by cases p' <;> simp [Property.same, Expr.same_iff value]
  | .method _ key body, p' => by
    cases p' <;> simp [Property.same, Key.same_iff key, sameStmts_iff body, and_assoc]
  | .getter _ key body, p' => by
    cases p' <;> simp [Property.same, Key.same_iff key, sameStmts_iff body, and_assoc]
  | .setter _ key parameter body, p' => by
    cases p' <;>
      simp [Property.same, Key.same_iff key, Pattern.same_iff parameter, sameStmts_iff body,
        and_assoc]
  | .defaulted _ _ value, p' => by
    cases p' <;> simp [Property.same, Expr.same_iff value, and_assoc]

theorem sameProperties_iff : ∀ ps ps' : List Property, sameProperties ps ps' = true ↔ ps = ps'
  | [], ps' => by cases ps' <;> simp [sameProperties]
  | p :: rest, ps' => by
    cases ps' <;> simp [sameProperties, Property.same_iff p, sameProperties_iff rest]

/-- The comparison of keys is equality. -/
theorem Key.same_iff : ∀ k k' : Key, k.same k' = true ↔ k = k'
  | .name _, k' => by cases k' <;> simp [Key.same]
  | .string _, k' => by cases k' <;> simp [Key.same]
  | .number _, k' => by cases k' <;> simp [Key.same]
  | .bigInteger, k' => by cases k' <;> simp [Key.same]
  | .computed value, k' => by cases k' <;> simp [Key.same, Expr.same_iff value]
  | .privateName _, k' => by cases k' <;> simp [Key.same]

/-- The comparison of classes is equality. -/
theorem Class.same_iff : ∀ c c' : Class, c.same c' = true ↔ c = c'
  | .mk superClass members, .mk _ _ => by
    simp [Class.same, sameOption_iff superClass, sameMembers_iff members]

/-- The comparison of class members is equality. -/
theorem ClassMember.same_iff : ∀ m m' : ClassMember, m.same m' = true ↔ m = m'
  | .field _ key value, m' => by
    cases m' <;> simp [ClassMember.same, Key.same_iff key, sameOption_iff value, and_assoc]
  | .method _ key body, m' => by
    cases m' <;> simp [ClassMember.same, Key.same_iff key, sameStmts_iff body, and_assoc]
  | .getter _ key body, m' => by
    cases m' <;> simp [ClassMember.same, Key.same_iff key, sameStmts_iff body, and_assoc]
  | .setter _ key, m' => by cases m' <;> simp [ClassMember.same, Key.same_iff key]
  | .other, m' => by cases m' <;> simp [ClassMember.same]

theorem sameMembers_iff : ∀ ms ms' : List ClassMember, sameMembers ms ms' = true ↔ ms = ms'
  | [], ms' => by cases ms' <;> simp [sameMembers]
  | m :: rest, ms' => by
    cases ms' <;> simp [sameMembers, ClassMember.same_iff m, sameMembers_iff rest]

/-- The comparison of statements is equality. -/
theorem Stmt.same_iff : ∀ s s' : Stmt, s.same s' = true ↔ s = s'
  | .expr _ value, s' => by cases s' <;> simp [Stmt.same, Expr.same_iff value]
  | .return _ value, s' => by cases s' <;> simp [Stmt.same, sameOption_iff value]
  | .decl _ declaration, s' => by cases s' <;> simp [Stmt.same, Decl.same_iff declaration]
  | .compound _ patterns operands body, s' => by
    cases s' <;>
      simp [Stmt.same, samePatterns_iff patterns, sameExprs_iff operands, sameStmts_iff body,
        and_assoc]

theorem sameStmts_iff : ∀ ss ss' : List Stmt, sameStmts ss ss' = true ↔ ss = ss'
  | [], ss' => by cases ss' <;> simp [sameStmts]
  | s :: rest, ss' => by
    cases ss' <;> simp [sameStmts, Stmt.same_iff s, sameStmts_iff rest]

/-- The comparison of declarations is equality. -/
theorem Decl.same_iff : ∀ d d' : Decl, d.same d' = true ↔ d = d'
  | .class _ definition, d' => by cases d' <;> simp [Decl.same, Class.same_iff definition]
  | .function _ body, d' => by cases d' <;> simp [Decl.same, sameStmts_iff body]
  | .variables declarators, d' => by
    cases d' <;> simp [Decl.same, sameDeclarators_iff declarators]
  | .other operands, d' => by cases d' <;> simp [Decl.same, sameExprs_iff operands]

/-- The comparison of declared variables is equality. -/
theorem Declarator.same_iff : ∀ d d' : Declarator, d.same d' = true ↔ d = d'
  | .mk pattern value, .mk _ _ => by
    simp [Declarator.same, Pattern.same_iff pattern, sameOption_iff value]

theorem sameDeclarators_iff :
    ∀ ds ds' : List Declarator, sameDeclarators ds ds' = true ↔ ds = ds'
  | [], ds' => by cases ds' <;> simp [sameDeclarators]
  | d :: rest, ds' => by
    cases ds' <;> simp [sameDeclarators, Declarator.same_iff d, sameDeclarators_iff rest]

/-- The comparison of patterns is equality. -/
theorem Pattern.same_iff : ∀ p p' : Pattern, p.same p' = true ↔ p = p'
  | .name _, p' => by cases p' <;> simp [Pattern.same]
  | .object fields, p' => by cases p' <;> simp [Pattern.same, sameFields_iff fields]
  | .array elements, p' => by cases p' <;> simp [Pattern.same, samePatterns_iff elements]
  | .defaulted target value, p' => by
    cases p' <;> simp [Pattern.same, Pattern.same_iff target, Expr.same_iff value]
  | .rest target, p' => by cases p' <;> simp [Pattern.same, Pattern.same_iff target]
  | .expr value, p' => by cases p' <;> simp [Pattern.same, Expr.same_iff value]

theorem samePatterns_iff : ∀ ps ps' : List Pattern, samePatterns ps ps' = true ↔ ps = ps'
  | [], ps' => by cases ps' <;> simp [samePatterns]
  | p :: others, ps' => by
    cases ps' <;> simp [samePatterns, Pattern.same_iff p, samePatterns_iff others]

/-- The comparison of fields is equality. -/
theorem Field.same_iff : ∀ f f' : Field, f.same f' = true ↔ f = f'
  | .shorthand _ value, f' => by cases f' <;> simp [Field.same, sameOption_iff value]
  | .pair key target, f' => by
    cases f' <;> simp [Field.same, Key.same_iff key, Pattern.same_iff target]
  | .rest target, f' => by cases f' <;> simp [Field.same, Pattern.same_iff target]

theorem sameFields_iff : ∀ fs fs' : List Field, sameFields fs fs' = true ↔ fs = fs'
  | [], fs' => by cases fs' <;> simp [sameFields]
  | f :: others, fs' => by
    cases fs' <;> simp [sameFields, Field.same_iff f, sameFields_iff others]

end

instance : DecidableEq Expr := fun e e' => decidable_of_iff _ (Expr.same_iff e e')

instance : DecidableEq Property := fun p p' => decidable_of_iff _ (Property.same_iff p p')

end PropCatalog.Syntax
