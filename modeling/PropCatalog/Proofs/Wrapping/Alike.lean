import PropCatalog.Proofs.Kinship.Matching

/-! Syntax trees of two source files that differ in wrappers and in places only. Object literals are
told apart by their places, so it is said which of them correspond. -/

namespace PropCatalog

open Syntax

variable {file other : SourceFile}

namespace Syntax

variable (m : Matching file other)

mutual

/-- Two expressions are alike when they have the same form inside of wrappers. -/
inductive Expr.Alike : Expr → Expr → Prop
  | inside {e e' : Expr} (same : Expr.SameForm e.unwrap e'.unwrap) : Expr.Alike e e'

/-- Two expressions have the same form when one rule of the grammar makes both of parts that are
alike. -/
inductive Expr.SameForm : Expr → Expr → Prop
  | name {span span' : Span} (text : String) : Expr.SameForm (.name span text) (.name span' text)
  | string {span span' : Span} (value : String) :
    Expr.SameForm (.string span value) (.string span' value)
  | number {span span' : Span} (value : Number.Double) :
    Expr.SameForm (.number span value) (.number span' value)
  | constant {span span' : Span} : Expr.SameForm (.constant span) (.constant span')
  | template {span span' : Span} (head : Option String) {holes holes' : List Expr}
    (alike : ExprsAlike holes holes') :
    Expr.SameForm (.template span head holes) (.template span' head holes')
  | array {span span' : Span} {elements elements' : List Element}
    (alike : ElementsAlike elements elements') :
    Expr.SameForm (.array span elements) (.array span' elements')
  | object {span span' : Span} {properties properties' : List Property}
    (corresponds : m.literal ⟨span, properties⟩ ⟨span', properties'⟩)
    (alike : PropertiesAlike properties properties') :
    Expr.SameForm (.object span properties) (.object span' properties')
  | member {span span' : Span} {object object' : Expr} {key key' : Key}
    (objects : Expr.Alike object object') (keys : Key.Alike key key') :
    Expr.SameForm (.member span object key) (.member span' object' key')
  -- Where `require` is called, wrappers stand around it in both or in none.
  | call {span span' : Span} {callee callee' : Expr} {arguments arguments' : List Element}
    (requires : callee.isRequire = callee'.isRequire) (callees : Expr.Alike callee callee')
    (alike : ElementsAlike arguments arguments') :
    Expr.SameForm (.call span callee arguments) (.call span' callee' arguments')
  | keywordCall {span span' : Span} {arguments arguments' : List Element}
    (alike : ElementsAlike arguments arguments') :
    Expr.SameForm (.keywordCall span arguments) (.keywordCall span' arguments')
  | assign {span span' : Span} (plain : Bool) {target target' : Pattern} {value value' : Expr}
    (targets : Pattern.Alike false target target') (values : Expr.Alike value value') :
    Expr.SameForm (.assign span plain target value) (.assign span' plain target' value')
  | function {span span' : Span} (name : Option String) {body body' : List Stmt}
    (bodies : StmtsAlike body body') :
    Expr.SameForm (.function span name body) (.function span' name body')
  | arrow {span span' : Span} {parameters parameters' : List Pattern} {body body' : List Stmt}
    (patterns : PatternsAlike false parameters parameters') (bodies : StmtsAlike body body') :
    Expr.SameForm (.arrow span parameters body) (.arrow span' parameters' body')
  | class {span span' : Span} (name : Option String) {definition definition' : Class}
    (alike : Class.Alike definition definition') :
    Expr.SameForm (.class span name definition) (.class span' name definition')
  | markup {span span' : Span} : Expr.SameForm (.markup span) (.markup span')
  | operation {span span' : Span} {operands operands' : List Expr}
    (alike : ExprsAlike operands operands') :
    Expr.SameForm (.operation span operands) (.operation span' operands')

inductive ExprsAlike : List Expr → List Expr → Prop
  | nil : ExprsAlike [] []
  | cons {e e' : Expr} {rest rest' : List Expr} (first : Expr.Alike e e')
    (others : ExprsAlike rest rest') : ExprsAlike (e :: rest) (e' :: rest')

inductive OptionAlike : Option Expr → Option Expr → Prop
  | none : OptionAlike none none
  | some {e e' : Expr} (alike : Expr.Alike e e') : OptionAlike (some e) (some e')

/-- Two elements of lists are alike when their values are. -/
inductive Element.Alike : Element → Element → Prop
  | hole : Element.Alike .hole .hole
  | item {e e' : Expr} (alike : Expr.Alike e e') : Element.Alike (.item e) (.item e')
  | spread {e e' : Expr} (alike : Expr.Alike e e') : Element.Alike (.spread e) (.spread e')

inductive ElementsAlike : List Element → List Element → Prop
  | nil : ElementsAlike [] []
  | cons {element element' : Element} {rest rest' : List Element}
    (first : Element.Alike element element') (others : ElementsAlike rest rest') :
    ElementsAlike (element :: rest) (element' :: rest')

/-- Two properties are alike when they have the same form with parts that are alike. Those that
declare props have the same description in front of them. -/
inductive Property.Alike : Property → Property → Prop
  | pair {start start' : Nat} {key key' : Key} {e e' : Expr} (described : m.Described start start')
    (keys : Key.Alike key key') (alike : Expr.Alike e e') :
    Property.Alike (.pair start key e) (.pair start' key' e')
  | shorthand {span span' : Span} (name : String) (described : m.Described span.lo span'.lo) :
    Property.Alike (.shorthand span name) (.shorthand span' name)
  | spread {e e' : Expr} (alike : Expr.Alike e e') : Property.Alike (.spread e) (.spread e')
  | method {start start' : Nat} {key key' : Key} {body body' : List Stmt}
    (keys : Key.Alike key key') (bodies : StmtsAlike body body') :
    Property.Alike (.method start key body) (.method start' key' body')
  | getter {start start' : Nat} {key key' : Key} {body body' : List Stmt}
    (keys : Key.Alike key key') (bodies : StmtsAlike body body') :
    Property.Alike (.getter start key body) (.getter start' key' body')
  | setter {start start' : Nat} {key key' : Key} {parameter parameter' : Pattern}
    {body body' : List Stmt} (keys : Key.Alike key key')
    (parameters : Pattern.Alike false parameter parameter') (bodies : StmtsAlike body body') :
    Property.Alike (.setter start key parameter body) (.setter start' key' parameter' body')
  | defaulted {start start' : Nat} (name : String) {e e' : Expr} (alike : Expr.Alike e e') :
    Property.Alike (.defaulted start name e) (.defaulted start' name e')

inductive PropertiesAlike : List Property → List Property → Prop
  | nil : PropertiesAlike [] []
  | cons {property property' : Property} {rest rest' : List Property}
    (first : Property.Alike property property') (others : PropertiesAlike rest rest') :
    PropertiesAlike (property :: rest) (property' :: rest')

/-- Two keys are alike when they spell the same or hold expressions that are alike. -/
inductive Key.Alike : Key → Key → Prop
  | name (text : String) : Key.Alike (.name text) (.name text)
  | string (value : String) : Key.Alike (.string value) (.string value)
  | number (value : Number.Double) : Key.Alike (.number value) (.number value)
  | bigInteger : Key.Alike .bigInteger .bigInteger
  | computed {e e' : Expr} (alike : Expr.Alike e e') : Key.Alike (.computed e) (.computed e')
  | privateName (text : String) : Key.Alike (.privateName text) (.privateName text)

/-- Two classes are alike when their base classes and their members are. -/
inductive Class.Alike : Class → Class → Prop
  | mk {base base' : Option Expr} {members members' : List ClassMember}
    (bases : OptionAlike base base') (alike : MembersAlike members members') :
    Class.Alike (.mk base members) (.mk base' members')

/-- Two class members are alike when they have the same form with parts that are alike. -/
inductive ClassMember.Alike : ClassMember → ClassMember → Prop
  | field (isStatic : Bool) {key key' : Key} {e e' : Option Expr} (keys : Key.Alike key key')
    (alike : OptionAlike e e') : ClassMember.Alike (.field isStatic key e) (.field isStatic key' e')
  | method (isStatic : Bool) {key key' : Key} {body body' : List Stmt} (keys : Key.Alike key key')
    (bodies : StmtsAlike body body') :
    ClassMember.Alike (.method isStatic key body) (.method isStatic key' body')
  | getter (isStatic : Bool) {key key' : Key} {body body' : List Stmt} (keys : Key.Alike key key')
    (bodies : StmtsAlike body body') :
    ClassMember.Alike (.getter isStatic key body) (.getter isStatic key' body')
  | setter (isStatic : Bool) {key key' : Key} (keys : Key.Alike key key') :
    ClassMember.Alike (.setter isStatic key) (.setter isStatic key')
  | other : ClassMember.Alike .other .other

inductive MembersAlike : List ClassMember → List ClassMember → Prop
  | nil : MembersAlike [] []
  | cons {member member' : ClassMember} {rest rest' : List ClassMember}
    (first : ClassMember.Alike member member') (others : MembersAlike rest rest') :
    MembersAlike (member :: rest) (member' :: rest')

/-- Two statements are alike when they have the same form with parts that are alike. -/
inductive Stmt.Alike : Stmt → Stmt → Prop
  | expr {span span' : Span} {e e' : Expr} (alike : Expr.Alike e e') :
    Stmt.Alike (.expr span e) (.expr span' e')
  | return {span span' : Span} {e e' : Option Expr} (alike : OptionAlike e e') :
    Stmt.Alike (.return span e) (.return span' e')
  | decl {span span' : Span} {declaration declaration' : Decl}
    (alike : Decl.Alike declaration declaration') :
    Stmt.Alike (.decl span declaration) (.decl span' declaration')
  | compound {span span' : Span} {patterns patterns' : List Pattern}
    {operands operands' : List Expr} {body body' : List Stmt}
    (targets : PatternsAlike false patterns patterns') (alike : ExprsAlike operands operands')
    (bodies : StmtsAlike body body') :
    Stmt.Alike (.compound span patterns operands body) (.compound span' patterns' operands' body')

inductive StmtsAlike : List Stmt → List Stmt → Prop
  | nil : StmtsAlike [] []
  | cons {statement statement' : Stmt} {rest rest' : List Stmt}
    (first : Stmt.Alike statement statement') (others : StmtsAlike rest rest') :
    StmtsAlike (statement :: rest) (statement' :: rest')

/-- Two declarations are alike when they declare the same names with parts that are alike. -/
inductive Decl.Alike : Decl → Decl → Prop
  | class (name : String) {definition definition' : Class}
    (alike : Class.Alike definition definition') :
    Decl.Alike (.class name definition) (.class name definition')
  | function (name : String) {body body' : List Stmt} (bodies : StmtsAlike body body') :
    Decl.Alike (.function name body) (.function name body')
  | declared {declarators declarators' : List Declarator}
    (alike : DeclaratorsAlike declarators declarators') :
    Decl.Alike (.variables declarators) (.variables declarators')
  | other {operands operands' : List Expr} (alike : ExprsAlike operands operands') :
    Decl.Alike (.other operands) (.other operands')

/-- Two declared variables are alike when they bind the same names and their values are alike. -/
inductive Declarator.Alike : Declarator → Declarator → Prop
  | mk {pattern pattern' : Pattern} {e e' : Option Expr}
    (targets : Pattern.Alike true pattern pattern') (alike : OptionAlike e e') :
    Declarator.Alike (.mk pattern e) (.mk pattern' e')

inductive DeclaratorsAlike : List Declarator → List Declarator → Prop
  | nil : DeclaratorsAlike [] []
  | cons {declarator declarator' : Declarator} {rest rest' : List Declarator}
    (first : Declarator.Alike declarator declarator') (others : DeclaratorsAlike rest rest') :
    DeclaratorsAlike (declarator :: rest) (declarator' :: rest')

/-- Two patterns, that bind names or not, are alike when they have the same form with parts that are
alike. -/
inductive Pattern.Alike : Bool → Pattern → Pattern → Prop
  | name {binding : Bool} (text : String) : Pattern.Alike binding (.name text) (.name text)
  -- With wrappers around it, a name that is assigned to is an expression.
  | wrappedName {span : Span} {text : String} {e : Expr} (same : e.unwrap = .name span text) :
    Pattern.Alike false (.name text) (.expr e)
  | unwrappedName {span : Span} {text : String} {e : Expr} (same : e.unwrap = .name span text) :
    Pattern.Alike false (.expr e) (.name text)
  | expr {binding : Bool} {e e' : Expr} (alike : Expr.Alike e e') :
    Pattern.Alike binding (.expr e) (.expr e')
  | object {binding : Bool} {fields fields' : List Field}
    (alike : FieldsAlike binding fields fields') :
    Pattern.Alike binding (.object fields) (.object fields')
  | array {binding : Bool} {elements elements' : List Pattern}
    (alike : PatternsAlike binding elements elements') :
    Pattern.Alike binding (.array elements) (.array elements')
  | defaulted {binding : Bool} {target target' : Pattern} {e e' : Expr}
    (targets : Pattern.Alike binding target target') (alike : Expr.Alike e e') :
    Pattern.Alike binding (.defaulted target e) (.defaulted target' e')
  | rest {binding : Bool} {target target' : Pattern}
    (targets : Pattern.Alike binding target target') :
    Pattern.Alike binding (.rest target) (.rest target')

inductive PatternsAlike : Bool → List Pattern → List Pattern → Prop
  | nil {binding : Bool} : PatternsAlike binding [] []
  | cons {binding : Bool} {pattern pattern' : Pattern} {rest rest' : List Pattern}
    (first : Pattern.Alike binding pattern pattern') (others : PatternsAlike binding rest rest') :
    PatternsAlike binding (pattern :: rest) (pattern' :: rest')

/-- Two fields of object patterns are alike when they have the same form with parts that are alike.
-/
inductive Field.Alike : Bool → Field → Field → Prop
  | shorthand {binding : Bool} (name : String) {e e' : Option Expr} (alike : OptionAlike e e') :
    Field.Alike binding (.shorthand name e) (.shorthand name e')
  | pair {binding : Bool} {key key' : Key} {target target' : Pattern} (keys : Key.Alike key key')
    (targets : Pattern.Alike binding target target') :
    Field.Alike binding (.pair key target) (.pair key' target')
  | rest {binding : Bool} {target target' : Pattern}
    (targets : Pattern.Alike binding target target') :
    Field.Alike binding (.rest target) (.rest target')

inductive FieldsAlike : Bool → List Field → List Field → Prop
  | nil {binding : Bool} : FieldsAlike binding [] []
  | cons {binding : Bool} {field field' : Field} {rest rest' : List Field}
    (first : Field.Alike binding field field') (others : FieldsAlike binding rest rest') :
    FieldsAlike binding (field :: rest) (field' :: rest')

end

/-- Two items are alike when they have the same form with parts that are alike, and assign alike. -/
inductive Item.Alike : Item → Item → Prop
  | importDecl {span span' : Span} (typeOnly : Bool) (origin : Option String)
    (names : List String) :
    Item.Alike (.importDecl span typeOnly origin names)
      (.importDecl span' typeOnly origin names)
  | exportDecl {span span' : Span} {declaration declaration' : Decl}
    (alike : declaration.Alike m declaration') :
    Item.Alike (.exportDecl span declaration) (.exportDecl span' declaration')
  | exportDefaultClass {span span' : Span} (name : Option String) {definition definition' : Class}
    (alike : definition.Alike m definition') :
    Item.Alike (.exportDefaultClass span name definition)
      (.exportDefaultClass span' name definition')
  | exportDefaultFunction {span span' : Span} (name : Option String) {body body' : List Stmt}
    (bodies : StmtsAlike m body body') :
    Item.Alike (.exportDefaultFunction span name body) (.exportDefaultFunction span' name body')
  | exportDefaultExpr {span span' : Span} {e e' : Expr} (alike : e.Alike m e') :
    Item.Alike (.exportDefaultExpr span e) (.exportDefaultExpr span' e')
  | stmt {statement statement' : Stmt} (alike : statement.Alike m statement')
    (assigns : statement.AssignsAlike statement') : Item.Alike (.stmt statement) (.stmt statement')
  | other {span span' : Span} : Item.Alike (.other span) (.other span')

/-- Two modules are alike when their items are. -/
def Module.Alike (source source' : Module) : Prop :=
  List.Forall₂ (Item.Alike m) source.items source'.items

variable {m} {e e' : Expr}

/-- A wrapper may be put around any expression. -/
theorem Expr.Alike.wrapped (alike : e.Alike m e') (span : Span) (wrapper : Wrapper) :
    e.Alike m (.wrapped span wrapper e') := by
  -- What is inside stays alike.
  obtain ⟨same⟩ := alike
  exact .inside same

end Syntax

end PropCatalog
