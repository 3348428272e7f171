import PropCatalog.Proofs.Kinship.Matching

/-! Syntax trees of two source files that differ in the way they are written: in wrappers, in places
and, where this is allowed, in the spelling of names. -/

namespace PropCatalog.Syntax

variable {file other : SourceFile}

/-- The text of a string. -/
def Expr.string? (e : Expr) : Option String :=
  match e.unwrap with
  | .string _ text => some text
  | _ => none

/-- Where a key stands: in an access, in a property of an object literal, or in a class or pattern,
where the analysis reads no name in brackets. -/
inductive KeyPlace where
  | access
  | property
  | declaration

/-- The text that a key spells at a place, as a name, in quotes or in brackets, where the analysis
reads it. -/
def Key.textAt? : KeyPlace → Key → Option String
  | _, .name text => some text
  | .property, .string text | .declaration, .string text => some text
  | .access, .computed e | .property, .computed e => e.string?
  | _, _ => none

/-- A string is a literal with its text. -/
theorem Expr.literalText?_of_string? {e : Expr} {text : String} (known : e.string? = some text) :
    e.literalText? = some text := by
  -- Only a string is read as one, and it is a literal.
  unfold Expr.string? at known
  unfold Expr.literalText?
  cases unwrapped : e.unwrap with
  | string _ _ =>
    rw [unwrapped] at known
    exact known
  | _ =>
    rw [unwrapped] at known
    cases known

/-- The text that a key spells in a class or pattern is the name that it spells. -/
theorem Key.spelled?_of_textAt? {key : Key} {text : String}
    (spelled : key.textAt? .declaration = some text) : key.spelled? = some text := by
  -- Only names and strings spell anything in a class or pattern.
  cases key with
  | name => exact spelled
  | string => exact spelled
  | _ => cases spelled

/-- The text that a key spells in an access is the name that it spells there. -/
theorem Key.accessed?_of_textAt? {key : Key} {text : String}
    (spelled : key.textAt? .access = some text) : key.accessed? = some text := by
  -- Only names and computed strings spell anything in an access.
  cases key with
  | name => exact spelled
  | computed => exact Expr.literalText?_of_string? spelled
  | _ => cases spelled

variable (k : Kinship file other)

mutual

/-- Two expressions are akin when they have the same form inside of wrappers. -/
inductive Expr.Akin : Expr → Expr → Prop
  | inside {e e' : Expr} (same : Expr.SameRule e.unwrap e'.unwrap) : Expr.Akin e e'

/-- Two expressions have the same form when one rule of the grammar makes both of parts that are
akin. -/
inductive Expr.SameRule : Expr → Expr → Prop
  | name {span span' : Span} (text : String) : Expr.SameRule (.name span text) (.name span' text)
  | string {span span' : Span} (value : String) :
    Expr.SameRule (.string span value) (.string span' value)
  | number {span span' : Span} (value : Number.Double) :
    Expr.SameRule (.number span value) (.number span' value)
  | constant {span span' : Span} : Expr.SameRule (.constant span) (.constant span')
  | template {span span' : Span} (head : Option String) {holes holes' : List Expr}
    (akin : ExprsAkin holes holes') :
    Expr.SameRule (.template span head holes) (.template span' head holes')
  | array {span span' : Span} {elements elements' : List Element}
    (akin : ElementsAkin elements elements') :
    Expr.SameRule (.array span elements) (.array span' elements')
  | object {span span' : Span} {properties properties' : List Property}
    (corresponds : k.literal ⟨span, properties⟩ ⟨span', properties'⟩)
    (akin : PropertiesAkin properties properties') :
    Expr.SameRule (.object span properties) (.object span' properties')
  | member {span span' : Span} {object object' : Expr} {key key' : Key}
    (objects : Expr.Akin object object') (keys : Key.Akin .access key key') :
    Expr.SameRule (.member span object key) (.member span' object' key')
  -- Where `require` is called, wrappers stand around it in both or in none.
  | call {span span' : Span} {callee callee' : Expr} {arguments arguments' : List Element}
    (requires : callee.isRequire = callee'.isRequire) (callees : Expr.Akin callee callee')
    (akin : ElementsAkin arguments arguments') :
    Expr.SameRule (.call span callee arguments) (.call span' callee' arguments')
  | keywordCall {span span' : Span} {arguments arguments' : List Element}
    (akin : ElementsAkin arguments arguments') :
    Expr.SameRule (.keywordCall span arguments) (.keywordCall span' arguments')
  | assign {span span' : Span} (plain : Bool) {target target' : Pattern} {value value' : Expr}
    (targets : Pattern.Akin false target target') (values : Expr.Akin value value') :
    Expr.SameRule (.assign span plain target value) (.assign span' plain target' value')
  | function {span span' : Span} (name : Option String) {body body' : List Stmt}
    (bodies : StmtsAkin body body') :
    Expr.SameRule (.function span name body) (.function span' name body')
  | arrow {span span' : Span} {parameters parameters' : List Pattern} {body body' : List Stmt}
    (patterns : PatternsAkin false parameters parameters') (bodies : StmtsAkin body body') :
    Expr.SameRule (.arrow span parameters body) (.arrow span' parameters' body')
  | class {span span' : Span} (name : Option String) {definition definition' : Class}
    (akin : Class.Akin definition definition') :
    Expr.SameRule (.class span name definition) (.class span' name definition')
  | markup {span span' : Span} : Expr.SameRule (.markup span) (.markup span')
  | operation {span span' : Span} {operands operands' : List Expr}
    (akin : ExprsAkin operands operands') :
    Expr.SameRule (.operation span operands) (.operation span' operands')

inductive ExprsAkin : List Expr → List Expr → Prop
  | nil : ExprsAkin [] []
  | cons {e e' : Expr} {rest rest' : List Expr} (first : Expr.Akin e e')
    (others : ExprsAkin rest rest') : ExprsAkin (e :: rest) (e' :: rest')

inductive OptionAkin : Option Expr → Option Expr → Prop
  | none : OptionAkin none none
  | some {e e' : Expr} (akin : Expr.Akin e e') : OptionAkin (some e) (some e')

/-- Two elements of lists are akin when their values are. -/
inductive Element.Akin : Element → Element → Prop
  | hole : Element.Akin .hole .hole
  | item {e e' : Expr} (akin : Expr.Akin e e') : Element.Akin (.item e) (.item e')
  | spread {e e' : Expr} (akin : Expr.Akin e e') : Element.Akin (.spread e) (.spread e')

inductive ElementsAkin : List Element → List Element → Prop
  | nil : ElementsAkin [] []
  | cons {element element' : Element} {rest rest' : List Element}
    (first : Element.Akin element element') (others : ElementsAkin rest rest') :
    ElementsAkin (element :: rest) (element' :: rest')

/-- Two properties are akin when they have the same form with parts that are akin. Those that
declare props have the same description in front of them. -/
inductive Property.Akin : Property → Property → Prop
  | pair {start start' : Nat} {key key' : Key} {e e' : Expr} (described : k.Described start start')
    (keys : Key.Akin .property key key') (akin : Expr.Akin e e') :
    Property.Akin (.pair start key e) (.pair start' key' e')
  | shorthand {span span' : Span} (name : String) (described : k.Described span.lo span'.lo) :
    Property.Akin (.shorthand span name) (.shorthand span' name)
  | spread {e e' : Expr} (akin : Expr.Akin e e') : Property.Akin (.spread e) (.spread e')
  | method {start start' : Nat} {key key' : Key} {body body' : List Stmt}
    (keys : Key.Akin .property key key') (bodies : StmtsAkin body body') :
    Property.Akin (.method start key body) (.method start' key' body')
  | getter {start start' : Nat} {key key' : Key} {body body' : List Stmt}
    (keys : Key.Akin .property key key') (bodies : StmtsAkin body body') :
    Property.Akin (.getter start key body) (.getter start' key' body')
  | setter {start start' : Nat} {key key' : Key} {parameter parameter' : Pattern}
    {body body' : List Stmt} (keys : Key.Akin .property key key')
    (parameters : Pattern.Akin false parameter parameter') (bodies : StmtsAkin body body') :
    Property.Akin (.setter start key parameter body) (.setter start' key' parameter' body')
  | defaulted {start start' : Nat} (name : String) {e e' : Expr} (akin : Expr.Akin e e') :
    Property.Akin (.defaulted start name e) (.defaulted start' name e')

inductive PropertiesAkin : List Property → List Property → Prop
  | nil : PropertiesAkin [] []
  | cons {property property' : Property} {rest rest' : List Property}
    (first : Property.Akin property property') (others : PropertiesAkin rest rest') :
    PropertiesAkin (property :: rest) (property' :: rest')

/-- Two keys at a place are akin when they spell the same or hold expressions that are akin. Where
names may be respelled, the same text may stand with quotes or in brackets. -/
inductive Key.Akin : KeyPlace → Key → Key → Prop
  | name {place : KeyPlace} (text : String) : Key.Akin place (.name text) (.name text)
  | string {place : KeyPlace} (value : String) : Key.Akin place (.string value) (.string value)
  | number {place : KeyPlace} (value : Number.Double) :
    Key.Akin place (.number value) (.number value)
  | bigInteger {place : KeyPlace} : Key.Akin place .bigInteger .bigInteger
  | computed {place : KeyPlace} {e e' : Expr} (akin : Expr.Akin e e') :
    Key.Akin place (.computed e) (.computed e')
  | privateName {place : KeyPlace} (text : String) :
    Key.Akin place (.privateName text) (.privateName text)
  | respelled {place : KeyPlace} {key key' : Key} {text : String} (respells : k.respells)
    (spelled : key.textAt? place = some text) (spelled' : key'.textAt? place = some text) :
    Key.Akin place key key'

/-- Two classes are akin when their base classes and their members are. -/
inductive Class.Akin : Class → Class → Prop
  | mk {base base' : Option Expr} {members members' : List ClassMember}
    (bases : OptionAkin base base') (akin : MembersAkin members members') :
    Class.Akin (.mk base members) (.mk base' members')

/-- Two class members are akin when they have the same form with parts that are akin. -/
inductive ClassMember.Akin : ClassMember → ClassMember → Prop
  | field (isStatic : Bool) {key key' : Key} {e e' : Option Expr}
    (keys : Key.Akin .declaration key key') (akin : OptionAkin e e') :
    ClassMember.Akin (.field isStatic key e) (.field isStatic key' e')
  | method (isStatic : Bool) {key key' : Key} {body body' : List Stmt}
    (keys : Key.Akin .declaration key key') (bodies : StmtsAkin body body') :
    ClassMember.Akin (.method isStatic key body) (.method isStatic key' body')
  | getter (isStatic : Bool) {key key' : Key} {body body' : List Stmt}
    (keys : Key.Akin .declaration key key') (bodies : StmtsAkin body body') :
    ClassMember.Akin (.getter isStatic key body) (.getter isStatic key' body')
  | setter (isStatic : Bool) {key key' : Key} (keys : Key.Akin .declaration key key') :
    ClassMember.Akin (.setter isStatic key) (.setter isStatic key')
  | other : ClassMember.Akin .other .other

inductive MembersAkin : List ClassMember → List ClassMember → Prop
  | nil : MembersAkin [] []
  | cons {member member' : ClassMember} {rest rest' : List ClassMember}
    (first : ClassMember.Akin member member') (others : MembersAkin rest rest') :
    MembersAkin (member :: rest) (member' :: rest')

/-- Two statements are akin when they have the same form with parts that are akin. -/
inductive Stmt.Akin : Stmt → Stmt → Prop
  | expr {span span' : Span} {e e' : Expr} (akin : Expr.Akin e e') :
    Stmt.Akin (.expr span e) (.expr span' e')
  | return {span span' : Span} {e e' : Option Expr} (akin : OptionAkin e e') :
    Stmt.Akin (.return span e) (.return span' e')
  | decl {span span' : Span} {declaration declaration' : Decl}
    (akin : Decl.Akin declaration declaration') :
    Stmt.Akin (.decl span declaration) (.decl span' declaration')
  | compound {span span' : Span} {patterns patterns' : List Pattern}
    {operands operands' : List Expr} {body body' : List Stmt}
    (targets : PatternsAkin false patterns patterns') (akin : ExprsAkin operands operands')
    (bodies : StmtsAkin body body') :
    Stmt.Akin (.compound span patterns operands body) (.compound span' patterns' operands' body')

inductive StmtsAkin : List Stmt → List Stmt → Prop
  | nil : StmtsAkin [] []
  | cons {statement statement' : Stmt} {rest rest' : List Stmt}
    (first : Stmt.Akin statement statement') (others : StmtsAkin rest rest') :
    StmtsAkin (statement :: rest) (statement' :: rest')

/-- Two declarations are akin when they declare the same names with parts that are akin. -/
inductive Decl.Akin : Decl → Decl → Prop
  | class (name : String) {definition definition' : Class}
    (akin : Class.Akin definition definition') :
    Decl.Akin (.class name definition) (.class name definition')
  | function (name : String) {body body' : List Stmt} (bodies : StmtsAkin body body') :
    Decl.Akin (.function name body) (.function name body')
  | declared {declarators declarators' : List Declarator}
    (akin : DeclaratorsAkin declarators declarators') :
    Decl.Akin (.variables declarators) (.variables declarators')
  | other {operands operands' : List Expr} (akin : ExprsAkin operands operands') :
    Decl.Akin (.other operands) (.other operands')

/-- Two declared variables are akin when they bind the same names and their values are akin. -/
inductive Declarator.Akin : Declarator → Declarator → Prop
  | mk {pattern pattern' : Pattern} {e e' : Option Expr}
    (targets : Pattern.Akin true pattern pattern') (akin : OptionAkin e e') :
    Declarator.Akin (.mk pattern e) (.mk pattern' e')

inductive DeclaratorsAkin : List Declarator → List Declarator → Prop
  | nil : DeclaratorsAkin [] []
  | cons {declarator declarator' : Declarator} {rest rest' : List Declarator}
    (first : Declarator.Akin declarator declarator') (others : DeclaratorsAkin rest rest') :
    DeclaratorsAkin (declarator :: rest) (declarator' :: rest')

/-- Two patterns, that bind names or not, are akin when they have the same form with parts that are
akin. -/
inductive Pattern.Akin : Bool → Pattern → Pattern → Prop
  | name {binding : Bool} (text : String) : Pattern.Akin binding (.name text) (.name text)
  -- With wrappers around it, a name that is assigned to is an expression.
  | wrappedName {span : Span} {text : String} {e : Expr} (same : e.unwrap = .name span text) :
    Pattern.Akin false (.name text) (.expr e)
  | unwrappedName {span : Span} {text : String} {e : Expr} (same : e.unwrap = .name span text) :
    Pattern.Akin false (.expr e) (.name text)
  | expr {binding : Bool} {e e' : Expr} (akin : Expr.Akin e e') :
    Pattern.Akin binding (.expr e) (.expr e')
  | object {binding : Bool} {fields fields' : List Field}
    (akin : FieldsAkin binding fields fields') :
    Pattern.Akin binding (.object fields) (.object fields')
  | array {binding : Bool} {elements elements' : List Pattern}
    (akin : PatternsAkin binding elements elements') :
    Pattern.Akin binding (.array elements) (.array elements')
  | defaulted {binding : Bool} {target target' : Pattern} {e e' : Expr}
    (targets : Pattern.Akin binding target target') (akin : Expr.Akin e e') :
    Pattern.Akin binding (.defaulted target e) (.defaulted target' e')
  | rest {binding : Bool} {target target' : Pattern}
    (targets : Pattern.Akin binding target target') :
    Pattern.Akin binding (.rest target) (.rest target')

inductive PatternsAkin : Bool → List Pattern → List Pattern → Prop
  | nil {binding : Bool} : PatternsAkin binding [] []
  | cons {binding : Bool} {pattern pattern' : Pattern} {rest rest' : List Pattern}
    (first : Pattern.Akin binding pattern pattern') (others : PatternsAkin binding rest rest') :
    PatternsAkin binding (pattern :: rest) (pattern' :: rest')

/-- Two fields of object patterns are akin when they have the same form with parts that are akin.
-/
inductive Field.Akin : Bool → Field → Field → Prop
  | shorthand {binding : Bool} (name : String) {e e' : Option Expr} (akin : OptionAkin e e') :
    Field.Akin binding (.shorthand name e) (.shorthand name e')
  | pair {binding : Bool} {key key' : Key} {target target' : Pattern}
    (keys : Key.Akin .declaration key key') (targets : Pattern.Akin binding target target') :
    Field.Akin binding (.pair key target) (.pair key' target')
  | rest {binding : Bool} {target target' : Pattern}
    (targets : Pattern.Akin binding target target') :
    Field.Akin binding (.rest target) (.rest target')

inductive FieldsAkin : Bool → List Field → List Field → Prop
  | nil {binding : Bool} : FieldsAkin binding [] []
  | cons {binding : Bool} {field field' : Field} {rest rest' : List Field}
    (first : Field.Akin binding field field') (others : FieldsAkin binding rest rest') :
    FieldsAkin binding (field :: rest) (field' :: rest')

end

/-- Two items are akin when they have the same form with parts that are akin, and assign alike. -/
inductive Item.Akin : Item → Item → Prop
  | importDecl {span span' : Span} (typeOnly : Bool) (origin : Option String)
    (names : List String) :
    Item.Akin (.importDecl span typeOnly origin names)
      (.importDecl span' typeOnly origin names)
  | exportDecl {span span' : Span} {declaration declaration' : Decl}
    (akin : declaration.Akin k declaration') :
    Item.Akin (.exportDecl span declaration) (.exportDecl span' declaration')
  | exportDefaultClass {span span' : Span} (name : Option String) {definition definition' : Class}
    (akin : definition.Akin k definition') :
    Item.Akin (.exportDefaultClass span name definition)
      (.exportDefaultClass span' name definition')
  | exportDefaultFunction {span span' : Span} (name : Option String) {body body' : List Stmt}
    (bodies : StmtsAkin k body body') :
    Item.Akin (.exportDefaultFunction span name body) (.exportDefaultFunction span' name body')
  | exportDefaultExpr {span span' : Span} {e e' : Expr} (akin : e.Akin k e') :
    Item.Akin (.exportDefaultExpr span e) (.exportDefaultExpr span' e')
  | stmt {statement statement' : Stmt} (akin : statement.Akin k statement')
    (assigns : statement.AssignsAlike statement') : Item.Akin (.stmt statement) (.stmt statement')
  | other {span span' : Span} : Item.Akin (.other span) (.other span')

/-- Two modules are akin when their items are. -/
def Module.Akin (source source' : Module) : Prop :=
  List.Forall₂ (Item.Akin k) source.items source'.items

variable {k} {e e' : Expr}

/-- Expressions of the same form have no wrappers around them. -/
theorem Expr.SameRule.unwrap_eq (same : e.SameRule k e') : e.unwrap = e ∧ e'.unwrap = e' := by
  -- No rule is about a wrapper.
  cases same <;> exact ⟨rfl, rfl⟩

/-- Expressions of the same form are akin. -/
theorem Expr.SameRule.akin (same : e.SameRule k e') : e.Akin k e' := by
  -- An expression of this form has no wrappers to take off.
  refine ⟨?_⟩
  rw [same.unwrap_eq.1, same.unwrap_eq.2]
  exact same

/-- Where no wrappers hide them, assignments to members that are akin have objects, keys and values
that are akin. -/
theorem Expr.Akin.of_assignsMember (akin : e.Akin k e') (assigns : e.assignsMember = true)
    (assigns' : e'.assignsMember = true) :
    ∃ span inside object key value span' inside' object' key' value',
      e = .assign span true (.expr (.member inside object key)) value ∧
      e' = .assign span' true (.expr (.member inside' object' key')) value' ∧
      object.Akin k object' ∧ key.Akin k .access key' ∧ value.Akin k value' := by
  -- Both have the form of such an assignment, and their parts are akin by the rules for it.
  unfold Expr.assignsMember at assigns assigns'
  split at assigns
  · split at assigns'
    · -- Only one rule makes each of the nodes.
      obtain ⟨assignments⟩ := akin
      cases assignments with
      | assign _ targets values =>
        cases targets with
        | expr members =>
          obtain ⟨members⟩ := members
          cases members with
          | member objects keys =>
            exact ⟨_, _, _, _, _, _, _, _, _, _, rfl, rfl, objects, keys, values⟩
    · cases assigns'
  · cases assigns

theorem OptionAkin.rel {e e' : Option Expr} (akin : OptionAkin k e e') :
    Option.Rel (Expr.Akin k) e e' := by
  -- Both relations have the same two cases.
  cases akin with
  | none => exact .none
  | some akin => exact .some akin

theorem PropertiesAkin.forall₂ {properties properties' : List Property} :
    PropertiesAkin k properties properties' →
      List.Forall₂ (Property.Akin k) properties properties'
  | .nil => .nil
  | .cons first others => .cons first others.forall₂

theorem MembersAkin.forall₂ {members members' : List ClassMember} :
    MembersAkin k members members' → List.Forall₂ (ClassMember.Akin k) members members'
  | .nil => .nil
  | .cons first others => .cons first others.forall₂

theorem DeclaratorsAkin.forall₂ {declarators declarators' : List Declarator} :
    DeclaratorsAkin k declarators declarators' →
      List.Forall₂ (Declarator.Akin k) declarators declarators'
  | .nil => .nil
  | .cons first others => .cons first others.forall₂

theorem FieldsAkin.forall₂ {binding : Bool} {fields fields' : List Field} :
    FieldsAkin k binding fields fields' → List.Forall₂ (Field.Akin k binding) fields fields'
  | .nil => .nil
  | .cons first others => .cons first others.forall₂

/-- The expression that a body returns is akin. -/
theorem StmtsAkin.returned? {body body' : List Stmt} :
    StmtsAkin k body body' → Option.Rel (Expr.Akin k) (returned? body) (returned? body')
  | .nil => .none
  | .cons (.return (.some akin)) _ => .some akin
  | .cons (.return .none) others | .cons (.expr _) others | .cons (.decl _) others
  | .cons (.compound _ _ _) others => others.returned?

end PropCatalog.Syntax
