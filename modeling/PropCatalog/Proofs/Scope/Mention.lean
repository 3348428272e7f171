import PropCatalog.Scope.Parts

/-! Where a syntax tree mentions a name. What a tree does not mention is not mentioned in its parts
either. -/

namespace PropCatalog

open Syntax

namespace Syntax

section Mentions

variable (name : String)

mutual

/-- Whether an expression mentions a name: where it refers to it, where it assigns to it, or where
something inside of it has that name. The keys of properties and members are no names. -/
def Expr.mentions : Expr → Bool
  | .name _ text => text == name
  | .string _ _ | .number _ _ | .constant _ | .markup _ => false
  | .template _ _ holes => exprsMention holes
  | .array _ elements => elementsMention elements
  | .object _ properties => propertiesMention properties
  | .member _ object key => object.mentions || key.mentions
  | .call _ callee arguments => callee.mentions || elementsMention arguments
  | .keywordCall _ arguments => elementsMention arguments
  | .assign _ _ target value => target.mentions || value.mentions
  | .wrapped _ _ inner => inner.mentions
  | .function _ own body => own == some name || stmtsMention body
  | .arrow _ parameters body => patternsMention parameters || stmtsMention body
  | .class _ own definition => own == some name || definition.mentions
  | .operation _ operands => exprsMention operands

def exprsMention : List Expr → Bool
  | [] => false
  | e :: rest => e.mentions || exprsMention rest

/-- Whether an element of a list mentions a name. -/
def Element.mentions : Element → Bool
  | .hole => false
  | .item value | .spread value => value.mentions

def elementsMention : List Element → Bool
  | [] => false
  | element :: rest => element.mentions || elementsMention rest

/-- Whether a property mentions a name; a shorthand refers to the name that it is short for. -/
def Property.mentions : Property → Bool
  | .pair _ key value => key.mentions || value.mentions
  | .shorthand _ text => text == name
  | .spread value => value.mentions
  | .method _ key body | .getter _ key body => key.mentions || stmtsMention body
  | .setter _ key parameter body => key.mentions || parameter.mentions || stmtsMention body
  | .defaulted _ text value => text == name || value.mentions

def propertiesMention : List Property → Bool
  | [] => false
  | property :: rest => property.mentions || propertiesMention rest

/-- Whether the brackets of a key mention a name. -/
def Key.mentions : Key → Bool
  | .computed value => value.mentions
  | _ => false

/-- Whether a class mentions a name. -/
def Class.mentions : Class → Bool
  | .mk superClass members => optionMentions superClass || membersMention members

/-- Whether a class member mentions a name. -/
def ClassMember.mentions : ClassMember → Bool
  | .field _ key value => key.mentions || optionMentions value
  | .method _ key body | .getter _ key body => key.mentions || stmtsMention body
  | .setter _ key => key.mentions
  | .other => false

def membersMention : List ClassMember → Bool
  | [] => false
  | member :: rest => member.mentions || membersMention rest

/-- Whether a statement mentions a name. -/
def Stmt.mentions : Stmt → Bool
  | .expr _ value => value.mentions
  | .return _ value => optionMentions value
  | .decl _ declaration => declaration.mentions
  | .compound _ patterns operands body =>
    patternsMention patterns || exprsMention operands || stmtsMention body

def stmtsMention : List Stmt → Bool
  | [] => false
  | statement :: rest => statement.mentions || stmtsMention rest

def optionMentions : Option Expr → Bool
  | none => false
  | some value => value.mentions

/-- Whether a declaration mentions a name; it mentions the names that it declares. -/
def Decl.mentions : Decl → Bool
  | .class own definition => own == name || definition.mentions
  | .function own body => own == name || stmtsMention body
  | .variables declarators => declaratorsMention declarators
  | .other operands => exprsMention operands

/-- Whether the pattern or the value of a variable mentions a name. -/
def Declarator.mentions : Declarator → Bool
  | .mk pattern value => pattern.mentions || optionMentions value

def declaratorsMention : List Declarator → Bool
  | [] => false
  | declarator :: rest => declarator.mentions || declaratorsMention rest

/-- Whether a pattern mentions a name; it mentions the names that it binds. -/
def Pattern.mentions : Pattern → Bool
  | .name text => text == name
  | .object fields => fieldsMention fields
  | .array elements => patternsMention elements
  | .defaulted target value => target.mentions || value.mentions
  | .rest target => target.mentions
  | .expr value => value.mentions

def patternsMention : List Pattern → Bool
  | [] => false
  | pattern :: others => pattern.mentions || patternsMention others

/-- Whether a field of an object pattern mentions a name. -/
def Field.mentions : Field → Bool
  | .shorthand text value => text == name || optionMentions value
  | .pair key target => key.mentions || target.mentions
  | .rest target => target.mentions

def fieldsMention : List Field → Bool
  | [] => false
  | field :: others => field.mentions || fieldsMention others

end

/-- Whether a top-level item mentions a name. Lists of exported names are not looked into. -/
def Item.mentions : Item → Bool
  | .importDecl _ _ _ names => names.contains name
  | .exportDecl _ declaration => declaration.mentions name
  | .exportDefaultClass _ own definition => own == some name || definition.mentions name
  | .exportDefaultFunction _ own body => own == some name || stmtsMention name body
  | .exportDefaultExpr _ value => value.mentions name
  | .stmt statement => statement.mentions name
  | .other _ => false

/-- Whether a module mentions a name. -/
def Module.mentions (source : Module) : Bool :=
  source.items.any (·.mentions name)

end Mentions

/-- None of some names is mentioned. -/
def Unmentioned (names : List String) (mentioned : String → Bool) : Prop :=
  ∀ name ∈ names, mentioned name = false

variable {names : List String}

/-- Of two things, both have to leave the names out. -/
theorem unmentioned_or {mentioned mentioned' : String → Bool} :
    Unmentioned names (fun name => mentioned name || mentioned' name) ↔
      Unmentioned names mentioned ∧ Unmentioned names mentioned' := by
  simp [Unmentioned, forall_and]

/-- Another name is not among those that are left out. -/
theorem unmentioned_beq {text : String} :
    Unmentioned names (fun name => text == name) ↔ text ∉ names := by
  simp [Unmentioned, List.forall_mem_ne]

/-- A module leaves names out exactly when each of its items does. -/
theorem unmentioned_items {source : Module} :
    Unmentioned names source.mentions ↔ ∀ item ∈ source.items, Unmentioned names item.mentions := by
  -- A module mentions what some item mentions.
  simp only [Unmentioned, Module.mentions, List.any_eq_false, Bool.not_eq_true]
  exact ⟨fun free item here name listed => free name listed item here,
    fun free name listed item here => free item here name listed⟩

theorem unmentioned_properties {properties : List Property} :
    Unmentioned names (propertiesMention · properties) ↔
      ∀ property ∈ properties, Unmentioned names property.mentions := by
  -- The properties mention what one of them mentions.
  induction properties with
  | nil => simp [propertiesMention, Unmentioned]
  | cons property rest ih => simp only [propertiesMention, unmentioned_or, ih, List.forall_mem_cons]

theorem unmentioned_members {members : List ClassMember} :
    Unmentioned names (membersMention · members) ↔
      ∀ member ∈ members, Unmentioned names member.mentions := by
  -- The members mention what one of them mentions.
  induction members with
  | nil => simp [membersMention, Unmentioned]
  | cons member rest ih => simp only [membersMention, unmentioned_or, ih, List.forall_mem_cons]

theorem unmentioned_declarators {declarators : List Declarator} :
    Unmentioned names (declaratorsMention · declarators) ↔
      ∀ declarator ∈ declarators, Unmentioned names declarator.mentions := by
  -- The declarators mention what one of them mentions.
  induction declarators with
  | nil => simp [declaratorsMention, Unmentioned]
  | cons declarator rest ih =>
    simp only [declaratorsMention, unmentioned_or, ih, List.forall_mem_cons]

/-- Wrappers around an expression mention no names. -/
theorem Expr.unmentioned_unwrap (e : Expr) :
    Unmentioned names e.unwrap.mentions ↔ Unmentioned names e.mentions := by
  -- A wrapper mentions what is inside it.
  fun_induction Expr.unwrap e with
  | case1 _ _ _ ih => exact ih
  | case2 e _ => exact Iff.rfl

/-- A name does not mention the others, whatever wrappers stand around it. -/
theorem notMem_of_unwrap {e : Expr} (free : Unmentioned names e.mentions) {span : Span}
    {text : String} (named : e.unwrap = .name span text) : text ∉ names := by
  -- Without its wrappers, the expression is the name.
  rw [← e.unmentioned_unwrap, named] at free
  exact unmentioned_beq.mp free

/-- What an object literal does not mention is not mentioned in its properties. -/
theorem unmentioned_object? {e : Expr} (free : Unmentioned names e.mentions)
    {literal : ObjectLiteral} (object : e.object? = some literal) :
    Unmentioned names (propertiesMention · literal.properties) := by
  -- The properties are all that a literal has.
  cases e with
  | object span properties =>
    cases object
    exact free
  | _ => cases object

mutual

/-- What an expression does not mention is not mentioned in its parts. -/
theorem Expr.unmentioned_parts (e : Expr) (free : Unmentioned names e.mentions) :
    ∀ x ∈ e.parts, Unmentioned names x.mentions := by
  -- An expression is one of its parts itself, and otherwise the part lies further inside.
  cases e with
  | wrapped span wrapper inner => exact Expr.unmentioned_parts inner free
  | array span elements =>
    exact List.forall_mem_cons.mpr ⟨free, unmentioned_partsOfElements elements free⟩
  | object span properties =>
    exact List.forall_mem_cons.mpr ⟨free, unmentioned_partsOfProperties properties free⟩
  | member span object key =>
    have inside := unmentioned_or.mp free
    exact List.forall_mem_cons.mpr ⟨free, Expr.unmentioned_parts object inside.1⟩
  | call span callee arguments =>
    have inside := unmentioned_or.mp free
    refine List.forall_mem_cons.mpr ⟨free, List.forall_mem_append.mpr ⟨?_, ?_⟩⟩
    · exact Expr.unmentioned_parts callee inside.1
    · exact unmentioned_partsOfElements arguments inside.2
  | _ => exact List.forall_mem_singleton.mpr free

theorem unmentioned_partsOfElements (elements : List Element)
    (free : Unmentioned names (elementsMention · elements)) :
    ∀ x ∈ partsOfElements elements, Unmentioned names x.mentions := by
  -- Each element has the parts of its expression, and a hole has none.
  cases elements with
  | nil => exact List.forall_mem_nil _
  | cons element rest =>
    have inside := unmentioned_or.mp free
    cases element with
    | hole => exact unmentioned_partsOfElements rest inside.2
    | item value | spread value =>
      exact List.forall_mem_append.mpr
        ⟨Expr.unmentioned_parts value inside.1, unmentioned_partsOfElements rest inside.2⟩

theorem unmentioned_partsOfProperties (properties : List Property)
    (free : Unmentioned names (propertiesMention · properties)) :
    ∀ x ∈ partsOfProperties properties, Unmentioned names x.mentions := by
  -- Each property has the parts of its value, and a shorthand is a name.
  cases properties with
  | nil => exact List.forall_mem_nil _
  | cons property rest =>
    have inside := unmentioned_or.mp free
    have others := unmentioned_partsOfProperties rest inside.2
    cases property with
    | pair start key value =>
      have value := Expr.unmentioned_parts value (unmentioned_or.mp inside.1).2
      exact List.forall_mem_append.mpr ⟨value, others⟩
    | spread value =>
      exact List.forall_mem_append.mpr ⟨Expr.unmentioned_parts value inside.1, others⟩
    | shorthand span text => exact List.forall_mem_cons.mpr ⟨inside.1, others⟩
    | _ => exact others

end

/-- What a body does not mention is not mentioned in what it returns. -/
theorem unmentioned_returned? {body : List Stmt} (free : Unmentioned names (stmtsMention · body))
    {e : Expr} (returns : returned? body = some e) : Unmentioned names e.mentions := by
  -- Only a statement that returns something ends the search.
  induction body with
  | nil => cases returns
  | cons statement rest ih =>
    have inside := unmentioned_or.mp free
    cases statement with
    | «return» span value =>
      cases value with
      | none => exact ih inside.2 returns
      | some value =>
        cases returns
        exact inside.1
    | _ => exact ih inside.2 returns

/-- What a class does not mention is not mentioned in the parts of its static members. -/
theorem Class.unmentioned_parts {definition : Class}
    (free : Unmentioned names definition.mentions) :
    ∀ x ∈ definition.parts, Unmentioned names x.mentions := by
  -- A static member has parts when it is a field with a value, or a getter that returns one.
  rcases definition with ⟨base, members⟩
  have inside := unmentioned_members.mp (unmentioned_or.mp free).2
  intro x part
  obtain ⟨member, here, part⟩ := List.mem_flatMap.mp part
  have free := inside member here
  unfold ClassMember.parts at part
  split at part
  · exact Expr.unmentioned_parts _ (unmentioned_or.mp free).2 x part
  · rename_i key body
    cases returns : returned? body with
    | none => simp [returns] at part
    | some e =>
      rw [returns] at part
      have free := unmentioned_returned? (unmentioned_or.mp free).2 returns
      exact Expr.unmentioned_parts e free x part
  · cases part

end Syntax

end PropCatalog
