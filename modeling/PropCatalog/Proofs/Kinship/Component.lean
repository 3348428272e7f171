import PropCatalog.Component.Discovery
import PropCatalog.Proofs.Kinship.Markup
import PropCatalog.Proofs.Kinship.Outline

/-! Modules that are akin define components that are akin, one after the other. -/

namespace PropCatalog

open Syntax

/-- Two definitions of components are akin when both are of one kind, with literals that correspond
or classes that are akin. -/
inductive ComponentKind.Akin {file other : SourceFile} (k : Kinship file other) :
    ComponentKind → ComponentKind → Prop
  | specification {literal literal' : ObjectLiteral}
    (corresponds : k.Corresponds literal literal') :
    ComponentKind.Akin k (.specification literal) (.specification literal')
  | class {definition definition' : Syntax.Class} (akin : definition.Akin k definition') :
    ComponentKind.Akin k (.class definition) (.class definition')
  | function : ComponentKind.Akin k .function .function

/-- Two components are akin when they have the same name and are defined akin. -/
structure Component.Akin {file other : SourceFile} (k : Kinship file other)
    (component component' : Component) : Prop where
  name : component.name = component'.name
  kind : component.kind.Akin k component'.kind

section Trees

variable {file other : SourceFile} {k : Kinship file other} {e e' : Expr}

/-- Expressions that are akin end with the same name. -/
theorem Syntax.Expr.Akin.lastName? (akin : e.Akin k e') : e.lastName? = e'.lastName? := by
  -- The name is the key of an access, or that of a name, which is the same.
  obtain ⟨same⟩ := akin
  unfold Expr.lastName?
  generalize e.unwrap = f, e'.unwrap = f' at same
  cases same with
  | member _ keys => exact keys.accessed?
  | _ => rfl

/-- Class members that are akin are methods of instances with the same name or none of them is. -/
theorem Syntax.ClassMember.Akin.isInstanceMethod {member member' : ClassMember}
    (akin : member.Akin k member') (name : String) :
    member.isInstanceMethod name = member'.isInstanceMethod name := by
  -- Only methods and accessors of an instance are asked about, and their keys spell the same.
  cases akin with
  | method isStatic keys _ | getter isStatic keys _ | setter isStatic keys =>
    cases isStatic <;> simp only [ClassMember.isInstanceMethod, keys.spelled?]
  | _ => rfl

/-- First arguments are akin where the arguments are. -/
theorem Syntax.ElementsAkin.firstArgument? {arguments arguments' : List Element}
    (akin : ElementsAkin k arguments arguments') :
    Option.Rel (Expr.Akin k) (firstArgument? arguments)
      (PropCatalog.firstArgument? arguments') := by
  -- Only an item is an argument of its own.
  cases akin with
  | nil => exact .none
  | cons first _ =>
    cases first with
    | item akin => exact .some akin
    | _ => exact .none

/-- What is no assignment to a member, or has wrappers that hide it, exports nothing. -/
theorem exportedValue?_of_hidden (hidden : e.assignsMember = false) : exportedValue? e = none := by
  -- What exports has the form that is asked about.
  unfold exportedValue?
  split
  · simp [Expr.assignsMember] at hidden
  · rfl

/-- The name under which a member of an object is exported, if it is; `module.exports` itself has
none. -/
def exportName? (object : Expr) (property : String) : Option (Option String) :=
  match object.unwrap with
  | .name _ text =>
    if text = "module" then if property = "exports" then some none else none
    else if text = "exports" then some (some property) else none
  | .member _ inner key =>
    match inner.unwrap with
    | .name _ text =>
      if text = "module" ∧ key.accessed? = some "exports" then some (some property) else none
    | _ => none
  | _ => none

/-- An assignment to a member exports a value that is no name, when it exports the member. -/
theorem exportedValue?_assign (span inside : Span) (object value : Expr) (key : Key) :
    exportedValue? (.assign span true (.expr (.member inside object key)) value) =
      if value.unwrap.isName then none
      else key.accessed?.bind fun property =>
        (exportName? object property).map fun name => (name, value) := by
  -- The check for a name comes first, then that of the key, and last that of the object.
  simp only [exportedValue?, exportName?]
  split
  · rfl
  · cases key.accessed? with
    | none => rfl
    | some property =>
      simp only [Option.bind_some]
      -- A name that is none of the two that are looked for exports nothing.
      cases object.unwrap with
      | name _ text =>
        simp only
        split
        · rename_i named
          cases named
          simp only [if_true]
          split <;> rfl
        · rename_i named
          cases named
          rfl
        · rename_i named
          cases named
        · rename_i noModule noExports _
          rw [if_neg fun same => noModule _ (congrArg _ same),
            if_neg fun same => noExports _ (congrArg _ same)]
          rfl
      | member _ inner key =>
        simp only
        cases inner.unwrap with
        | name _ text =>
          simp only
          split
          · rename_i named
            cases named
            simp only [true_and]
            split <;> rfl
          · rename_i noModule
            rw [if_neg fun same => noModule _ (congrArg _ same.1)]
            rfl
        | _ => rfl
      | _ => rfl

/-- Objects that are akin export the same members under the same names. -/
theorem Syntax.Expr.Akin.exportName? (akin : e.Akin k e') (property : String) :
    exportName? e property = PropCatalog.exportName? e' property := by
  -- What is assigned to is a name, or a member of one, under the same key.
  obtain ⟨same⟩ := akin
  unfold PropCatalog.exportName?
  generalize e.unwrap = f, e'.unwrap = f' at same
  cases same with
  | @member _ _ object object' _ _ objects keys =>
    obtain ⟨same⟩ := objects
    simp only [keys.accessed?]
    generalize object.unwrap = f, object'.unwrap = f' at same
    cases same <;> rfl
  | _ => rfl

/-- An assignment to a member exports when no wrappers hide it, so they have to hide it in both
modules or in none. Then wrappers around the object and the value do not count. -/
theorem Syntax.Expr.Akin.exportedValue? (akin : e.Akin k e')
    (same : e.assignsMember = e'.assignsMember) :
    Option.Rel (fun exported exported' => exported.1 = exported'.1 ∧ exported.2.Akin k exported'.2)
      (exportedValue? e) (PropCatalog.exportedValue? e') := by
  -- Either both assign to a member without wrappers, or none of them exports.
  cases assigns : e.assignsMember with
  | false =>
    rw [exportedValue?_of_hidden assigns, exportedValue?_of_hidden (same ▸ assigns)]
    exact .none
  | true =>
    obtain ⟨_, _, _, _, _, _, _, object', key', _, rfl, rfl, objects, keys, values⟩ :=
      akin.of_assignsMember assigns (same ▸ assigns)
    -- The object and the key decide the name, and what is a name itself is not exported.
    simp only [exportedValue?_assign, values.isName, keys.accessed?]
    split
    · exact .none
    · cases key'.accessed? with
      | none => exact .none
      | some property =>
        simp only [Option.bind_some, objects.exportName?]
        cases PropCatalog.exportName? object' property with
        | none => exact .none
        | some name => exact .some ⟨rfl, values⟩

end Trees

namespace Analysis.Akin

variable {analysis analysis' : Analysis} {k : Kinship analysis.file analysis'.file} {e e' : Expr}

/-- What is akin comes from React in both modules or in none. -/
theorem isFromReact (akin : analysis.Akin analysis' k) (exprs : e.Akin k e') :
    analysis.isFromReact e = analysis'.isFromReact e' := by
  rw [Analysis.isFromReact, Analysis.isFromReact, akin.scope.origin? exprs]

/-- Classes that are akin are both classes of components or none of them is. -/
theorem isComponentClass (akin : analysis.Akin analysis' k)
    {definition definition' : Syntax.Class} (classes : definition.Akin k definition') :
    analysis.isComponentClass definition = analysis'.isComponentClass definition' := by
  -- The methods and the base class are what is asked about.
  cases classes with
  | @mk base base' _ _ bases members =>
    have methods := any_eq_of_forall₂ members.forall₂
      fun _ _ same => same.isInstanceMethod "render"
    have based :
        (base.any fun e => e.lastName?.any baseClassNames.contains && analysis.isFromReact e) =
          base'.any fun e => e.lastName?.any baseClassNames.contains && analysis'.isFromReact e :=
      any_eq_of_rel bases.rel fun _ _ same => by rw [same.lastName?, akin.isFromReact same]
    simp only [Analysis.isComponentClass, Class.members, Class.superClass, methods, based]

/-- What is akin makes components from object literals in both modules or in none. -/
theorem isCreateClass (akin : analysis.Akin analysis' k) (callees : e.Akin k e') :
    analysis.isCreateClass e = analysis'.isCreateClass e' := by
  -- The name of the function and its module are both the same.
  have origins := akin.scope.origin? callees
  obtain ⟨same⟩ := callees
  unfold Analysis.isCreateClass
  rw [origins]
  generalize e.unwrap = f, e'.unwrap = f' at same
  cases same with
  | member objects keys => simp only [keys.accessed?, akin.isFromReact objects]
  | _ => rfl

/-- Calls that are akin make components from literals that correspond. -/
theorem specification? (akin : analysis.Akin analysis' k) (callees : e.Akin k e')
    {arguments arguments' : List Element} (related : ElementsAkin k arguments arguments') :
    Option.Rel k.Corresponds (analysis.specification? e arguments)
      (analysis'.specification? e' arguments') := by
  -- Both callees are asked about alike, and then the first arguments.
  simp only [Analysis.specification?, akin.isCreateClass callees]
  split
  · exact rel_bind related.firstArgument? fun _ _ same => akin.scope.object? same
  · exact .none

/-- Calls that are akin make components from ones that are akin. -/
theorem wrappedComponent? (akin : analysis.Akin analysis' k) (callees : e.Akin k e')
    {arguments arguments' : List Element} (related : ElementsAkin k arguments arguments') :
    Option.Rel (Expr.Akin k) (analysis.wrappedComponent? e arguments)
      (analysis'.wrappedComponent? e' arguments') := by
  -- Both callees are asked about alike, and then the first arguments.
  simp only [Analysis.wrappedComponent?, callees.lastName?, akin.isFromReact callees]
  split
  · exact related.firstArgument?
  · exact .none

/-- Through any number of calls, expressions that are akin define components akin. -/
theorem kindWithin? (akin : analysis.Akin analysis' k) (calls : Nat) (exprs : e.Akin k e') :
    Option.Rel (ComponentKind.Akin k) (analysis.kindWithin? calls e)
      (analysis'.kindWithin? calls e') := by
  -- A call hands on what is akin, and leaves it one call less.
  induction calls generalizing e e' with
  | zero => exact .none
  | succ calls ih =>
    obtain ⟨same⟩ := exprs
    simp only [Analysis.kindWithin?]
    generalize e.unwrap = f, e'.unwrap = f' at same
    cases same with
    | @call _ _ callee callee' arguments arguments' _ callees related =>
      have literals := akin.specification? callees related
      simp only
      generalize analysis.specification? callee arguments = literal,
        analysis'.specification? callee' arguments' = literal' at literals
      cases literals with
      | none => exact rel_bind (akin.wrappedComponent? callees related) fun _ _ => ih
      | some corresponds => exact .some (.specification corresponds)
    | «class» name definitions =>
      simp only [akin.isComponentClass definitions]
      split
      · exact .some (.class definitions)
      · exact .none
    | function name bodies =>
      simp only [bodies.hasMarkup]
      split
      · exact .some .function
      · exact .none
    | arrow patterns bodies =>
      simp only [bodies.hasMarkup]
      split
      · exact .some .function
      · exact .none
    | _ => exact .none

/-- Expressions that are akin define components akin. -/
theorem kind? (akin : analysis.Akin analysis' k) (exprs : e.Akin k e') :
    Option.Rel (ComponentKind.Akin k) (analysis.kind? e) (analysis'.kind? e') :=
  akin.kindWithin? _ exprs

/-- Components that expressions define under one name are akin. -/
theorem component? (akin : analysis.Akin analysis' k) (exprs : e.Akin k e')
    (name : Option String) (position position' : Nat) :
    List.Forall₂ (Component.Akin k)
      ((analysis.kind? e).map fun kind => (⟨name, kind, position⟩ : Component)).toList
      ((analysis'.kind? e').map fun kind => (⟨name, kind, position'⟩ : Component)).toList := by
  -- The kind is found in both or in none.
  have kinds := akin.kind? exprs
  generalize analysis.kind? e = kind, analysis'.kind? e' = kind' at kinds
  cases kinds with
  | none => exact .nil
  | some kinds => exact .cons ⟨rfl, kinds⟩ .nil

/-- Variables that are akin are components that are akin. -/
theorem declaratorComponent? (akin : analysis.Akin analysis' k) (position position' : Nat)
    {declarator declarator' : Declarator} (declared : declarator.Akin k declarator') :
    Option.Rel (Component.Akin k) (analysis.declaratorComponent? position declarator)
      (analysis'.declaratorComponent? position' declarator') := by
  -- Only a function is asked about its name as well, which is the same.
  cases declared with
  | mk targets values =>
    cases targets with
    | name text =>
      cases values with
      | none => exact .none
      | @some e e' values =>
        have kinds := akin.kind? values
        simp only [Analysis.declaratorComponent?]
        generalize analysis.kind? e = kind, analysis'.kind? e' = kind' at kinds
        cases kinds with
        | none => exact .none
        | some kinds =>
          cases kinds with
          | specification corresponds => exact .some ⟨rfl, .specification corresponds⟩
          | «class» definitions => exact .some ⟨rfl, .class definitions⟩
          -- A function needs the name of a component, and it has the same one in both.
          | function =>
            simp only
            split
            · exact .some ⟨rfl, .function⟩
            · exact .none
    | _ => exact .none

/-- Declarations that are akin define components that are akin. -/
theorem declComponents (akin : analysis.Akin analysis' k) (position position' : Nat)
    {declaration declaration' : Decl} (declared : declaration.Akin k declaration') :
    List.Forall₂ (Component.Akin k) (analysis.declComponents position declaration)
      (analysis'.declComponents position' declaration') := by
  -- Each form of a declaration is judged by parts that are akin.
  cases declared with
  | «class» name definitions =>
    simp only [Analysis.declComponents, akin.isComponentClass definitions]
    split
    · exact .cons ⟨rfl, .class definitions⟩ .nil
    · exact .nil
  | function name bodies =>
    simp only [Analysis.declComponents, bodies.hasMarkup]
    split
    · exact .cons ⟨rfl, .function⟩ .nil
    · exact .nil
  | declared declarators =>
    exact List.rel_filterMap (R := Declarator.Akin k) (P := Component.Akin k)
      (fun _ _ => akin.declaratorComponent? position position') declarators.forall₂
  | other _ => exact .nil

/-- Items that are akin define components that are akin. -/
theorem itemComponents (akin : analysis.Akin analysis' k) {item item' : Item}
    (items : item.Akin k item') :
    List.Forall₂ (Component.Akin k) (analysis.itemComponents item)
      (analysis'.itemComponents item') := by
  -- Of statements, only declarations and assignments that export define components.
  cases items with
  | exportDecl declared => exact akin.declComponents _ _ declared
  | exportDefaultClass name definitions =>
    simp only [Analysis.itemComponents, akin.isComponentClass definitions]
    split
    · exact .cons ⟨rfl, .class definitions⟩ .nil
    · exact .nil
  | exportDefaultFunction name bodies =>
    simp only [Analysis.itemComponents, bodies.hasMarkup]
    split
    · exact .cons ⟨rfl, .function⟩ .nil
    · exact .nil
  | exportDefaultExpr values =>
    simp only [Analysis.itemComponents, values.isName]
    split
    · exact .nil
    · exact akin.component? values none _ _
  | stmt statements assigns =>
    cases statements with
    | @expr _ _ e e' values =>
      have exported := values.exportedValue? assigns.1
      simp only [Analysis.itemComponents]
      generalize exportedValue? e = found, exportedValue? e' = found' at exported
      cases exported with
      | none => exact .nil
      | @some given given' same =>
        rcases given with ⟨name, value⟩
        rcases given' with ⟨_, value'⟩
        obtain ⟨rfl, values⟩ := same
        exact akin.component? values name _ _
    | decl declared => exact akin.declComponents _ _ declared
    | _ => exact .nil
  | _ => exact .nil

/-- Modules that are akin define components that are akin, in the same order. -/
theorem components (akin : analysis.Akin analysis' k) :
    List.Forall₂ (Component.Akin k) analysis.components analysis'.components :=
  List.rel_flatMap akin.module fun _ _ => akin.itemComponents

end Analysis.Akin

end PropCatalog
