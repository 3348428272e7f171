import PropCatalog.Proofs.Kinship.Akin
import PropCatalog.Proofs.Related
import PropCatalog.Scope.Origin

/-! The scopes of modules that are akin: the same names and members stand for what is akin, and
names that are spelled in other ways are the same. -/

namespace PropCatalog

open Syntax

variable {file other : SourceFile} {k : Kinship file other}

namespace Syntax

variable {e e' : Expr} {key key' : Key}

/-- Literals that are akin have the same text. -/
theorem Expr.Akin.literalText? (akin : e.Akin k e') : e.literalText? = e'.literalText? := by
  -- Below the wrappers, both have one form, and a template has holes in both or in none.
  cases akin with
  | inside same =>
    unfold Expr.literalText?
    generalize e.unwrap = f, e'.unwrap = f' at same
    cases same with
    | template head akin => cases akin <;> rfl
    | _ => rfl

/-- What is akin is a literal in both trees or in none. -/
theorem Expr.Akin.isLiteral (akin : e.Akin k e') : e.isLiteral = e'.isLiteral := by
  -- Below the wrappers, both have one form, and a template has holes in both or in none.
  cases akin with
  | inside same =>
    unfold Expr.isLiteral
    generalize e.unwrap = f, e'.unwrap = f' at same
    cases same with
    | template head akin => cases akin <;> rfl
    | _ => rfl

/-- What is akin is a name inside of wrappers in both trees or in none. -/
theorem Expr.Akin.isName (akin : e.Akin k e') : e.unwrap.isName = e'.unwrap.isName := by
  -- Below the wrappers, both have one form.
  cases akin with
  | inside same =>
    generalize e.unwrap = f, e'.unwrap = f' at same
    cases same <;> rfl

/-- Keys of classes and patterns that are akin spell the same name. -/
theorem Key.Akin.spelled? (akin : key.Akin k .declaration key') :
    key.spelled? = key'.spelled? := by
  -- Keys are of the same form, or they spell one text.
  cases akin with
  | respelled _ spelled spelled' =>
    rw [Key.spelled?_of_textAt? spelled, Key.spelled?_of_textAt? spelled']
  | _ => rfl

/-- Keys of accesses that are akin spell the same name. -/
theorem Key.Akin.accessed? (akin : key.Akin k .access key') :
    key.accessed? = key'.accessed? := by
  -- Keys are of the same form, or they spell one text.
  cases akin with
  | computed akin => exact akin.literalText?
  | respelled _ spelled spelled' =>
    rw [Key.accessed?_of_textAt? spelled, Key.accessed?_of_textAt? spelled']
  | _ => rfl

/-- A static member of classes that are akin has values that are akin. -/
theorem Class.Akin.static? {definition definition' : Class}
    (akin : definition.Akin k definition') (name : String) :
    Option.Rel (Expr.Akin k) (definition.static? name) (definition'.static? name) := by
  -- The last member of the name counts, and the members are gone through in step.
  cases akin with
  | mk _ members =>
    have reversed := List.forall₂_reverse_iff.mpr members.forall₂
    refine rel_findSome? reversed fun member member' akin => ?_
    -- Members that are akin are given a value in both classes or in none.
    cases akin with
    | field isStatic keys akin =>
      cases isStatic with
      | false => exact .none
      | true =>
        simp only [keys.spelled?]
        split
        · exact akin.rel
        · exact .none
    | getter isStatic keys bodies =>
      cases isStatic with
      | false => exact .none
      | true =>
        simp only [keys.spelled?]
        split
        · exact bodies.returned?
        · exact .none
    | _ => exact .none

end Syntax

/-- What names stand for is akin when it comes from the same module or from expressions, classes or
functions that are akin. -/
inductive Binding.Akin (k : Kinship file other) : Binding → Binding → Prop
  | imported (origin : String) : Binding.Akin k (.imported origin) (.imported origin)
  | ofValue {e e' : Expr} (akin : e.Akin k e') : Binding.Akin k (.value e) (.value e')
  | property {e e' : Expr} (akin : e.Akin k e') (key : String) :
    Binding.Akin k (.property e key) (.property e' key)
  | class {definition definition' : Syntax.Class} (akin : definition.Akin k definition') :
    Binding.Akin k (.class definition) (.class definition')
  | function {body body' : List Stmt} (bodies : StmtsAkin k body body') :
    Binding.Akin k (.function body) (.function body')

/-- Two scopes are akin when they bind and assign the same names one after the other, to what is
akin. -/
structure Scope.Akin (k : Kinship file other) (scope scope' : Scope) : Prop where
  bindings : List.Forall₂ (fun bound bound' => bound.1 = bound'.1 ∧ bound.2.Akin k bound'.2)
    scope.bindings scope'.bindings
  assignments : List.Forall₂ (fun given given' => given.1 = given'.1 ∧ given.2.Akin k given'.2)
    scope.assignments scope'.assignments

/-- What does not assign to a member of a name, or has wrappers that hide it, changes no scope. -/
theorem Scope.assignExpr_of_hidden {scope : Scope} {e : Expr} (hidden : e.assignsNamed = false) :
    scope.assignExpr e = scope := by
  -- What changes the scope has the form that is asked about.
  unfold Scope.assignExpr
  split
  · simp [Expr.assignsNamed] at hidden
  · rfl

namespace Scope.Akin

variable {scope scope' : Scope}

theorem empty : Scope.empty.Akin k Scope.empty :=
  ⟨.nil, .nil⟩

theorem get? (akin : scope.Akin k scope') (name : String) :
    Option.Rel (Binding.Akin k) (scope.get? name) (scope'.get? name) :=
  rel_lookup_self akin.bindings name

theorem assigned? (akin : scope.Akin k scope') (object member : String) :
    Option.Rel (Expr.Akin k) (scope.assigned? object member) (scope'.assigned? object member) :=
  rel_lookup_self akin.assignments (object, member)

theorem bind (akin : scope.Akin k scope') (name : String) {binding binding' : Binding}
    (bindings : binding.Akin k binding') :
    (scope.bind name binding).Akin k (scope'.bind name binding') :=
  ⟨.cons ⟨rfl, bindings⟩ akin.bindings, akin.assignments⟩

theorem assign (akin : scope.Akin k scope') (object member : String) {e e' : Expr}
    (values : e.Akin k e') :
    (scope.assign object member e).Akin k (scope'.assign object member e') :=
  ⟨akin.bindings, .cons ⟨rfl, values⟩ akin.assignments⟩

theorem bindField (akin : scope.Akin k scope') {e e' : Expr} (values : e.Akin k e')
    {field field' : Field} (fields : Field.Akin k true field field') :
    (Scope.bindField e scope field).Akin k (Scope.bindField e' scope' field') := by
  -- A field binds a name to a property of the value, which is spelled the same.
  cases fields with
  | shorthand name _ => exact akin.bind name (.property values name)
  | pair keys targets =>
    -- Only a name takes the value, and a binding has no wrappers around it.
    cases targets with
    | name text =>
      simp only [Scope.bindField, keys.spelled?]
      split
      · exact akin.bind text (.property values _)
      · exact akin
    | _ => exact akin
  | rest _ => exact akin

theorem bindDeclarator (akin : scope.Akin k scope') {declarator declarator' : Declarator}
    (declared : declarator.Akin k declarator') :
    (scope.bindDeclarator declarator).Akin k (scope'.bindDeclarator declarator') := by
  -- A name is bound to the value, and a pattern binds field by field.
  cases declared with
  | mk targets values =>
    cases targets with
    | name text =>
      cases values with
      | none => exact akin
      | some values => exact akin.bind text (.ofValue values)
    | object fields =>
      cases values with
      | none => exact akin
      | some values =>
        exact List.rel_foldl (fun _ _ akin _ _ field => akin.bindField values field) akin
          fields.forall₂
    | _ => exact akin

theorem bindDecl (akin : scope.Akin k scope') {declaration declaration' : Decl}
    (declared : declaration.Akin k declaration') :
    (scope.bindDecl declaration).Akin k (scope'.bindDecl declaration') := by
  -- Each form of a declaration binds the same names to what is akin.
  cases declared with
  | «class» name definitions => exact akin.bind name (.class definitions)
  | function name bodies => exact akin.bind name (.function bodies)
  | declared declarators =>
    exact List.rel_foldl (fun _ _ akin _ _ declarator => akin.bindDeclarator declarator) akin
      declarators.forall₂
  | other _ => exact akin

/-- An assignment to a member of a name counts when no wrappers hide it. So they have to hide it in
both modules or in none. -/
theorem assignExpr (akin : scope.Akin k scope') {e e' : Expr} (exprs : e.Akin k e')
    (same : e.assignsNamed = e'.assignsNamed) :
    (scope.assignExpr e).Akin k (scope'.assignExpr e') := by
  -- Either both assign to a member of a name without wrappers, or none of them counts.
  cases named : e.assignsNamed with
  | false =>
    rw [assignExpr_of_hidden named, assignExpr_of_hidden (same ▸ named)]
    exact akin
  | true =>
    have named' : e'.assignsNamed = true := same ▸ named
    obtain ⟨_, _, object, _, _, _, _, object', _, _, rfl, rfl, objects, keys, values⟩ :=
      exprs.of_assignsMember (Expr.assignsMember_of_assignsNamed named)
        (Expr.assignsMember_of_assignsNamed named')
    -- Both objects are names, and what is akin is the same name.
    cases object with
    | name _ text =>
      cases object' with
      | name _ text' =>
        obtain ⟨objects⟩ := objects
        cases objects with
        | name =>
          simp only [Scope.assignExpr, keys.accessed?]
          split
          · exact akin.assign text _ values
          · exact akin
      | _ => cases named'
    | _ => cases named

/-- The items of modules that are akin bind and assign akin. -/
theorem bindItem (akin : scope.Akin k scope') {item item' : Item} (items : item.Akin k item') :
    (scope.bindItem item).Akin k (scope'.bindItem item') := by
  -- Imports, declarations and assignments change a scope, and other items do not.
  cases items with
  | importDecl typeOnly origin names =>
    cases typeOnly with
    | true => exact akin
    | false =>
      cases origin with
      | none => exact akin
      | some origin =>
        have names : List.Forall₂ (fun name name' : String => name = name') names names := by simp
        refine List.rel_foldl (fun _ _ akin name name' same => ?_) akin names
        subst same
        exact akin.bind name (.imported origin)
  | exportDecl declared => exact akin.bindDecl declared
  | exportDefaultClass name definitions =>
    cases name with
    | none => exact akin
    | some name => exact akin.bind name (.class definitions)
  | exportDefaultFunction name bodies =>
    cases name with
    | none => exact akin
    | some name => exact akin.bind name (.function bodies)
  | stmt statements assigns =>
    cases statements with
    | expr values => exact akin.assignExpr values assigns.2
    | decl declared => exact akin.bindDecl declared
    | _ => exact akin
  | _ => exact akin

/-- The scopes of modules that are akin are akin. -/
theorem ofModule {source source' : Module} (akin : source.Akin k source') :
    (Scope.ofModule source).Akin k (Scope.ofModule source') :=
  List.rel_foldl (fun _ _ akin _ _ items => akin.bindItem items) .empty akin

end Scope.Akin

end PropCatalog
