import PropCatalog.Proofs.Record.Agreement
import PropCatalog.Proofs.Related
import PropCatalog.Proofs.Scope.Beside

/-! Components in scopes that differ in members assigned to some names only: what does not mention
these names defines the same components, and these are given the same members. -/

namespace PropCatalog

open Syntax

/-- None of some names is mentioned in what defines a component, as far as it is looked into. -/
def ComponentKind.Avoids (names : List String) : ComponentKind → Prop
  | .specification literal => Unmentioned names (propertiesMention · literal.properties)
  | .class _ | .function => True

/-- A component has none of some names. -/
def Unnamed (names : List String) (name : Option String) : Prop :=
  ∀ text, name = some text → text ∉ names

/-- Two components have the same name and are defined in the same way; neither mentions some names.
-/
structure Component.Same (names : List String) (component component' : Component) : Prop where
  name : component.name = component'.name
  kind : component.kind = component'.kind
  named : Unnamed names component.name
  avoids : component.kind.Avoids names

section Names

variable {names : List String}

theorem unnamed_none : Unnamed names none := by
  rintro _ ⟨⟩

theorem unnamed_some {text : String} (free : Unmentioned names (text == ·)) :
    Unnamed names (some text) := by
  -- A binder mentions the one name that it is.
  rintro _ ⟨⟩
  exact unmentioned_beq.mp free

/-- Functions and classes mention the names that they have. -/
theorem unnamed_own {name : Option String}
    (free : Unmentioned names (fun text => name == some text)) : Unnamed names name := by
  -- A name that is given is mentioned as it is.
  rintro text rfl
  exact unmentioned_beq.mp (by simpa using free)

/-- What no argument mentions is not mentioned in the first one. -/
theorem unmentioned_firstArgument? {arguments : List Element}
    (free : Unmentioned names (elementsMention · arguments)) {e : Expr}
    (first : firstArgument? arguments = some e) : Unmentioned names e.mentions := by
  -- The first argument is the head of the list, if it is no spread.
  unfold firstArgument? at first
  split at first
  · cases first
    exact (unmentioned_or.mp free).1
  · cases first

end Names

namespace Analysis

variable {analysis : Analysis} {names : List String}

/-- What no argument of a call mentions is not mentioned in the component that it wraps. -/
theorem unmentioned_wrappedComponent? {callee : Expr} {arguments : List Element}
    (free : Unmentioned names (elementsMention · arguments)) {e : Expr}
    (wraps : analysis.wrappedComponent? callee arguments = some e) :
    Unmentioned names e.mentions := by
  -- What is wrapped is the first argument, if anything is.
  unfold wrappedComponent? at wraps
  split at wraps
  · exact unmentioned_firstArgument? free wraps
  · cases wraps

/-- What does not mention the names defines components that do not mention them. -/
theorem avoids_of_kindWithin? (avoids : analysis.scope.Avoids names) {calls : Nat} {e : Expr}
    (free : Unmentioned names e.mentions) {kind : ComponentKind}
    (found : analysis.kindWithin? calls e = some kind) : kind.Avoids names := by
  -- A call hands on what does not mention the names, and leaves it one call less.
  induction calls generalizing e with
  | zero => cases found
  | succ calls ih =>
    have free := e.unmentioned_unwrap.mpr free
    simp only [kindWithin?] at found
    generalize e.unwrap = e at free found
    cases e with
    | call span callee arguments =>
      have arguments := (unmentioned_or.mp free).2
      simp only at found
      split at found
      · rename_i literal specified
        cases found
        unfold specification? at specified
        split at specified
        · obtain ⟨e, first, leads⟩ := Option.bind_eq_some_iff.mp specified
          exact avoids.object? (unmentioned_firstArgument? arguments first) leads
        · cases specified
      · obtain ⟨inner, wraps, found⟩ := Option.bind_eq_some_iff.mp found
        exact ih (unmentioned_wrappedComponent? arguments wraps) found
    | «class» span name definition =>
      simp only at found
      split at found
      · cases found
        trivial
      · cases found
    | function span name body | arrow span parameters body =>
      simp only at found
      split at found
      · cases found
        trivial
      · cases found
    | _ => cases found

/-- Two analyses differ at most in the members that are assigned to some names, which nothing that
the first one is about mentions. -/
structure Beside (names : List String) (analysis other : Analysis) : Prop where
  scope : analysis.scope.Beside names other.scope
  avoids : analysis.scope.Avoids names

namespace Beside

variable {other : Analysis}

/-- Arguments that do not mention the names are the same literals. -/
theorem specification? (beside : analysis.Beside names other) (callee : Expr)
    {arguments : List Element} (free : Unmentioned names (elementsMention · arguments)) :
    analysis.specification? callee arguments = other.specification? callee arguments := by
  -- The literal is looked for in the first argument.
  have creates := isCreateClass_congr beside.scope.origin?
  simp only [Analysis.specification?, creates]
  split
  · refine Option.bind_congr fun e first => ?_
    exact beside.scope.object? beside.avoids (unmentioned_firstArgument? free first)
  · rfl

/-- What does not mention the names defines the same component. -/
theorem kindWithin? (beside : analysis.Beside names other) (calls : Nat) {e : Expr}
    (free : Unmentioned names e.mentions) :
    analysis.kindWithin? calls e = other.kindWithin? calls e := by
  -- A call hands on what does not mention the names, and leaves it one call less.
  have classes := isComponentClass_congr beside.scope.origin?
  have wrapped := wrappedComponent?_congr beside.scope.origin?
  induction calls generalizing e with
  | zero => rfl
  | succ calls ih =>
    have free := e.unmentioned_unwrap.mpr free
    simp only [Analysis.kindWithin?]
    generalize e.unwrap = e at free
    cases e with
    | call span callee arguments =>
      have arguments := (unmentioned_or.mp free).2
      simp only [beside.specification? callee arguments, ← wrapped]
      split
      · rfl
      · refine Option.bind_congr fun inner wraps => ?_
        exact ih (unmentioned_wrappedComponent? arguments wraps)
    | «class» span name definition => simp only [classes]
    | _ => rfl

/-- What does not mention the names defines the same component. -/
theorem kind? (beside : analysis.Beside names other) {e : Expr}
    (free : Unmentioned names e.mentions) : analysis.kind? e = other.kind? e :=
  beside.kindWithin? _ free

variable {component component' : Component}

/-- Components of one name and kind are given the same members. -/
theorem memberValue? (beside : analysis.Beside names other)
    (same : component.Same names component') (member : String) :
    analysis.memberValue? component member = other.memberValue? component' member := by
  -- A component is assigned members under its own name, which is none of those left out.
  rcases component with ⟨name, kind, position⟩
  rcases component' with ⟨_, _, position'⟩
  obtain ⟨rfl, rfl, named, kinds⟩ := same
  have assigned : (name.bind fun name => analysis.scope.assigned? name member) =
      name.bind fun name => other.scope.assigned? name member :=
    Option.bind_congr fun name here => beside.scope.assigned? name (named name here) member
  simp only [Analysis.memberValue?, assigned]
  cases kind with
  | specification literal => simp only [beside.scope.property? beside.avoids kinds]
  | _ => rfl

/-- What an expression defines under a name is the same component. -/
theorem component? (beside : analysis.Beside names other) {e : Expr}
    (free : Unmentioned names e.mentions) {name : Option String}
    (named : Unnamed names name) (position position' : Nat) :
    List.Forall₂ (Component.Same names)
      ((analysis.kind? e).map fun kind => (⟨name, kind, position⟩ : Component)).toList
      ((other.kind? e).map fun kind => (⟨name, kind, position'⟩ : Component)).toList := by
  -- Both analyses find the same kind, or none.
  rw [← beside.kind? free]
  cases defined : analysis.kind? e with
  | none => exact .nil
  | some kind =>
    exact .cons ⟨rfl, rfl, named, avoids_of_kindWithin? beside.avoids free defined⟩ .nil

/-- A variable that does not mention the names is the same component. -/
theorem declaratorComponent? (beside : analysis.Beside names other) (position position' : Nat)
    {declarator : Declarator} (free : Unmentioned names declarator.mentions) :
    Option.Rel (Component.Same names) (analysis.declaratorComponent? position declarator)
      (other.declaratorComponent? position' declarator) := by
  -- Only a function has to be named like a component.
  unfold Analysis.declaratorComponent?
  split
  · rename_i text value
    have parts := unmentioned_or.mp free
    have named := unnamed_some parts.1
    rw [← beside.kind? parts.2]
    cases defined : analysis.kind? value with
    | none => exact .none
    | some kind =>
      have avoids := avoids_of_kindWithin? beside.avoids parts.2 defined
      cases kind with
      | function =>
        simp only
        split
        · exact .some ⟨rfl, rfl, named, avoids⟩
        · exact .none
      | _ => exact .some ⟨rfl, rfl, named, avoids⟩
  · exact .none

/-- A declaration that does not mention the names defines the same components. -/
theorem declComponents (beside : analysis.Beside names other) (position position' : Nat)
    {declaration : Decl} (free : Unmentioned names declaration.mentions) :
    List.Forall₂ (Component.Same names) (analysis.declComponents position declaration)
      (other.declComponents position' declaration) := by
  -- Classes and functions are judged by themselves, and variables one by one.
  cases declaration with
  | «class» text definition =>
    simp only [Analysis.declComponents, ← isComponentClass_congr beside.scope.origin?]
    split
    · exact .cons ⟨rfl, rfl, unnamed_some (unmentioned_or.mp free).1, trivial⟩ .nil
    · exact .nil
  | function text body =>
    simp only [Analysis.declComponents]
    split
    · exact .cons ⟨rfl, rfl, unnamed_some (unmentioned_or.mp free).1, trivial⟩ .nil
    · exact .nil
  | «variables» declarators =>
    have free := unmentioned_declarators.mp free
    refine List.rel_filterMap
      (R := fun declared declared' : Declarator => declared = declared' ∧ declared ∈ declarators)
      (P := Component.Same names) ?_ (List.forall₂_same.mpr fun _ here => ⟨rfl, here⟩)
    rintro declared _ ⟨rfl, here⟩
    exact beside.declaratorComponent? position position' (free declared here)
  | other operands => exact .nil

end Beside

end Analysis

end PropCatalog
