import PropCatalog.Scope.Value

/-! What holds of all values: following names, accesses and properties keeps to expressions of some
kind, if the scope holds no others and the object literals that are met have no others in them. -/

namespace PropCatalog

open Syntax

/-- The expressions that a search for a property can follow at one of them. -/
def Syntax.Property.followed : Property → List Expr
  | .pair _ _ value | .spread value => [value]
  | .shorthand span text => [.name span text]
  | _ => []

namespace Scope

/-- Whether expressions of one kind lead to values of a kind of their own. All that a name or a
member stands for is followed, too, and so are the properties of values that are object literals. -/
structure Keeps (scope : Scope) (known holds : Expr → Prop) : Prop where
  value : ∀ name e, scope.get? name = some (.value e) → known e
  property : ∀ name e key, scope.get? name = some (.property e key) → known e
  static : ∀ name definition member e, scope.get? name = some (.class definition) →
    definition.static? member = some e → known e
  assigned : ∀ object member e, scope.assigned? object member = some e → known e
  target : ∀ e span object key, known e → e.unwrap = .member span object key → known object
  literal : ∀ e literal, holds e → e.object? = some literal →
    ∀ property ∈ literal.properties, ∀ e ∈ property.followed, known e
  /-- What is no name can stand for itself. -/
  stops : ∀ e, known e → (∀ span text, e.unwrap ≠ .name span text) → holds e.unwrap

variable {scope : Scope} {known holds : Expr → Prop} {value? : Expr → Option Expr}

/-- What is found in properties is of the kind of the values. -/
theorem searchProperties_holds {inside : ObjectLiteral → List ObjectLiteral → Search}
    {name : String} (values : ∀ e v, known e → value? e = some v → holds v)
    (literals : ∀ e literal searched v, known e → (value? e).bind Expr.object? = some literal →
      (inside literal searched).1 = some v → holds v)
    (properties : List Property) (searched : List ObjectLiteral) (v : Expr)
    (each : ∀ property ∈ properties, ∀ e ∈ property.followed, known e)
    (found : (searchProperties value? inside name properties searched).1 = some v) : holds v := by
  -- A property ends the search with its value, or the search goes on.
  induction properties generalizing searched with
  | nil => cases found
  | cons property rest ih =>
    obtain ⟨here, others⟩ := List.forall_mem_cons.mp each
    cases property with
    | pair start key value =>
      simp only [searchProperties] at found
      split at found
      · exact values value v (here value List.mem_cons_self) found
      · exact ih searched others found
    | shorthand span text =>
      simp only [searchProperties] at found
      split at found
      · exact values (.name span text) v (here _ List.mem_cons_self) found
      · exact ih searched others found
    | spread value =>
      simp only [searchProperties] at found
      split at found
      · exact ih searched others found
      · rename_i literal leads
        split at found
        · rename_i result after within
          refine literals value literal searched v (here value List.mem_cons_self) leads ?_
          rw [within]
          exact found
        · exact ih _ others found
    | _ => exact ih searched others found

namespace Keeps

variable {property? : ObjectLiteral → String → Option Expr}

/-- What is found in the object literal that an expression leads to is of the kind of the values. -/
theorem through (keeps : scope.Keeps known holds)
    (values : ∀ e v, known e → value? e = some v → holds v)
    (properties : ∀ literal name v,
      (∀ property ∈ literal.properties, ∀ e ∈ property.followed, known e) →
      property? literal name = some v → holds v)
    {e v : Expr} {name : String} (start : known e)
    (found : ((value? e).bind Expr.object?).bind (fun literal => property? literal name) = some v) :
    holds v := by
  -- The literal is the value of the expression, and the property is found in it.
  obtain ⟨literal, leads, found⟩ := Option.bind_eq_some_iff.mp found
  obtain ⟨object, leads, same⟩ := Option.bind_eq_some_iff.mp leads
  exact properties literal name v (keeps.literal object literal (values e object start leads) same)
    found

/-- So is what a name leads to. -/
theorem followName (keeps : scope.Keeps known holds)
    (values : ∀ e v, known e → value? e = some v → holds v)
    (properties : ∀ literal name v,
      (∀ property ∈ literal.properties, ∀ e ∈ property.followed, known e) →
      property? literal name = some v → holds v)
    {name : String} {v : Expr} (found : scope.followName value? property? name = some v) :
    holds v := by
  -- It is bound to an expression, or to a property of one.
  unfold Scope.followName at found
  split at found
  · rename_i value bound
    exact values value v (keeps.value name value bound) found
  · rename_i value key bound
    exact keeps.through values properties (keeps.property name value key bound) found
  · cases found

/-- So is what an access leads to. -/
theorem followAccess (keeps : scope.Keeps known holds)
    (values : ∀ e v, known e → value? e = some v → holds v)
    (properties : ∀ literal name v,
      (∀ property ∈ literal.properties, ∀ e ∈ property.followed, known e) →
      property? literal name = some v → holds v)
    {object : Expr} (start : known object) {key : Key} {v : Expr}
    (found : scope.followAccess value? property? object key = some v) : holds v := by
  -- An assignment comes before a static member, and both before the object.
  obtain ⟨name, -, found⟩ := Option.bind_eq_some_iff.mp found
  split at found
  · rename_i text _
    split at found
    · rename_i value given
      exact values value v (keeps.assigned text name value given) found
    · split at found
      · rename_i definition bound
        obtain ⟨value, given, found⟩ := Option.bind_eq_some_iff.mp found
        exact values value v (keeps.static text definition name value bound given) found
      · exact keeps.through values properties start found
  · exact keeps.through values properties start found

/-- In any number of steps, what is found is of the kind of the values. -/
theorem within (keeps : scope.Keeps known holds) (steps : Nat) :
    (∀ e v, known e → scope.valueWithin steps e = some v → holds v) ∧
      ∀ name literal searched v,
        (∀ property ∈ literal.properties, ∀ e ∈ property.followed, known e) →
        (scope.searchWithin steps name literal searched).1 = some v → holds v := by
  -- Each step leads to expressions of the kind that is followed and leaves fewer steps for them.
  induction steps with
  | zero =>
    refine ⟨fun e v _ found => ?_, fun name literal searched v _ found => ?_⟩
    · simp [valueWithin] at found
    · simp [searchWithin] at found
  | succ steps ih =>
    obtain ⟨values, literals⟩ := ih
    have properties (literal : ObjectLiteral) (name : String) :=
      literals name literal []
    refine ⟨fun e v start found => ?_, fun name literal searched v each found => ?_⟩
    · rw [valueWithin] at found
      split at found
      · exact keeps.followName values properties found
      · rename_i span object key same
        cases access : scope.followAccess (scope.valueWithin steps)
            (fun literal name => (scope.searchWithin steps name literal []).1) object key with
        | none =>
          -- An access that leads nowhere stands for itself.
          rw [access] at found
          cases found
          rw [← same]
          exact keeps.stops e start (by simp [same])
        | some inner =>
          rw [access] at found
          cases found
          exact keeps.followAccess values properties (keeps.target e span object key start same)
            access
      · rename_i unnamed _
        cases found
        exact keeps.stops e start unnamed
    · rw [searchWithin] at found
      split at found
      · cases found
      · refine searchProperties_holds values (fun e inner searched v start leads => ?_)
          literal.properties.reverse _ v (fun property member => ?_) found
        · obtain ⟨object, leads, same⟩ := Option.bind_eq_some_iff.mp leads
          exact literals name inner searched v
            (keeps.literal object inner (values e object start leads) same)
        · exact each property (List.mem_reverse.mp member)

end Keeps

end Scope

end PropCatalog
