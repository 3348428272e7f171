import PropCatalog.Scope.Origin

/-! How far the origin of an expression may be away. Each access, each call and each name on the way
to the root counts against one limit, so that an expression keeps the origin of the one that it goes
on from as long as the whole way is short enough. -/

namespace PropCatalog

open Syntax

/-- The expression that a name takes its value from, or a property of it. -/
def Binding.source? : Binding → Option Expr
  | .value e | .property e _ => some e
  | _ => none

namespace Scope

/-- An expression comes from a module, behind a number of accesses and calls and a number of names
that stand for other expressions. At the end, there is an import or a call of `require` that names
the module. -/
inductive ComesFrom (scope : Scope) (origin : String) : Nat → Nat → Expr → Prop where
  | imported {e : Expr} {span : Span} {text : String} (name : e.unwrap = .name span text)
      (bound : scope.get? text = some (.imported origin)) : ComesFrom scope origin 0 0 e
  | required {e callee : Expr} {span : Span} {arguments : List Element}
      (call : e.unwrap = .call span callee arguments)
      (asked : required? callee arguments = some origin) : ComesFrom scope origin 0 0 e
  | access {e object : Expr} {span : Span} {key : Key} {passed followed : Nat}
      (access : e.unwrap = .member span object key)
      (inner : ComesFrom scope origin passed followed object) :
      ComesFrom scope origin (passed + 1) followed e
  | call {e callee : Expr} {span : Span} {arguments : List Element} {passed followed : Nat}
      (call : e.unwrap = .call span callee arguments) (other : required? callee arguments = none)
      (inner : ComesFrom scope origin passed followed callee) :
      ComesFrom scope origin (passed + 1) followed e
  | stands {e value : Expr} {span : Span} {text : String} {passed followed : Nat}
      (name : e.unwrap = .name span text)
      (bound : (scope.get? text).bind Binding.source? = some value)
      (inner : ComesFrom scope origin passed followed value) :
      ComesFrom scope origin passed (followed + 1) e

/-- An expression is made from another one by a number of accesses and calls, with any wrappers in
between. Where `require` is called with the name of a module, a way ends, and so this is no call to
pass. -/
inductive Lengthens (start : Expr) : Nat → Expr → Prop where
  | start : Lengthens start 0 start
  | access {links : Nat} {span : Span} {object : Expr} {key : Key}
      (inner : Lengthens start links object) : Lengthens start (links + 1) (.member span object key)
  | call {links : Nat} {span : Span} {callee : Expr} {arguments : List Element}
      (other : required? callee arguments = none) (inner : Lengthens start links callee) :
      Lengthens start (links + 1) (.call span callee arguments)
  | wrapped {links : Nat} {span : Span} {wrapper : Wrapper} {e : Expr}
      (inner : Lengthens start links e) : Lengthens start links (.wrapped span wrapper e)

variable {scope : Scope} {origin : String} {start e : Expr} {passed followed links steps : Nat}

/-- Only a call of the name `require` itself names a module. -/
theorem required?_eq_none {callee : Expr} (other : ∀ span, callee ≠ .name span "require")
    (arguments : List Element) : required? callee arguments = none := by
  -- The callee would have to be the name.
  unfold required?
  split
  · exact absurd rfl (other _)
  · rfl

namespace ComesFrom

/-- Wrappers around an expression do not change where it comes from. -/
theorem of_unwrap {e' : Expr} (same : e'.unwrap = e.unwrap)
    (comes : scope.ComesFrom origin passed followed e) :
    scope.ComesFrom origin passed followed e' := by
  -- Each way starts at the expression inside the wrappers.
  cases comes with
  | imported name bound => exact .imported (same.trans name) bound
  | required call asked => exact .required (same.trans call) asked
  | access access inner => exact .access (same.trans access) inner
  | call call other inner => exact .call (same.trans call) other inner
  | stands name bound inner => exact .stands (same.trans name) bound inner

/-- What is made from an expression comes from the same module, further away by the accesses and
calls that it is made by. -/
theorem lengthened (comes : scope.ComesFrom origin passed followed start)
    (lengthens : Lengthens start links e) :
    scope.ComesFrom origin (passed + links) followed e := by
  -- Each access and each call adds one to what is passed, and wrappers add nothing.
  induction lengthens with
  | start => exact comes
  | access _ ih => exact .access rfl ih
  | call other _ ih => exact .call rfl other ih
  | wrapped _ ih => exact ih.of_unwrap (by rw [Expr.unwrap])

/-- In one step, the origin is found at the end of the way, or the way gets shorter by an access, a
call or a name. -/
theorem step (comes : scope.ComesFrom origin passed followed e) :
    scope.originStep e = .found origin ∧ passed + followed = 0 ∨
      ∃ next passed' followed', scope.originStep e = .next next ∧
        scope.ComesFrom origin passed' followed' next ∧
        passed' + followed' + 1 = passed + followed := by
  -- The way starts with its own first link.
  cases comes with
  | imported name bound => exact .inl ⟨by simp [originStep, name, bound], rfl⟩
  | required call asked => exact .inl ⟨by simp [originStep, call, asked], rfl⟩
  | access access inner => exact .inr ⟨_, _, _, by simp [originStep, access], inner, by omega⟩
  | call call other inner =>
    exact .inr ⟨_, _, _, by simp [originStep, call, other], inner, by omega⟩
  | stands name bound inner =>
    -- Of the bindings, only values and their properties stand for other expressions.
    refine .inr ⟨_, _, _, ?_, inner, by omega⟩
    obtain ⟨binding, known, source⟩ := Option.bind_eq_some_iff.1 bound
    cases binding <;> cases source <;> simp [originStep, name, known]

/-- There is no other origin, and no longer or shorter way to it. -/
theorem unique {origin' : String} {passed' followed' : Nat}
    (comes : scope.ComesFrom origin passed followed e)
    (comes' : scope.ComesFrom origin' passed' followed' e) :
    origin = origin' ∧ passed + followed = passed' + followed' := by
  -- Both ways take the same steps, as the expression alone decides on the next one.
  induction total : passed + followed generalizing e passed followed passed' followed' with
  | zero =>
    rcases comes.step with ⟨found, -⟩ | ⟨_, _, _, _, _, longer⟩
    · rcases comes'.step with ⟨found', none⟩ | ⟨_, _, _, goes, -⟩
      · rw [found] at found'
        cases found'
        exact ⟨rfl, none.symm⟩
      · rw [found] at goes
        cases goes
    · omega
  | succ total ih =>
    rcases comes.step with ⟨-, none⟩ | ⟨next, _, _, goes, later, shorter⟩
    · omega
    · rcases comes'.step with ⟨found, -⟩ | ⟨next', _, _, goes', later', shorter'⟩
      · rw [goes] at found
        cases found
      · rw [goes] at goes'
        cases goes'
        obtain ⟨same, long⟩ := ih later later' (by omega)
        exact ⟨same, by omega⟩

/-- What is found in one step is at the end of its way. -/
theorem of_found (found : scope.originStep e = .found origin) : scope.ComesFrom origin 0 0 e := by
  -- A module is found at a call of `require` or at an imported name.
  unfold originStep at found
  split at found
  · cases found
  · rename_i call
    split at found <;> cases found
    rename_i asked
    exact .required call asked
  · rename_i name
    split at found <;> cases found
    rename_i bound
    exact .imported name bound
  · cases found

/-- A way that is gone on after one step is longer by an access, a call or a name. -/
theorem of_next {next : Expr} (goes : scope.originStep e = .next next)
    (comes : scope.ComesFrom origin passed followed next) :
    ∃ passed' followed', scope.ComesFrom origin passed' followed' e ∧
      passed' + followed' = passed + followed + 1 := by
  -- The step has gone to the object of an access, the callee of a call or what a name stands for.
  unfold originStep at goes
  split at goes
  · rename_i access
    cases goes
    exact ⟨_, _, .access access comes, by omega⟩
  · rename_i call
    split at goes <;> cases goes
    rename_i other
    exact ⟨_, _, .call call other comes, by omega⟩
  · rename_i name
    split at goes <;> cases goes
    all_goals
      rename_i bound
      exact ⟨_, _, .stands name (by simp [bound, Binding.source?]) comes, by omega⟩
  · cases goes

end ComesFrom

/-- An origin is found exactly when fewer accesses, calls and names than steps lead to it. -/
theorem originWithin_eq_some_iff :
    scope.originWithin steps e = some origin ↔
      ∃ passed followed, scope.ComesFrom origin passed followed e ∧ passed + followed < steps := by
  -- The way to the origin is gone step by step, and each step takes one off the limit.
  induction steps generalizing e with
  | zero => simp [originWithin]
  | succ steps ih =>
    rw [originWithin]
    constructor
    · intro found
      split at found
      · rename_i here
        cases found
        exact ⟨0, 0, .of_found here, Nat.succ_pos _⟩
      · rename_i goes
        obtain ⟨passed, followed, comes, short⟩ := ih.1 found
        obtain ⟨passed', followed', comes, longer⟩ := comes.of_next goes
        exact ⟨passed', followed', comes, by omega⟩
      · cases found
    · rintro ⟨passed, followed, comes, short⟩
      rcases comes.step with ⟨here, -⟩ | ⟨next, passed', followed', goes, comes, longer⟩
      · simp only [here]
      · simp only [goes]
        exact ih.2 ⟨passed', followed', comes, by omega⟩

/-- Accesses and calls count against the limit on names: what is made from an expression with an
origin has the same one as long as the accesses and calls on the whole way to the root, those that
it is made by included, and the names on that way are fewer than the limit together. Otherwise it
has none. -/
theorem origin?_lengthened (known : scope.origin? start = some origin) :
    ∃ passed followed, scope.ComesFrom origin passed followed start ∧
      ∀ links e, Lengthens start links e →
        scope.origin? e = if passed + links + followed < depthLimit then some origin else none := by
  -- There is one way to an origin, and its length decides whether it is found.
  obtain ⟨passed, followed, comes, -⟩ := originWithin_eq_some_iff.1 known
  refine ⟨passed, followed, comes, fun links e lengthens => ?_⟩
  have further := comes.lengthened lengthens
  split
  · rename_i short
    exact originWithin_eq_some_iff.2 ⟨_, _, further, short⟩
  · -- Any other way to an origin would be this one, which is too long.
    rename_i long
    refine Option.eq_none_iff_forall_ne_some.2 fun other found => long ?_
    obtain ⟨_, _, comes', short⟩ := originWithin_eq_some_iff.1 found
    obtain ⟨-, same⟩ := further.unique comes'
    omega

namespace Namespaced

/-- `const PT = React.PropTypes` behind `import React from 'react'`. -/
def names : Scope where
  bindings :=
    [("PT", .value (.member ⟨38, 53⟩ (.name ⟨38, 43⟩ "React") (.name "PropTypes"))),
      ("React", .imported "react")]
  assignments := []

/-- `PT.shape`. -/
def shape : Expr :=
  .member ⟨55, 63⟩ (.name ⟨55, 57⟩ "PT") (.name "shape")

/-- `PT` with as many accesses to `x` behind it. -/
def chain : Nat → Expr
  | 0 => .name ⟨55, 57⟩ "PT"
  | links + 1 => .member ⟨55, 59 + 2 * links⟩ (chain links) (.name "x")

end Namespaced

/-- A shape that is required comes from the module that the alias of its namespace does. -/
theorem origin?_lengthened_aliased :
    Namespaced.names.origin? Namespaced.shape = some "react" ∧
    Lengthens Namespaced.shape 2
      (.member ⟨55, 78⟩ (.call ⟨55, 67⟩ Namespaced.shape [.item (.object ⟨64, 66⟩ [])])
        (.name "isRequired")) ∧
    Namespaced.names.origin?
      (.member ⟨55, 78⟩ (.call ⟨55, 67⟩ Namespaced.shape [.item (.object ⟨64, 66⟩ [])])
        (.name "isRequired")) = some "react" := by
  -- The shape is two links long in itself and follows one name.
  have known : Namespaced.names.origin? Namespaced.shape = some "react" := rfl
  have lengthens : Lengthens Namespaced.shape 2
      (.member ⟨55, 78⟩ (.call ⟨55, 67⟩ Namespaced.shape [.item (.object ⟨64, 66⟩ [])])
        (.name "isRequired")) :=
    .access (.call (required?_eq_none (by simp [Namespaced.shape]) _) .start)
  obtain ⟨passed, followed, comes, along⟩ := origin?_lengthened known
  -- The way goes through two accesses and follows one name, so that two more links fit.
  have way : Namespaced.names.ComesFrom "react" 2 1 Namespaced.shape :=
    .access rfl (.stands rfl rfl (.access rfl (.imported rfl rfl)))
  obtain ⟨-, long⟩ := comes.unique way
  have short : passed + 2 + followed < depthLimit := by
    unfold depthLimit
    omega
  exact ⟨known, lengthens, (along 2 _ lengthens).trans (if_pos short)⟩

/-- One access more can take the origin away, although only one name is followed. -/
theorem origin?_chain :
    Namespaced.names.origin? (Namespaced.chain 29) = some "react" ∧
    Namespaced.chain 30 = .member ⟨55, 117⟩ (Namespaced.chain 29) (.name "x") ∧
    Namespaced.names.origin? (Namespaced.chain 30) = none :=
  ⟨rfl, rfl, rfl⟩

end Scope

end PropCatalog
