import PropCatalog.Record.Spread
import PropCatalog.Scope.Origin

/-! Scopes that answer all questions alike: no value, property or origin hangs on anything else in
them. -/

namespace PropCatalog

open Syntax

namespace Scope

/-- Two scopes agree when every name and every assigned member stands for the same in both. -/
structure Agree (scope other : Scope) : Prop where
  get? : scope.get? = other.get?
  assigned? : scope.assigned? = other.assigned?

variable {scope other : Scope}

/-- What names stand for decides where expressions come from. -/
theorem origin?_congr (get? : scope.get? = other.get?) : scope.origin? = other.origin? := by
  -- Each step looks into the scope once and goes on with one step less.
  have within : ∀ steps, scope.originWithin steps = other.originWithin steps := by
    intro steps
    induction steps with
    | zero => rfl
    | succ steps ih =>
      funext e
      have step : scope.originStep e = other.originStep e := by
        simp only [originStep, get?]
      simp only [originWithin, step, ih]
  exact within depthLimit

namespace Agree

theorem followName (agree : scope.Agree other) : scope.followName = other.followName := by
  -- A name is looked up once.
  funext value? property? name
  simp only [Scope.followName, agree.get?]

theorem followAccess (agree : scope.Agree other) : scope.followAccess = other.followAccess := by
  -- The object of an access can be a name to be looked up.
  funext value? property? object key
  simp only [Scope.followAccess, agree.get?, agree.assigned?]

/-- In scopes that agree, values and properties are the same in any number of steps. -/
theorem within (agree : scope.Agree other) (steps : Nat) :
    scope.valueWithin steps = other.valueWithin steps ∧
      scope.searchWithin steps = other.searchWithin steps := by
  -- Each step looks into the scope once and goes on with fewer steps.
  induction steps with
  | zero =>
    constructor
    · funext e
      simp only [valueWithin]
    · funext name literal searched
      simp only [searchWithin]
  | succ steps ih =>
    constructor
    · funext e
      simp only [valueWithin, ih.1, ih.2, agree.followName, agree.followAccess]
    · funext name literal searched
      simp only [searchWithin, ih.1, ih.2]

theorem value? (agree : scope.Agree other) : scope.value? = other.value? :=
  (agree.within (depthLimit + 1)).1

theorem object? (agree : scope.Agree other) : scope.object? = other.object? := by
  -- An object literal is found through a value.
  funext e
  simp only [Scope.object?, agree.value?]

theorem property? (agree : scope.Agree other) : scope.property? = other.property? := by
  -- The search of a literal agrees at the limit.
  funext literal name
  simp only [Scope.property?, (agree.within (depthLimit + 1)).2]

theorem keyName? (agree : scope.Agree other) : scope.keyName? = other.keyName? := by
  -- A computed key is named by its value.
  funext key
  simp only [Scope.keyName?, agree.value?]

theorem origin? (agree : scope.Agree other) : scope.origin? = other.origin? :=
  origin?_congr agree.get?

theorem expand (agree : scope.Agree other) {α : Type} (pick? : Property → Option (String × α)) :
    scope.expand pick? = other.expand pick? := by
  -- Spreads lead to the same literals.
  have entries : ∀ expand, scope.addEntries pick? expand = other.addEntries pick? expand := by
    intro expand
    funext before property
    cases property <;> simp only [addEntries, agree.object?]
  have within : ∀ levels, scope.expandWithin pick? levels = other.expandWithin pick? levels := by
    intro levels
    induction levels with
    | zero => rfl
    | succ levels ih =>
      funext path literal expansions
      simp only [expandWithin, entries, ih]
  funext literal
  simp only [Scope.expand, within]

end Agree

end Scope

end PropCatalog
