import PropCatalog.Proofs.Spread.Unrolling

/-! Lookups of a property in an object literal and the literals spread in it. A lookup ends at the
last property of the name within one literal, but goes on behind a spread in which it has found no
value. -/

namespace PropCatalog.Scope

open Syntax

/-- What the value of a property leads to. -/
def propertyValue? (scope : Scope) : Property → Option Expr
  | .pair _ _ value => scope.value? value
  | .shorthand span text => scope.value? (.name span text)
  | _ => none

/-- The properties that bear a name, the last one first. -/
def bearing (scope : Scope) (name : String) (properties : List Property) : List Property :=
  properties.reverse.filter fun property => scope.propertyName? property = some name

/-- The expressions that a lookup of a name resolves at a property: what stands in its brackets, its
value if it bears the name, and what it spreads. -/
def resolved (scope : Scope) (name : String) : Property → List Expr
  | .pair _ key value =>
    let brackets := match key with
      | .computed e => [e]
      | _ => []
    brackets ++ if scope.keyName? key = some name then [value] else []
  | .shorthand span text => if text = name then [.name span text] else []
  | .spread value => [value]
  | _ => []

/-- A lookup does not reach the limit: on every path of spreads there are steps left for the literal
at its end, and enough of them for every expression that is resolved there. -/
def LimitFree (scope : Scope) (name : String) (literal : ObjectLiteral) : Prop :=
  -- Every spread on the way takes one of the steps that there are at the start.
  ∀ inner rest, scope.Trail literal (inner :: rest) → rest.length ≤ depthLimit ∧
    ∀ property ∈ inner.properties, ∀ e ∈ scope.resolved name property,
      scope.valueWithin (depthLimit - rest.length) e = scope.value? e

/-- The properties of a name that a lookup tries, the last one first. A property hides those before
it in its own literal, whether its value is known or not, but none outside of that literal. -/
inductive Visible (scope : Scope) (name : String) : List Property → List Property → Prop where
  | nil : Visible scope name [] []
  -- A property of the name ends the lookup in its literal.
  | here {property : Property} {before : List Property}
      (named : scope.propertyName? property = some name) :
      Visible scope name (property :: before) [property]
  | other {property : Property} {before tried : List Property} (own : property.isSpread = false)
      (unnamed : scope.propertyName? property ≠ some name)
      (others : Visible scope name before tried) : Visible scope name (property :: before) tried
  | nowhere {value : Expr} {before tried : List Property} (unknown : scope.object? value = none)
      (others : Visible scope name before tried) :
      Visible scope name (.spread value :: before) tried
  -- What stands before a spread is tried behind what is tried in the spread literal.
  | enter {value : Expr} {literal : ObjectLiteral} {before inner tried : List Property}
      (leads : scope.object? value = some literal)
      (inside : Visible scope name literal.properties.reverse inner)
      (others : Visible scope name before tried) :
      Visible scope name (.spread value :: before) (inner ++ tried)

variable {scope : Scope} {name : String}

/-- A spread bears no name. -/
theorem isSpread_of_named {property : Property} (named : scope.propertyName? property = some name) :
    property.isSpread = false := by
  cases property <;> simp_all [propertyName?, Property.isSpread]

namespace Visible

/-- A lookup tries one list of properties only. -/
theorem unique {properties tried others : List Property}
    (visible : scope.Visible name properties tried)
    (again : scope.Visible name properties others) : tried = others := by
  -- The first property and its name leave one rule for each step.
  induction visible generalizing others with
  | nil => cases again; rfl
  | here named =>
    cases again with
    | here => rfl
    | other _ unnamed _ => exact absurd named unnamed
    | nowhere | enter => simp [propertyName?] at named
  | other own unnamed _ ih =>
    cases again with
    | here named => exact absurd named unnamed
    | other _ _ rest => exact ih rest
    | nowhere | enter => simp [Property.isSpread] at own
  | nowhere unknown _ ih =>
    cases again with
    | here named => simp [propertyName?] at named
    | other own _ _ => simp [Property.isSpread] at own
    | nowhere _ rest => exact ih rest
    | enter leads _ _ => simp [unknown] at leads
  | enter leads _ _ inside ih =>
    cases again with
    | here named => simp [propertyName?] at named
    | other own _ _ => simp [Property.isSpread] at own
    | nowhere unknown _ => simp [unknown] at leads
    | enter leads' within rest =>
      cases leads.symm.trans leads'
      rw [inside within, ih rest]

/-- What comes before other properties is tried behind them or hidden by them. -/
theorem exists_append {properties before tried others : List Property}
    (visible : scope.Visible name properties tried) (behind : scope.Visible name before others) :
    ∃ all, scope.Visible name (properties ++ before) all := by
  -- A property of the name ends the walk, and otherwise it goes on.
  induction visible with
  | nil => exact ⟨others, behind⟩
  | here named => exact ⟨_, .here named⟩
  | other own unnamed _ ih =>
    obtain ⟨all, further⟩ := ih
    exact ⟨_, .other own unnamed further⟩
  | nowhere unknown _ ih =>
    obtain ⟨all, further⟩ := ih
    exact ⟨_, .nowhere unknown further⟩
  | enter leads inside _ _ ih =>
    obtain ⟨all, further⟩ := ih
    exact ⟨_, .enter leads inside further⟩

/-- A lookup tries only properties that bear the name in source order with spread literals in place,
and the last of them first. -/
theorem bearing {properties tried : List Property} (visible : scope.Visible name properties tried) :
    ∀ path flat, scope.Unrolls (fun _ _ => False) path properties.reverse flat →
      tried.Sublist (scope.bearing name flat) ∧ tried.head? = (scope.bearing name flat).head? := by
  -- The first of the reversed properties is the last one that the walk meets.
  induction visible with
  | nil =>
    intro path flat walked
    cases walked
    simp [Scope.bearing]
  | @here property before named =>
    -- It is the last one met and bears the name.
    intro path flat walked
    rw [List.reverse_cons] at walked
    obtain ⟨first, last, rfl, -, walked⟩ := walked.of_append
    obtain rfl := walked.unique (.own (isSpread_of_named named) .nil)
    simp [Scope.bearing, named]
  | other own unnamed _ ih =>
    -- It is the last one met but does not bear the name.
    intro path flat walked
    rw [List.reverse_cons] at walked
    obtain ⟨first, last, rfl, walkedFirst, walked⟩ := walked.of_append
    obtain rfl := walked.unique (.own own .nil)
    simpa [Scope.bearing, unnamed] using ih path first walkedFirst
  | nowhere unknown _ ih =>
    intro path flat walked
    rw [List.reverse_cons] at walked
    obtain ⟨first, last, rfl, walkedFirst, walked⟩ := walked.of_append
    obtain rfl := walked.unique (.nowhere unknown .nil)
    simpa using ih path first walkedFirst
  | @enter value literal before inner tried leads _ _ ihInside ih =>
    -- What bears the name in the spread literal comes behind what bears it before the spread.
    intro path flat walked
    rw [List.reverse_cons] at walked
    obtain ⟨first, last, rfl, walkedFirst, walked⟩ := walked.of_append
    rcases walked.of_leads leads with ⟨shut, _⟩ | ⟨_, inside, nothing, rfl, walkedInside, walked⟩
    · exact shut.elim
    · cases walked
      obtain ⟨within, headInside⟩ := ihInside _ inside (by simpa using walkedInside)
      obtain ⟨others, headOthers⟩ := ih path first walkedFirst
      have parts : scope.bearing name (first ++ (inside ++ [])) =
          scope.bearing name inside ++ scope.bearing name first := by
        simp [Scope.bearing]
      rw [parts]
      exact ⟨within.append others, by simp only [List.head?_append, headInside, headOthers]⟩

end Visible

/-- What a walk passes through without being shut out can be looked through, too. -/
theorem Unrolls.exists_visible {path : List ObjectLiteral} {properties flat : List Property}
    (walked : scope.Unrolls (fun _ _ => False) path properties flat) (name : String) :
    ∃ tried, scope.Visible name properties.reverse tried := by
  -- The lookup goes through the same literals from their other end.
  induction walked with
  | nil => exact ⟨[], .nil⟩
  | @own path property rest met own _ ih =>
    obtain ⟨others, visible⟩ := ih
    rw [List.reverse_cons]
    by_cases named : scope.propertyName? property = some name
    · exact visible.exists_append (.here named)
    · exact visible.exists_append (.other own named .nil)
  | nowhere unknown _ ih =>
    obtain ⟨others, visible⟩ := ih
    rw [List.reverse_cons]
    exact visible.exists_append (.nowhere unknown .nil)
  | closed _ shut _ _ => exact shut.elim
  | enter leads _ _ _ ihInside ih =>
    obtain ⟨others, visible⟩ := ih
    obtain ⟨inner, inside⟩ := ihInside
    rw [List.reverse_cons]
    exact visible.exists_append (.enter leads inside .nil)

section Searching

variable {value? : Expr → Option Expr} (inside : ObjectLiteral → List ObjectLiteral → Search)
  {property : Property} (before : List Property) (searched : List ObjectLiteral)

/-- Keys have the names that they have without a limit when their brackets are resolved. -/
theorem nameOfKey?_of_resolved {start : Nat} {key : Key} {value : Expr}
    (settled : ∀ e ∈ scope.resolved name (.pair start key value), value? e = scope.value? e) :
    nameOfKey? value? key = scope.keyName? key := by
  -- Only brackets hold something to be resolved.
  cases key with
  | computed e => simp [nameOfKey?, keyName?, settled e (by simp [resolved])]
  | _ => rfl

/-- A property of the name ends the search with what its value leads to. -/
theorem searchProperties_here (named : scope.propertyName? property = some name)
    (settled : ∀ e ∈ scope.resolved name property, value? e = scope.value? e) :
    searchProperties value? inside name (property :: before) searched =
      (scope.propertyValue? property, searched) := by
  -- The name has been resolved in the same way, and so is the value.
  cases property with
  | pair start key value =>
    have key := nameOfKey?_of_resolved settled
    simp only [propertyName?] at named
    have led : value? value = scope.value? value := settled value (by simp [resolved, named])
    simp [searchProperties, propertyValue?, key, named, led]
  | shorthand span text =>
    obtain rfl : text = name := by simpa [propertyName?] using named
    have led : value? (.name span text) = scope.value? (.name span text) :=
      settled _ (by simp [resolved])
    simp [searchProperties, propertyValue?, led]
  | _ => simp [propertyName?] at named

/-- A property of another name is passed over. -/
theorem searchProperties_other (own : property.isSpread = false)
    (unnamed : scope.propertyName? property ≠ some name)
    (settled : ∀ e ∈ scope.resolved name property, value? e = scope.value? e) :
    searchProperties value? inside name (property :: before) searched =
      searchProperties value? inside name before searched := by
  -- Methods and accessors are passed over whatever their name.
  cases property with
  | pair start key value =>
    have key := nameOfKey?_of_resolved settled
    simp only [propertyName?] at unnamed
    simp [searchProperties, key, unnamed]
  | shorthand span text =>
    have differs : text ≠ name := by simpa [propertyName?] using unnamed
    simp [searchProperties, differs]
  | spread value => simp [Property.isSpread] at own
  | _ => rfl

/-- A spread that leads nowhere is passed over. -/
theorem searchProperties_nowhere {value : Expr}
    (unknown : (value? value).bind Expr.object? = none) :
    searchProperties value? inside name (.spread value :: before) searched =
      searchProperties value? inside name before searched := by
  simp [searchProperties, unknown]

end Searching

/-- A lookup in a literal finds nothing. -/
def Barren (scope : Scope) (name : String) (literal : ObjectLiteral) : Prop :=
  ∀ tried, scope.Visible name literal.properties.reverse tried →
    tried.findSome? scope.propertyValue? = none

/-- What has been searched is on the path, or there is nothing to be found in it. -/
def Spent (scope : Scope) (name : String) (path searched : List ObjectLiteral) : Prop :=
  ∀ other ∈ searched, other ∈ path ∨ scope.Barren name other

/-- How a search ends that tries some properties: with the first value among them, or without one
and with nothing to be found in all that has been searched outside of the path. -/
structure Outcome (scope : Scope) (name : String) (path : List ObjectLiteral)
    (tried : List Property) (search : Search) : Prop where
  found : search.1 = tried.findSome? scope.propertyValue?
  spent : search.1 = none → scope.Spent name path search.2

section Searching

variable {value? : Expr → Option Expr} {inside : ObjectLiteral → List ObjectLiteral → Search}
  {path searched : List ObjectLiteral} {literal : ObjectLiteral} {inner tried : List Property}

/-- A search of a literal that is not on the path ends as one through its properties, even if it is
over at once because the literal has been searched before. -/
theorem Outcome.searchWithin {steps : Nat} (fresh : literal ∉ path)
    (visible : scope.Visible name literal.properties.reverse inner)
    (spent : scope.Spent name path searched)
    (entered : scope.Spent name (literal :: path) (literal :: searched) →
      scope.Outcome name (literal :: path) inner
        (searchProperties (scope.valueWithin steps) (scope.searchWithin steps name) name
          literal.properties.reverse (literal :: searched))) :
    scope.Outcome name path inner (scope.searchWithin (steps + 1) name literal searched) := by
  -- A literal that has been searched is not searched again, and is not on the path here.
  by_cases again : literal ∈ searched
  · -- Nothing was found the first time.
    have nothing := (spent literal again).resolve_left fresh inner visible
    have repeats : scope.searchWithin (steps + 1) name literal searched = (none, searched) := by
      simp [Scope.searchWithin, again]
    rw [repeats]
    exact ⟨nothing.symm, fun _ => spent⟩
  · have enters : scope.searchWithin (steps + 1) name literal searched =
        searchProperties (scope.valueWithin steps) (scope.searchWithin steps name) name
          literal.properties.reverse (literal :: searched) := by
      simp [Scope.searchWithin, again]
    have outcome := entered fun other member => by
      rcases List.mem_cons.mp member with rfl | member
      · exact Or.inl (List.mem_cons_self ..)
      · exact (spent other member).imp_left (List.mem_cons_of_mem _)
    rw [enters]
    refine ⟨outcome.found, fun nothing other member => ?_⟩
    -- If nothing was found in the literal, it is one of those that there is nothing in.
    rcases outcome.spent nothing other member with onPath | barren
    · rcases List.mem_cons.mp onPath with rfl | onPath
      · refine Or.inr fun others again => ?_
        rw [again.unique visible, ← outcome.found, nothing]
      · exact Or.inl onPath
    · exact Or.inr barren

/-- A search goes on before a spread if no value is found in the literal that it leads to. -/
theorem Outcome.spread {value : Expr} {before : List Property}
    (leads : (value? value).bind Expr.object? = some literal)
    (within : scope.Outcome name path inner (inside literal searched))
    (others : scope.Spent name path (inside literal searched).2 → scope.Outcome name path tried
      (searchProperties value? inside name before (inside literal searched).2)) :
    scope.Outcome name path (inner ++ tried)
      (searchProperties value? inside name (.spread value :: before) searched) := by
  -- What the search of the spread literal ends with decides whether it goes on.
  cases ended : inside literal searched with
  | mk result after =>
    rw [ended] at within others
    cases result with
    | some found =>
      -- The value comes from the spread literal, whatever stands before the spread.
      have stops : searchProperties value? inside name (.spread value :: before) searched =
          (some found, after) := by
        simp [searchProperties, leads, ended]
      rw [stops]
      refine ⟨?_, fun nothing => by simp at nothing⟩
      rw [List.findSome?_append, ← within.found, Option.some_or]
    | none =>
      -- This is the step that does not tell an unknown value from a missing property.
      have goesOn : searchProperties value? inside name (.spread value :: before) searched =
          searchProperties value? inside name before after := by
        simp [searchProperties, leads, ended]
      have outcome := others (within.spent rfl)
      rw [goesOn]
      refine ⟨?_, outcome.spent⟩
      rw [List.findSome?_append, ← within.found, Option.none_or, outcome.found]

end Searching

section Limit

variable {root outer : ObjectLiteral} {rest : List ObjectLiteral} {steps : Nat}

/-- At the end of a path the steps that are left are enough for what is resolved there. -/
theorem LimitFree.settled (free : scope.LimitFree name root)
    (along : scope.Trail root (outer :: rest)) (depth : rest.length + steps = depthLimit)
    {property : Property} (member : property ∈ outer.properties) :
    ∀ e ∈ scope.resolved name property, scope.valueWithin steps e = scope.value? e := by
  -- The path has as many literals as steps have been taken.
  obtain rfl : steps = depthLimit - rest.length := by omega
  exact (free outer rest along).2 property member

/-- At the end of a path the steps that are left are enough to tell where a spread leads. -/
theorem LimitFree.leads (free : scope.LimitFree name root)
    (along : scope.Trail root (outer :: rest)) (depth : rest.length + steps = depthLimit)
    {value : Expr} (member : .spread value ∈ outer.properties) :
    (scope.valueWithin steps value).bind Expr.object? = scope.object? value := by
  rw [free.settled along depth member value (by simp [resolved]), object?]

/-- A step further along a path there are steps left. -/
theorem LimitFree.steps_pos (free : scope.LimitFree name root) {inner : ObjectLiteral}
    (along : scope.Trail root (inner :: outer :: rest))
    (depth : rest.length + steps = depthLimit) : 0 < steps := by
  -- The path is within the limit with one literal more.
  have deep := (free inner (outer :: rest) along).1
  simp only [List.length_cons] at deep
  omega

end Limit

/-- Without circles and within the limit, a search through the properties of a literal on a path
finds the first value among those that it tries. -/
theorem Visible.outcome {root : ObjectLiteral} (acyclic : scope.Acyclic root)
    (free : scope.LimitFree name root) {reversed tried : List Property}
    (visible : scope.Visible name reversed tried) :
    ∀ outer rest steps searched, scope.Trail root (outer :: rest) → reversed ⊆ outer.properties →
      rest.length + steps = depthLimit → scope.Spent name (outer :: rest) searched →
      scope.Outcome name (outer :: rest) tried
        (searchProperties (scope.valueWithin steps) (scope.searchWithin steps name) name reversed
          searched) := by
  -- Without circles, a literal that was searched before is not on the path.
  induction visible with
  | nil => exact fun _ _ _ searched _ _ _ spent => ⟨rfl, fun _ => spent⟩
  | @here property before named =>
    intro outer rest steps searched along within depth spent
    obtain ⟨member, _⟩ := List.cons_subset.mp within
    rw [searchProperties_here _ _ _ named (free.settled along depth member)]
    exact ⟨by simp, fun _ => spent⟩
  | other own unnamed _ ih =>
    intro outer rest steps searched along within depth spent
    obtain ⟨member, within⟩ := List.cons_subset.mp within
    rw [searchProperties_other _ _ _ own unnamed (free.settled along depth member)]
    exact ih outer rest steps searched along within depth spent
  | nowhere unknown _ ih =>
    intro outer rest steps searched along within depth spent
    obtain ⟨member, within⟩ := List.cons_subset.mp within
    rw [searchProperties_nowhere _ _ _ ((free.leads along depth member).trans unknown)]
    exact ih outer rest steps searched along within depth spent
  | @enter value literal before inner tried leads inside _ ihInside ih =>
    intro outer rest steps searched along within depth spent
    obtain ⟨member, within⟩ := List.cons_subset.mp within
    have spreads : scope.Spreads outer literal := ⟨value, member, leads⟩
    have fresh := along.fresh_of_acyclic acyclic spreads
    have step := along.step spreads fresh
    -- The literal is searched with one step less, along the longer path.
    have positive := free.steps_pos step depth
    obtain ⟨fewer, rfl⟩ : ∃ fewer, steps = fewer + 1 := ⟨steps - 1, by omega⟩
    refine .spread ((free.leads along depth member).trans leads) ?_
      (ih outer rest (fewer + 1) _ along within depth)
    refine .searchWithin fresh inside spent ?_
    exact ihInside literal (outer :: rest) fewer _ step (by simp)
      (by simp only [List.length_cons]; omega)

/-- Within the limit, no path goes through more literals than there are steps for. -/
theorem LimitFree.shallow {literal : ObjectLiteral} (free : scope.LimitFree name literal) :
    scope.Shallow (depthLimit + 1) literal := by
  -- A path has one literal more than has been gone through before its end.
  intro trail along
  cases trail with
  | nil => exact Nat.zero_le _
  | cons inner rest => exact Nat.succ_le_succ (free inner rest along).1

/-- Without circles, the properties of a literal can be put in place. -/
theorem exists_inPlace {limit : Nat} {literal : ObjectLiteral} (acyclic : scope.Acyclic literal)
    (shallow : scope.Shallow limit literal) : ∃ flat, scope.InPlace literal flat :=
  -- No spread along a path leads back to the path.
  exists_unrolls shallow
    (fun _ _ _ along spreads _ => along.fresh_of_acyclic acyclic spreads) limit literal [] .start
    (by simp) literal.properties (List.Subset.refl _)

/-- How a lookup compares with the last property of a name, in source order with spread literals in
place, when spreads form no circle and the limit is not reached. It finds the first value among the
properties that it tries, which bear the name, the last one first. So it finds what the last
property leads to exactly when that is a value, or when none of the properties that are tried leads
to one; otherwise it finds the value of a property that the last one overrides. -/
theorem property?_eq_last_iff {literal : ObjectLiteral} (acyclic : scope.Acyclic literal)
    (free : scope.LimitFree name literal) :
    ∃ flat tried, (∀ order, scope.InPlace literal order ↔ order = flat) ∧
      (∀ others, scope.Visible name literal.properties.reverse others ↔ others = tried) ∧
      let named := scope.bearing name flat
      let last? := named.head?.bind scope.propertyValue?
      tried.Sublist named ∧ tried.head? = named.head? ∧
      scope.property? literal name = tried.findSome? scope.propertyValue? ∧
      (scope.property? literal name = last? ↔
        last?.isSome ∨ ∀ property ∈ tried, scope.propertyValue? property = none) := by
  -- There is one order of properties in place and one list of those that are tried.
  obtain ⟨flat, inPlace⟩ := exists_inPlace acyclic free.shallow
  obtain ⟨tried, visible⟩ := inPlace.exists_visible name
  obtain ⟨within, heads⟩ := visible.bearing [literal] flat (by
    rw [List.reverse_reverse]
    exact inPlace)
  have found : scope.property? literal name = tried.findSome? scope.propertyValue? := by
    have spent : scope.Spent name [literal] [literal] := fun other member => Or.inl member
    have outcome := visible.outcome acyclic free literal [] depthLimit [literal] .start (by simp)
      (by simp) spent
    simpa [property?, searchWithin] using outcome.found
  refine ⟨flat, tried, fun order => ⟨fun other => other.unique inPlace, fun same => same ▸ inPlace⟩,
    fun others => ⟨fun other => other.unique visible, fun same => same ▸ visible⟩, within, heads,
    found, ?_⟩
  -- The last property is the first one that is tried.
  rw [found, ← heads]
  cases tried with
  | nil => simp
  | cons last earlier =>
    cases value : scope.propertyValue? last with
    | some found => simp [value]
    | none => simp [value]

/-- A lookup does not reach the limit when a short list has the targets of its members and all of
their expressions are resolved alike in any number of steps that a path among them leaves. -/
theorem limitFree_of_closed {literal : ObjectLiteral} {literals : List ObjectLiteral}
    (start : literal ∈ literals) (closed : ∀ outer ∈ literals, scope.targets outer ⊆ literals)
    (short : literals.length ≤ depthLimit)
    (settled : ∀ inner ∈ literals, ∀ property ∈ inner.properties,
      ∀ e ∈ scope.resolved name property, ∀ depth < literals.length,
        scope.valueWithin (depthLimit - depth) e = scope.value? e) :
    scope.LimitFree name literal := by
  -- A path goes through each literal of the list once at most.
  intro inner rest along
  have bound := shallow_of_encard_le (encard_reaches_le start closed) _ along
  simp only [List.length_cons] at bound
  have member := (along.reaches inner (List.mem_cons_self ..)).mem_of_closed start closed
  refine ⟨by omega, fun property belongs e resolves => ?_⟩
  exact settled inner member property belongs e resolves rest.length (by omega)

namespace Overriding

/-- The property `x: imported`. -/
def late : Property := .pair 43 (.name "x") (.name ⟨46, 54⟩ "imported")

/-- The literal `{ x: imported }`. -/
def base : ObjectLiteral where
  span := ⟨41, 56⟩
  properties := [late]

/-- The literal `{ x: 'early', ...base }`. -/
def overriding : ObjectLiteral where
  span := ⟨68, 91⟩
  properties := [.pair 70 (.name "x") (.string ⟨73, 80⟩ "early"), .spread (.name ⟨85, 89⟩ "base")]

/-- A module in which a literal spreads another one whose property has an imported value. -/
def bindings : Scope where
  bindings := [("base", .value (.object base.span base.properties)), ("imported", .imported "./x")]
  assignments := []

theorem acyclic : Overriding.bindings.Acyclic overriding := by
  -- A spread leads to a literal that comes before in the text.
  have start : overriding ∈ [overriding, base] := by simp
  exact acyclic_of_falls start (fun literal => literal.span.lo) (by decide +kernel)

theorem limitFree : Overriding.bindings.LimitFree "x" overriding := by
  -- Only the two literals are in reach.
  have start : overriding ∈ [overriding, base] := by simp
  exact limitFree_of_closed start (by decide +kernel) (by decide) (by decide +kernel)

end Overriding

theorem property?_eq_last_iff_overriding :
    Overriding.bindings.Acyclic Overriding.overriding ∧
    Overriding.bindings.LimitFree "x" Overriding.overriding ∧
    ∃ flat tried,
      (∀ order, Overriding.bindings.InPlace Overriding.overriding order ↔ order = flat) ∧
      (∀ others, Overriding.bindings.Visible "x" Overriding.overriding.properties.reverse others ↔
        others = tried) ∧
      let named := Overriding.bindings.bearing "x" flat
      let last? := named.head?.bind Overriding.bindings.propertyValue?
      tried.Sublist named ∧ tried.head? = named.head? ∧
      Overriding.bindings.property? Overriding.overriding "x" =
        tried.findSome? Overriding.bindings.propertyValue? ∧
      (Overriding.bindings.property? Overriding.overriding "x" = last? ↔
        last?.isSome ∨ ∀ property ∈ tried, Overriding.bindings.propertyValue? property = none) :=
  ⟨Overriding.acyclic, Overriding.limitFree,
    property?_eq_last_iff Overriding.acyclic Overriding.limitFree⟩

/-- The value of an overridden property is found when the value of the last one is imported. -/
theorem property?_ne_last_overriding :
    Overriding.bindings.Acyclic Overriding.overriding ∧
    Overriding.bindings.LimitFree "x" Overriding.overriding ∧
    ∃ flat, Overriding.bindings.InPlace Overriding.overriding flat ∧
      (Overriding.bindings.bearing "x" flat).head? = some Overriding.late ∧
      Overriding.bindings.propertyValue? Overriding.late = none ∧
      Overriding.bindings.property? Overriding.overriding "x" =
        some (.string ⟨73, 80⟩ "early") := by
  -- The late property has no value, so that the early one is found.
  refine ⟨Overriding.acyclic, Overriding.limitFree, _,
    .own rfl (.enter rfl id (.own rfl .nil) .nil), ?_, ?_, ?_⟩
  · decide +kernel
  · rfl
  · rfl

end PropCatalog.Scope
