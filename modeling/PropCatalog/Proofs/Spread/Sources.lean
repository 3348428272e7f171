import PropCatalog.Proofs.Spread.Coverage

/-! Where the entries of an expansion come from. Circles, a shared memory and the limit on levels
can make an expansion leave something out, but they never make it take up what no property within
reach gives. -/

namespace PropCatalog

open Syntax

namespace Scope

variable {α : Type} {scope : Scope} {pick? : Property → Option (String × α)}
  {literal : ObjectLiteral}

/-- What is within reach of a literal that is spread is within reach of the outer one. -/
theorem Offers.of_spreads {inner : ObjectLiteral} {property : Property}
    (spread : scope.Spreads literal inner) (offered : scope.Offers inner property) :
    scope.Offers literal property := by
  -- The way from the outer literal has one spread more in front.
  obtain ⟨own, further, reached, member⟩ := offered
  exact ⟨own, further, .head spread reached, member⟩

/-- Every entry is one that some property within reach of a literal gives. -/
def Sourced (scope : Scope) (pick? : Property → Option (String × α)) (literal : ObjectLiteral)
    (entries : OrderedMap α) : Prop :=
  ∀ name value, entries.get? name = some value →
    ∃ property, scope.Offers literal property ∧ pick? property = some (name, value)

theorem Sourced.empty : scope.Sourced pick? literal .empty := by
  -- Nothing is found in an empty map.
  intro name value found
  simp [OrderedMap.get?, OrderedMap.empty] at found

/-- An entry that a property within reach gives can be put in. -/
theorem Sourced.insert {entries : OrderedMap α} (sourced : scope.Sourced pick? literal entries)
    {property : Property} {name : String} {value : α} (offered : scope.Offers literal property)
    (picked : pick? property = some (name, value)) :
    scope.Sourced pick? literal (entries.insert name value) := by
  -- The entry that is found is the new one or one of before.
  intro other found known
  rw [OrderedMap.get?_insert] at known
  split at known
  · rename_i same
    obtain rfl := Option.some.inj known
    exact ⟨property, offered, same ▸ picked⟩
  · exact sourced other found known

/-- So can all entries of a literal that is spread. -/
theorem Sourced.insertAll {entries others : OrderedMap α} {inner : ObjectLiteral}
    (sourced : scope.Sourced pick? literal entries) (spread : scope.Spreads literal inner)
    (within : scope.Sourced pick? inner others) :
    scope.Sourced pick? literal (entries.insertAll others) := by
  -- The entry that is found is one of those put in or one of before.
  intro name value found
  rw [OrderedMap.get?_insertAll, Option.or_eq_some_iff] at found
  rcases found with last | ⟨-, before⟩
  · obtain ⟨property, offered, picked⟩ := within name value last
    exact ⟨property, offered.of_spreads spread, picked⟩
  · exact sourced name value before

/-- What has been expanded so far is remembered under the literals whose reach it comes from. -/
def Remembers (scope : Scope) (pick? : Property → Option (String × α))
    (expansions : Expansions α) : Prop :=
  ∀ literal entries, expansions.lookup literal = some entries →
    scope.Sourced pick? literal entries

/-- A property of a literal adds entries from its reach, when those of the literals that it spreads
come from theirs. -/
theorem sourced_addEntries {expand : ObjectLiteral → Expansions α → OrderedMap α × Expansions α}
    (expands : ∀ inner expansions, scope.Remembers pick? expansions →
      scope.Sourced pick? inner (expand inner expansions).1 ∧
        scope.Remembers pick? (expand inner expansions).2)
    {before : OrderedMap α × Expansions α} (sourced : scope.Sourced pick? literal before.1)
    (remembers : scope.Remembers pick? before.2) {property : Property}
    (member : property ∈ literal.properties) :
    scope.Sourced pick? literal (scope.addEntries pick? expand before property).1 ∧
      scope.Remembers pick? (scope.addEntries pick? expand before property).2 := by
  -- A property is an entry of its own or a spread.
  rcases before with ⟨entries, expansions⟩
  rcases property.own_or_spread with own | ⟨value, rfl⟩
  · -- The entry of the property itself, if it has one.
    have offered : scope.Offers literal property := ⟨own, literal, .refl, member⟩
    rw [addEntries_own scope pick? expand entries expansions own]
    refine ⟨?_, remembers⟩
    cases picked : pick? property with
    | none => simpa [picked] using sourced
    | some entry => simpa [picked] using sourced.insert offered picked
  · cases leads : scope.object? value with
    | none =>
      rw [addEntries_nowhere scope pick? expand entries expansions leads]
      exact ⟨sourced, remembers⟩
    | some inner =>
      obtain ⟨within, after⟩ := expands inner expansions remembers
      have spread : scope.Spreads literal inner := ⟨value, member, leads⟩
      simp only [addEntries, leads]
      exact ⟨sourced.insertAll spread within, after⟩

/-- In any number of levels and on any path, a literal is expanded to entries from its reach. -/
theorem sourced_expandWithin (levels : Nat) :
    ∀ path literal (expansions : Expansions α), scope.Remembers pick? expansions →
      scope.Sourced pick? literal (scope.expandWithin pick? levels path literal expansions).1 ∧
        scope.Remembers pick? (scope.expandWithin pick? levels path literal expansions).2 := by
  -- The memory that a literal is expanded with holds only what comes from the right reach, and it
  -- stays so from property to property.
  induction levels with
  | zero =>
    intro path literal expansions remembers
    refine ⟨?_, remembers⟩
    cases known : expansions.lookup literal with
    | none => simpa [expandWithin, known] using Sourced.empty
    | some entries => simpa [expandWithin, known] using remembers literal entries known
  | succ levels ih =>
    intro path literal expansions remembers
    cases known : expansions.lookup literal with
    | some entries =>
      rw [expandWithin_known scope pick? known]
      exact ⟨remembers literal entries known, remembers⟩
    | none =>
      by_cases onPath : literal ∈ path
      · rw [expandWithin_inside scope pick? known _ onPath]
        exact ⟨Sourced.empty, remembers⟩
      · obtain ⟨sourced, after⟩ : scope.Sourced pick? literal (literal.properties.foldl
              (scope.addEntries pick? (scope.expandWithin pick? levels (literal :: path)))
              (.empty, expansions)).1 ∧
            scope.Remembers pick? (literal.properties.foldl
              (scope.addEntries pick? (scope.expandWithin pick? levels (literal :: path)))
              (.empty, expansions)).2 :=
          List.foldlRecOn (motive := fun state : OrderedMap α × Expansions α =>
              scope.Sourced pick? literal state.1 ∧ scope.Remembers pick? state.2)
            literal.properties _ ⟨Sourced.empty, remembers⟩ fun _ before _ member =>
              sourced_addEntries (ih (literal :: path)) before.1 before.2 member
        rw [expandWithin_enter scope pick? known levels onPath rfl]
        refine ⟨sourced, fun other entries found => ?_⟩
        rw [List.lookup_cons] at found
        split at found
        · rename_i same
          obtain rfl := Option.some.inj found
          exact eq_of_beq same ▸ sourced
        · exact after other entries found

/-- The value of a name in an expansion is one that a property within reach gives for it. -/
theorem exists_offers_of_get?_expand {name : String} {value : α}
    (found : (scope.expand pick? literal).get? name = some value) :
    ∃ property, scope.Offers literal property ∧ pick? property = some (name, value) := by
  -- Nothing is remembered at the start.
  have start : scope.Remembers pick? ([] : Expansions α) := by simp [Remembers]
  exact (sourced_expandWithin depthLimit [] literal _ start).1 name value found

end Scope

end PropCatalog
