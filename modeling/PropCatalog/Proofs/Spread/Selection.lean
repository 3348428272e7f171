import PropCatalog.Proofs.Related
import PropCatalog.Proofs.Spread.Coverage

/-! Selections of entries that agree on some of the names. What the expansion of a literal says
about these names is the same for both, whatever they select under all others. -/

namespace PropCatalog

open Syntax

namespace Scope

variable {α : Type} {scope : Scope} {pick? other? : Property → Option (String × α)}
  {keep : String → Bool} {literal : ObjectLiteral}

/-- Two selections agree on the names that are looked at, for every property of a literal and of
those that it reaches. -/
def SelectAlike (scope : Scope) (keep : String → Bool)
    (pick? other? : Property → Option (String × α)) (literal : ObjectLiteral) : Prop :=
  ∀ property, scope.Offers literal property →
    (pick? property).filter (fun pair => keep pair.1) =
      (other? property).filter fun pair => keep pair.1

/-- Selections that agree for a literal agree for those that it spreads. -/
theorem SelectAlike.spread (alike : scope.SelectAlike keep pick? other? literal)
    {inner : ObjectLiteral} (spread : scope.Spreads literal inner) :
    scope.SelectAlike keep pick? other? inner := by
  -- What is within reach of the spread literal is within reach of the one around it.
  rintro property ⟨own, outer, reached, member⟩
  exact alike property ⟨own, outer, Relation.ReflTransGen.head spread reached, member⟩

/-- Two results of an expansion are the same for the names that are looked at: the entries are, and
so are those of every literal that has been expanded. -/
structure SameOnly (keep : String → Bool) (expanded expanded' : OrderedMap α × Expansions α) :
    Prop where
  entries : expanded.1.only keep = expanded'.1.only keep
  expansions : List.Forall₂ (fun known known' => known.1 = known'.1 ∧
    known.2.only keep = known'.2.only keep) expanded.2 expanded'.2

/-- What is looked at stays the same over a property of a literal, when the literals that it spreads
are expanded to the same. -/
theorem SameOnly.addEntries (alike : scope.SelectAlike keep pick? other? literal)
    {expand expand' : ObjectLiteral → Expansions α → OrderedMap α × Expansions α}
    (expands : ∀ inner, scope.Spreads literal inner → ∀ m m' expansions expansions',
      SameOnly keep (m, expansions) (m', expansions') →
        SameOnly keep (expand inner expansions) (expand' inner expansions'))
    {before before' : OrderedMap α × Expansions α} (same : SameOnly keep before before')
    {property : Property} (member : property ∈ literal.properties) :
    SameOnly keep (scope.addEntries pick? expand before property)
      (scope.addEntries other? expand' before' property) := by
  -- A property is an entry of its own or a spread.
  rcases before with ⟨m, expansions⟩
  rcases before' with ⟨m', expansions'⟩
  rcases property.own_or_spread with own | ⟨value, rfl⟩
  · -- Both selections insert the same under the names that are looked at.
    have picked := alike property ⟨own, literal, .refl, member⟩
    have inserted : ([property].filterMap pick?).filter (fun pair => keep pair.1) =
        ([property].filterMap other?).filter fun pair => keep pair.1 := by
      rw [List.filter_filterMap, List.filter_filterMap]
      simp only [List.filterMap_cons, List.filterMap_nil, picked]
    rw [addEntries_own scope pick? expand m expansions own,
      addEntries_own scope other? expand' m' expansions' own]
    refine ⟨?_, same.expansions⟩
    rw [OrderedMap.only_foldl_insert, OrderedMap.only_foldl_insert, inserted, same.entries]
  · cases leads : scope.object? value with
    | none =>
      rw [addEntries_nowhere scope pick? expand m expansions leads,
        addEntries_nowhere scope other? expand' m' expansions' leads]
      exact same
    | some inner =>
      have expanded := expands inner ⟨value, member, leads⟩ m m' expansions expansions' same
      simp only [Scope.addEntries, leads]
      exact ⟨OrderedMap.only_insertAll_congr same.entries expanded.entries, expanded.expansions⟩

/-- In any number of levels, a literal is expanded to the same for the names that are looked at. -/
theorem SameOnly.expandWithin (levels : Nat) :
    ∀ path literal, scope.SelectAlike keep pick? other? literal → ∀ m m' expansions expansions',
      SameOnly keep (m, expansions) (m', expansions') →
        SameOnly keep (scope.expandWithin pick? levels path literal expansions)
          (scope.expandWithin other? levels path literal expansions') := by
  -- The memory holds the same literals on both sides, so that both skip or enter the same ones.
  induction levels with
  | zero =>
    intro path literal _ m m' expansions expansions' same
    have known := rel_lookup_self
      (r := fun m m' : OrderedMap α => m.only keep = m'.only keep) same.expansions literal
    refine ⟨?_, same.expansions⟩
    simp only [Scope.expandWithin]
    generalize expansions.lookup literal = found, expansions'.lookup literal = found' at known
    cases known with
    | none => rfl
    | some entries => exact entries
  | succ levels ih =>
    intro path literal alike m m' expansions expansions' same
    have known := rel_lookup_self
      (r := fun m m' : OrderedMap α => m.only keep = m'.only keep) same.expansions literal
    simp only [Scope.expandWithin]
    generalize expansions.lookup literal = found, expansions'.lookup literal = found' at known
    cases known with
    | some entries => exact ⟨entries, same.expansions⟩
    | none =>
      by_cases onPath : path.contains literal = true
      · simp only [if_pos onPath]
        exact ⟨rfl, same.expansions⟩
      · simp only [if_neg onPath]
        have expanded : ∀ properties, properties ⊆ literal.properties → ∀ before before',
            SameOnly keep before before' → SameOnly keep
              (properties.foldl (scope.addEntries pick?
                (scope.expandWithin pick? levels (literal :: path))) before)
              (properties.foldl (scope.addEntries other?
                (scope.expandWithin other? levels (literal :: path))) before') := by
          intro properties
          induction properties with
          | nil => exact fun _ _ _ same => same
          | cons property rest ihRest =>
            intro within before before' same
            obtain ⟨member, within⟩ := List.cons_subset.mp within
            refine ihRest within _ _ (same.addEntries alike (fun inner spread => ?_) member)
            exact ih (literal :: path) inner (alike.spread spread)
        have all := expanded literal.properties (List.Subset.refl _) (.empty, expansions)
          (.empty, expansions') ⟨rfl, same.expansions⟩
        exact ⟨all.entries, .cons ⟨rfl, all.entries⟩ all.expansions⟩

/-- Selections that agree on the names that are looked at expand a literal to the same entries of
these, in the same order. Spreads may form circles and go deeper than the limit. -/
theorem only_expand_congr (alike : scope.SelectAlike keep pick? other? literal) :
    (scope.expand pick? literal).only keep = (scope.expand other? literal).only keep :=
  (SameOnly.expandWithin depthLimit [] literal alike .empty .empty [] [] ⟨rfl, .nil⟩).entries

end Scope

end PropCatalog
