import PropCatalog.Proofs.Scope.Lookup
import PropCatalog.Proofs.Spread.Recall

/-! Names that the spreads of a literal do not give. What an expansion says about them is read off
the literal itself, however deep its spreads go and whether they form circles or not. -/

namespace PropCatalog

open Syntax

namespace Scope

/-- A selection of entries names them as the properties are named. -/
def Names {α : Type} (scope : Scope) (pick? : Property → Option (String × α)) : Prop :=
  ∀ property name value, pick? property = some (name, value) →
    scope.propertyName? property = some name

/-- The literals that a literal spreads, directly or through others, have no property of a name. -/
def Unspread (scope : Scope) (literal : ObjectLiteral) (name : String) : Prop :=
  ∀ inner, Relation.TransGen scope.Spreads literal inner →
    ∀ property ∈ inner.properties, scope.propertyName? property ≠ some name

variable {α : Type} {scope : Scope} {pick? : Property → Option (String × α)} {keep : String → Bool}

/-- Nothing is selected to be looked at for a property whose name is left out. -/
theorem Names.filter_eq_none (named : scope.Names pick?) {property : Property} {name : String}
    (bears : scope.propertyName? property = some name) (out : keep name = false) :
    (pick? property).filter (fun pair => keep pair.1) = none := by
  -- A name that is selected is that of the property.
  cases picked : pick? property with
  | none => rfl
  | some pair =>
    have same : name = pair.1 := by
      simpa [bears] using named property pair.1 pair.2 picked
    simp [Option.filter, ← same, out]

/-- Some expansions have nothing to be looked at. -/
def Quiet (keep : String → Bool) (expansions : Expansions α) : Prop :=
  ∀ expansion ∈ expansions, expansion.2.only keep = []

/-- A property adds its own entry to what is looked at. A spread adds nothing if nothing is looked
at in the literals that it can lead to. -/
theorem only_foldl_addEntries
    {expand : ObjectLiteral → Expansions α → OrderedMap α × Expansions α}
    (named : scope.Names pick?) {properties : List Property}
    (silent : ∀ value inner, .spread value ∈ properties → scope.object? value = some inner →
      ∀ expansions, Quiet keep expansions →
        (expand inner expansions).1.only keep = [] ∧ Quiet keep (expand inner expansions).2)
    {m : OrderedMap α} {expansions : Expansions α} (quiet : Quiet keep expansions) :
    let expanded := properties.foldl (scope.addEntries pick? expand) (m, expansions)
    expanded.1.only keep =
        ((properties.filterMap pick?).foldl
          (fun m (name, value) => m.insert name value) m).only keep ∧
      Quiet keep expanded.2 := by
  -- What is looked at after a property hangs on what is looked at before it.
  simp only [OrderedMap.only_foldl_insert]
  induction properties generalizing m expansions with
  | nil => exact ⟨rfl, quiet⟩
  | cons property rest ih =>
    have later := fun value inner member => silent value inner (List.mem_cons_of_mem _ member)
    rcases property.own_or_spread with own | ⟨value, rfl⟩
    · obtain ⟨entries, after⟩ := @ih later
        (([property].filterMap pick?).foldl (fun m (name, value) => m.insert name value) m) _ quiet
      rw [List.foldl_cons, addEntries_own scope pick? expand m expansions own]
      refine ⟨entries.trans ?_, after⟩
      rw [OrderedMap.only_foldl_insert, ← List.foldl_append, ← List.filter_append,
        ← List.filterMap_append, List.singleton_append]
    · have unnamed : pick? (.spread value) = none := by
        cases picked : pick? (.spread value) with
        | none => rfl
        | some pair => cases named _ pair.1 pair.2 picked
      rw [List.foldl_cons, List.filterMap_cons_none unnamed]
      cases leads : scope.object? value with
      | none =>
        rw [addEntries_nowhere scope pick? expand m expansions leads]
        exact ih later quiet
      | some inner =>
        obtain ⟨nothing, still⟩ := silent value inner (by simp) leads expansions quiet
        have added : scope.addEntries pick? expand (m, expansions) (.spread value) =
            (m.insertAll (expand inner expansions).1, (expand inner expansions).2) := by
          simp only [addEntries, leads]
        rw [added, ← OrderedMap.only_insertAll m nothing]
        exact ih later still

/-- Nothing is looked at in the expansion of a literal whose names, and those of the literals that
it spreads, are left out. -/
theorem only_expandWithin (named : scope.Names pick?) (levels : Nat) :
    ∀ path literal expansions,
      (∀ inner, scope.Reaches literal inner → ∀ property ∈ inner.properties, ∀ name,
        scope.propertyName? property = some name → keep name = false) →
      Quiet keep expansions →
        (scope.expandWithin pick? levels path literal expansions).1.only keep = [] ∧
          Quiet keep (scope.expandWithin pick? levels path literal expansions).2 := by
  -- Each level leaves the literals that are spread to the next one.
  induction levels with
  | zero =>
    intro path literal expansions _ quiet
    refine ⟨?_, quiet⟩
    cases known : expansions.lookup literal with
    | none => simp [expandWithin, known, OrderedMap.only, OrderedMap.empty]
    | some entries => simpa [expandWithin, known] using quiet _ (mem_of_lookup known)
  | succ levels ih =>
    intro path literal expansions out quiet
    cases known : expansions.lookup literal with
    | some entries =>
      rw [expandWithin_known scope pick? known]
      exact ⟨quiet _ (mem_of_lookup known), quiet⟩
    | none =>
      by_cases onPath : literal ∈ path
      · rw [expandWithin_inside scope pick? known _ onPath]
        exact ⟨rfl, quiet⟩
      · obtain ⟨entries, after⟩ := only_foldl_addEntries (m := .empty) named
          (fun value inner member leads expansions quiet =>
            ih (literal :: path) inner expansions
              (fun other reached => out other (.head ⟨value, member, leads⟩ reached)) quiet) quiet
        have nothing :
            (literal.properties.filterMap pick?).filter (fun pair => keep pair.1) = [] := by
          refine List.filter_eq_nil_iff.mpr fun pair member => ?_
          obtain ⟨property, member, picked⟩ := List.mem_filterMap.mp member
          simp [out literal .refl property member pair.1 (named property pair.1 pair.2 picked)]
        rw [expandWithin_enter scope pick? known levels onPath rfl]
        rw [OrderedMap.only_foldl_insert, nothing] at entries
        exact ⟨entries, List.forall_mem_cons.mpr ⟨entries, after⟩⟩

/-- What an expansion says about names that the spreads of a literal do not give is what the
properties of the literal itself say. -/
theorem only_expand (named : scope.Names pick?) {literal : ObjectLiteral}
    (unspread : ∀ name, keep name = true → scope.Unspread literal name) :
    (scope.expand pick? literal).only keep =
      (OrderedMap.ofList (literal.properties.filterMap pick?)).only keep := by
  -- The literal itself takes the first level.
  have silent : ∀ value inner, .spread value ∈ literal.properties →
      scope.object? value = some inner → ∀ expansions : Expansions α, Quiet keep expansions →
        (scope.expandWithin pick? (depthLimit - 1) [literal] inner expansions).1.only keep = [] ∧
          Quiet keep (scope.expandWithin pick? (depthLimit - 1) [literal] inner expansions).2 := by
    intro value inner member leads expansions quiet
    refine only_expandWithin named _ [literal] inner expansions ?_ quiet
    intro other reached property member' name bears
    have inside : Relation.TransGen scope.Spreads literal other :=
      Relation.TransGen.head' ⟨value, member, leads⟩ reached
    by_contra kept
    exact unspread name (by simpa using kept) other inside property member' bears
  have quiet : Quiet keep ([] : Expansions α) := by simp [Quiet]
  have entries := (only_foldl_addEntries (m := .empty) named silent quiet).1
  have new : ([] : Expansions α).lookup literal = none := rfl
  have expanded := expandWithin_enter scope pick? new (depthLimit - 1) List.not_mem_nil rfl
  refine Eq.trans ?_ entries
  exact congrArg (fun result => result.1.only keep) expanded

/-- A name is not given by spreads when no literal of a list has it that holds all that are spread.
-/
theorem unspread_of_closed {literal : ObjectLiteral} {literals : List ObjectLiteral} {name : String}
    (first : scope.targets literal ⊆ literals)
    (closed : ∀ outer ∈ literals, scope.targets outer ⊆ literals)
    (names : ∀ inner ∈ literals, ∀ property ∈ inner.properties,
      scope.propertyName? property ≠ some name) : scope.Unspread literal name := by
  -- The first spread leads into the list, and no other one leads out of it.
  intro inner way
  obtain ⟨next, spread, rest⟩ := Relation.TransGen.head'_iff.mp way
  have start : next ∈ literals := first (mem_targets_iff.mpr spread)
  exact names inner (Reaches.mem_of_closed start closed rest)

end Scope

end PropCatalog
