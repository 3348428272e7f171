import PropCatalog.Proofs.Occurrence
import PropCatalog.Proofs.Scope.Lookup

/-! Lookups that go through an object literal once compared with lookups that go through it again
each time that it is spread. Without circles, both find the same as long as neither of them reaches
the limit, and the one visits the literals in the order in which the other comes to each of them
first. A lookup that goes through a literal again can reach the limit where the other one does not.
-/

namespace PropCatalog.Scope

open Syntax

/-- The value of the last property of a name in an object literal, which is gone through whether it
has been before or not. The literals are recorded as often as they are gone through, the last one
first. -/
def searchAgainWithin (scope : Scope) : Nat → String → ObjectLiteral → List ObjectLiteral → Search
  | 0, _, _, gone => (none, gone)
  | steps + 1, name, literal, gone =>
    searchProperties (scope.valueWithin steps) (scope.searchAgainWithin steps name) name
      literal.properties.reverse (literal :: gone)

/-- How a search through properties ends that goes through literals again, when it does not reach
the limit: everything that it resolves on its way has its value in the steps that are left there,
and there is a step left for every literal. -/
inductive Runs (scope : Scope) (name : String) :
    Nat → List Property → Option Expr → List ObjectLiteral → Prop where
  | nil {steps : Nat} : Runs scope name steps [] none []
  -- A property of the name ends the search, whether its value is known or not.
  | here {steps : Nat} {property : Property} {before : List Property}
      (settled : ∀ e ∈ scope.resolved name property, scope.valueWithin steps e = scope.value? e)
      (named : scope.propertyName? property = some name) :
      Runs scope name steps (property :: before) (scope.propertyValue? property) []
  | other {steps : Nat} {property : Property} {before : List Property} {result : Option Expr}
      {gone : List ObjectLiteral}
      (settled : ∀ e ∈ scope.resolved name property, scope.valueWithin steps e = scope.value? e)
      (own : property.isSpread = false) (unnamed : scope.propertyName? property ≠ some name)
      (others : Runs scope name steps before result gone) :
      Runs scope name steps (property :: before) result gone
  | nowhere {steps : Nat} {value : Expr} {before : List Property} {result : Option Expr}
      {gone : List ObjectLiteral} (settled : scope.valueWithin steps value = scope.value? value)
      (unknown : scope.object? value = none) (others : Runs scope name steps before result gone) :
      Runs scope name steps (.spread value :: before) result gone
  -- A value that is found in a spread literal ends the search outside of it, too.
  | found {steps : Nat} {value : Expr} {literal : ObjectLiteral} {before : List Property}
      {result : Expr} {gone : List ObjectLiteral}
      (settled : scope.valueWithin (steps + 1) value = scope.value? value)
      (leads : scope.object? value = some literal)
      (inside : Runs scope name steps literal.properties.reverse (some result) gone) :
      Runs scope name (steps + 1) (.spread value :: before) (some result) (gone ++ [literal])
  | missed {steps : Nat} {value : Expr} {literal : ObjectLiteral} {before : List Property}
      {result : Option Expr} {gone further : List ObjectLiteral}
      (settled : scope.valueWithin (steps + 1) value = scope.value? value)
      (leads : scope.object? value = some literal)
      (inside : Runs scope name steps literal.properties.reverse none gone)
      (others : Runs scope name (steps + 1) before result further) :
      Runs scope name (steps + 1) (.spread value :: before) result (further ++ (gone ++ [literal]))

/-- A lookup that goes through literals again does not reach the limit. -/
def Unlimited (scope : Scope) (name : String) (literal : ObjectLiteral) : Prop :=
  ∃ result gone, scope.Runs name depthLimit literal.properties.reverse result gone

/-- How a search through properties ends that goes through each literal once, when it does not reach
the limit. It begins with the literals that have been searched before, and ends with those that have
been searched after it. -/
inductive RunsOnce (scope : Scope) (name : String) :
    Nat → List ObjectLiteral → List Property → Option Expr → List ObjectLiteral → Prop where
  | nil {steps : Nat} {searched : List ObjectLiteral} :
      RunsOnce scope name steps searched [] none searched
  | here {steps : Nat} {searched : List ObjectLiteral} {property : Property}
      {before : List Property}
      (settled : ∀ e ∈ scope.resolved name property, scope.valueWithin steps e = scope.value? e)
      (named : scope.propertyName? property = some name) :
      RunsOnce scope name steps searched (property :: before) (scope.propertyValue? property)
        searched
  | other {steps : Nat} {searched after : List ObjectLiteral} {property : Property}
      {before : List Property} {result : Option Expr}
      (settled : ∀ e ∈ scope.resolved name property, scope.valueWithin steps e = scope.value? e)
      (own : property.isSpread = false) (unnamed : scope.propertyName? property ≠ some name)
      (others : RunsOnce scope name steps searched before result after) :
      RunsOnce scope name steps searched (property :: before) result after
  | nowhere {steps : Nat} {searched after : List ObjectLiteral} {value : Expr}
      {before : List Property} {result : Option Expr}
      (settled : scope.valueWithin steps value = scope.value? value)
      (unknown : scope.object? value = none)
      (others : RunsOnce scope name steps searched before result after) :
      RunsOnce scope name steps searched (.spread value :: before) result after
  -- A literal that has been searched before is passed over.
  | again {steps : Nat} {searched after : List ObjectLiteral} {value : Expr}
      {literal : ObjectLiteral} {before : List Property} {result : Option Expr}
      (settled : scope.valueWithin steps value = scope.value? value)
      (leads : scope.object? value = some literal) (met : literal ∈ searched)
      (others : RunsOnce scope name steps searched before result after) :
      RunsOnce scope name steps searched (.spread value :: before) result after
  | found {steps : Nat} {searched after : List ObjectLiteral} {value : Expr}
      {literal : ObjectLiteral} {before : List Property} {result : Expr}
      (settled : scope.valueWithin (steps + 1) value = scope.value? value)
      (leads : scope.object? value = some literal) (fresh : literal ∉ searched)
      (inside : RunsOnce scope name steps (literal :: searched) literal.properties.reverse
        (some result) after) :
      RunsOnce scope name (steps + 1) searched (.spread value :: before) (some result) after
  | missed {steps : Nat} {searched between after : List ObjectLiteral} {value : Expr}
      {literal : ObjectLiteral} {before : List Property} {result : Option Expr}
      (settled : scope.valueWithin (steps + 1) value = scope.value? value)
      (leads : scope.object? value = some literal) (fresh : literal ∉ searched)
      (inside : RunsOnce scope name steps (literal :: searched) literal.properties.reverse none
        between)
      (others : RunsOnce scope name (steps + 1) between before result after) :
      RunsOnce scope name (steps + 1) searched (.spread value :: before) result after

/-- A lookup that goes through each literal once does not reach the limit. -/
def UnlimitedOnce (scope : Scope) (name : String) (literal : ObjectLiteral) : Prop :=
  ∃ result searched,
    scope.RunsOnce name depthLimit [literal] literal.properties.reverse result searched

variable {scope : Scope} {name : String}

/-- Where a spread leads is known when its value is. -/
theorem leads_of_settled {steps : Nat} {value : Expr}
    (settled : scope.valueWithin steps value = scope.value? value) :
    (scope.valueWithin steps value).bind Expr.object? = scope.object? value := by
  rw [settled, object?]

/-- A search through a spread literal that finds a value ends there. -/
theorem searchProperties_found {value? : Expr → Option Expr}
    {inside : ObjectLiteral → List ObjectLiteral → Search} {value result : Expr}
    {literal : ObjectLiteral} {before : List Property} {searched after : List ObjectLiteral}
    (leads : (value? value).bind Expr.object? = some literal)
    (ended : inside literal searched = (some result, after)) :
    searchProperties value? inside name (.spread value :: before) searched =
      (some result, after) := by
  simp [searchProperties, leads, ended]

/-- A search through a spread literal that finds no value goes on before it. -/
theorem searchProperties_missed {value? : Expr → Option Expr}
    {inside : ObjectLiteral → List ObjectLiteral → Search} {value : Expr}
    {literal : ObjectLiteral} {before : List Property} {searched after : List ObjectLiteral}
    (leads : (value? value).bind Expr.object? = some literal)
    (ended : inside literal searched = (none, after)) :
    searchProperties value? inside name (.spread value :: before) searched =
      searchProperties value? inside name before after := by
  simp [searchProperties, leads, ended]

namespace Runs

variable {steps : Nat} {properties : List Property} {result : Option Expr}
  {gone : List ObjectLiteral}

/-- A run is what the search does that goes through literals again. -/
theorem searchAgain_eq (run : scope.Runs name steps properties result gone) :
    ∀ before, searchProperties (scope.valueWithin steps) (scope.searchAgainWithin steps name) name
      properties before = (result, gone ++ before) := by
  -- Each rule is one branch of the search.
  induction run with
  | nil => exact fun _ => rfl
  | here settled named =>
    intro before
    rw [searchProperties_here _ _ _ named settled, List.nil_append]
  | other settled own unnamed _ ih =>
    intro before
    rw [searchProperties_other _ _ _ own unnamed settled, ih]
  | nowhere settled unknown _ ih =>
    intro before
    rw [searchProperties_nowhere _ _ _ ((leads_of_settled settled).trans unknown), ih]
  | @found steps value literal _ result gone settled leads _ ih =>
    intro before
    have ended : scope.searchAgainWithin (steps + 1) name literal before =
        (some result, gone ++ [literal] ++ before) := by
      simp [searchAgainWithin, ih]
    exact searchProperties_found ((leads_of_settled settled).trans leads) ended
  | @missed steps value literal _ result gone further settled leads _ _ ihInside ih =>
    intro before
    have ended : scope.searchAgainWithin (steps + 1) name literal before =
        (none, gone ++ [literal] ++ before) := by
      simp [searchAgainWithin, ihInside]
    rw [searchProperties_missed ((leads_of_settled settled).trans leads) ended, ih,
      List.append_assoc further]

/-- A search through the properties of a literal goes through literals within its reach. -/
theorem reaches (run : scope.Runs name steps properties result gone) {outer : ObjectLiteral}
    (within : properties ⊆ outer.properties) : ∀ inner ∈ gone, scope.Reaches outer inner := by
  -- What a literal reaches that is spread is reached from where it is spread.
  induction run generalizing outer with
  | nil | here => exact fun _ member => absurd member List.not_mem_nil
  | other _ _ _ _ ih | nowhere _ _ _ ih => exact ih (List.cons_subset.mp within).2
  | found _ leads _ ih =>
    have spreads : scope.Spreads outer _ := ⟨_, (List.cons_subset.mp within).1, leads⟩
    intro inner member
    rcases List.mem_append.mp member with member | member
    · exact .head spreads (ih (by simp) inner member)
    · rw [List.mem_singleton.mp member]
      exact .single spreads
  | missed _ leads _ _ ihInside ih =>
    have spreads : scope.Spreads outer _ := ⟨_, (List.cons_subset.mp within).1, leads⟩
    intro inner member
    rcases List.mem_append.mp member with member | member
    · exact ih (List.cons_subset.mp within).2 inner member
    · rcases List.mem_append.mp member with member | member
      · exact .head spreads (ihInside (by simp) inner member)
      · rw [List.mem_singleton.mp member]
        exact .single spreads

/-- Runs through the same properties are the same, however many steps are left for them. -/
theorem unique {steps' : Nat} {result' : Option Expr} {gone' : List ObjectLiteral}
    (run : scope.Runs name steps properties result gone)
    (again : scope.Runs name steps' properties result' gone') :
    result = result' ∧ gone = gone' := by
  -- The first property, its name and what it leads to leave one rule for each step.
  induction run generalizing steps' result' gone' with
  | nil =>
    cases again
    exact ⟨rfl, rfl⟩
  | here _ named =>
    cases again with
    | here => exact ⟨rfl, rfl⟩
    | other _ _ unnamed _ => exact absurd named unnamed
    | nowhere | found | missed => simp [propertyName?] at named
  | other _ own unnamed _ ih =>
    cases again with
    | here _ named => exact absurd named unnamed
    | other _ _ _ others => exact ih others
    | nowhere | found | missed => simp [Property.isSpread] at own
  | nowhere _ unknown _ ih =>
    cases again with
    | here _ named => simp [propertyName?] at named
    | other _ own _ _ => simp [Property.isSpread] at own
    | nowhere _ _ others => exact ih others
    | found _ leads _ | missed _ leads _ _ => simp [unknown] at leads
  | found _ leads _ ih =>
    cases again with
    | here _ named => simp [propertyName?] at named
    | other _ own _ _ => simp [Property.isSpread] at own
    | nowhere _ unknown _ => simp [unknown] at leads
    | found _ leads' inside =>
      cases leads.symm.trans leads'
      obtain ⟨same, rfl⟩ := ih inside
      exact ⟨same, rfl⟩
    | missed _ leads' inside _ =>
      cases leads.symm.trans leads'
      cases (ih inside).1
  | missed _ leads _ _ ihInside ih =>
    cases again with
    | here _ named => simp [propertyName?] at named
    | other _ own _ _ => simp [Property.isSpread] at own
    | nowhere _ unknown _ => simp [unknown] at leads
    | found _ leads' inside =>
      cases leads.symm.trans leads'
      cases (ihInside inside).1
    | missed _ leads' inside others =>
      cases leads.symm.trans leads'
      obtain ⟨-, rfl⟩ := ihInside inside
      obtain ⟨same, rfl⟩ := ih others
      exact ⟨same, rfl⟩

end Runs

/-- A run through each literal once is what the search does. -/
theorem RunsOnce.search_eq {steps : Nat} {properties : List Property} {result : Option Expr}
    {searched after : List ObjectLiteral}
    (run : scope.RunsOnce name steps searched properties result after) :
    searchProperties (scope.valueWithin steps) (scope.searchWithin steps name) name properties
      searched = (result, after) := by
  -- Each rule is one branch of the search.
  induction run with
  | nil => rfl
  | here settled named => rw [searchProperties_here _ _ _ named settled]
  | other settled own unnamed _ ih => rw [searchProperties_other _ _ _ own unnamed settled, ih]
  | nowhere settled unknown _ ih =>
    rw [searchProperties_nowhere _ _ _ ((leads_of_settled settled).trans unknown), ih]
  | @again steps searched _ _ literal _ _ settled leads met _ ih =>
    have ended : scope.searchWithin steps name literal searched = (none, searched) := by
      cases steps <;> simp [searchWithin, met]
    rw [searchProperties_missed ((leads_of_settled settled).trans leads) ended, ih]
  | @found steps searched after _ literal _ result settled leads fresh _ ih =>
    have ended : scope.searchWithin (steps + 1) name literal searched = (some result, after) := by
      simp [searchWithin, fresh, ih]
    exact searchProperties_found ((leads_of_settled settled).trans leads) ended
  | @missed steps searched between _ _ literal _ _ settled leads fresh _ _ ihInside ih =>
    have ended : scope.searchWithin (steps + 1) name literal searched = (none, between) := by
      simp [searchWithin, fresh, ihInside]
    rw [searchProperties_missed ((leads_of_settled settled).trans leads) ended, ih]

/-- What holds of the literals that have been searched holds after a search through properties, when
a search through a spread literal keeps it. -/
theorem searchProperties_keeps {value? : Expr → Option Expr}
    {inside : ObjectLiteral → List ObjectLiteral → Search} {keeps : List ObjectLiteral → Prop}
    (spread : ∀ literal searched, keeps searched → keeps (inside literal searched).2)
    (properties : List Property) {searched : List ObjectLiteral} (before : keeps searched) :
    keeps (searchProperties value? inside name properties searched).2 := by
  -- Only a spread that leads to a literal searches any.
  induction properties generalizing searched with
  | nil => exact before
  | cons property rest ih =>
    cases property with
    | pair start key value =>
      simp only [searchProperties]
      split
      · exact before
      · exact ih before
    | shorthand span text =>
      simp only [searchProperties]
      split
      · exact before
      · exact ih before
    | spread value =>
      simp only [searchProperties]
      split
      · exact ih before
      · rename_i literal _
        have kept := spread literal searched before
        split
        · rename_i ended
          rw [ended] at kept
          exact kept
        · rename_i ended
          rw [ended] at kept
          exact ih kept
    | _ => exact ih before

/-- However far it goes, a search goes through no literal twice. -/
theorem nodup_searchWithin (steps : Nat) (name : String) :
    ∀ (literal : ObjectLiteral) (searched : List ObjectLiteral), searched.Nodup →
      (scope.searchWithin steps name literal searched).2.Nodup := by
  -- A literal is only gone through when it is new.
  induction steps with
  | zero => exact fun _ _ nodup => nodup
  | succ steps ih =>
    intro literal searched nodup
    rw [searchWithin]
    split
    · exact nodup
    · rename_i fresh
      have new : literal ∉ searched := fun member => fresh (List.contains_iff_mem.mpr member)
      exact searchProperties_keeps ih _ (List.nodup_cons.mpr ⟨new, nodup⟩)

/-- Of what has been searched outside of a path, nothing is found in it again, and no literal that
has not been searched. -/
def Exhausted (scope : Scope) (name : String) (path searched : List ObjectLiteral) : Prop :=
  ∀ other ∈ searched, other ∈ path ∨ ∀ steps result gone,
    scope.Runs name steps other.properties.reverse result gone → result = none ∧ gone ⊆ searched

/-- The literals that have been searched are those that have been gone through, in the order in
which each was met first. Both lists have the last one first. -/
def FirstOf (searched gone : List ObjectLiteral) : Prop :=
  searched.reverse = gone.reverse.eraseDups

namespace FirstOf

variable {searched gone : List ObjectLiteral} {literal : ObjectLiteral}

theorem mem_iff (first : FirstOf searched gone) : literal ∈ searched ↔ literal ∈ gone := by
  rw [← List.mem_reverse, first, List.mem_eraseDups, List.mem_reverse]

/-- A literal that has not been met is searched. -/
theorem cons (first : FirstOf searched gone) (fresh : literal ∉ searched) :
    FirstOf (literal :: searched) (literal :: gone) := by
  -- The literal is new in both orders.
  have new : literal ∉ gone.reverse := by
    rw [List.mem_reverse, ← first.mem_iff]
    exact fresh
  rw [FirstOf, List.reverse_cons, List.reverse_cons, eraseDups_concat, if_neg new, first]

/-- Literals that have been met already are not searched. -/
theorem append {known : List ObjectLiteral} (first : FirstOf searched gone)
    (met : known ⊆ searched) : FirstOf searched (known ++ gone) := by
  -- What has been met adds nothing when repetitions are left out.
  have old : known.reverse ⊆ gone.reverse := by
    intro inner member
    exact List.mem_reverse.mpr (first.mem_iff.mp (met (List.mem_reverse.mp member)))
  rw [FirstOf, List.reverse_append, eraseDups_append_of_subset old]
  exact first

end FirstOf

/-- How a search ends that goes through each literal once, beside one that goes through them again:
with the same result, having met the same literals, and if it has found nothing, with nothing to be
found in all that has been searched outside of the path. -/
structure Matches (scope : Scope) (name : String) (path : List ObjectLiteral)
    (result : Option Expr) (gone : List ObjectLiteral) (search : Search) : Prop where
  found : search.1 = result
  first : FirstOf search.2 gone
  exhausted : result = none → scope.Exhausted name path search.2

section Searching

variable {path searched start gone : List ObjectLiteral} {literal : ObjectLiteral} {steps : Nat}
  {result : Option Expr}

/-- A search of a literal that is not on the path ends as one through its properties, even if it is
over at once because the literal has been searched before. -/
theorem Matches.searchWithin (fresh : literal ∉ path) (first : FirstOf searched start)
    (exhausted : scope.Exhausted name path searched)
    (run : scope.Runs name steps literal.properties.reverse result gone)
    (entered : FirstOf (literal :: searched) (literal :: start) →
      scope.Exhausted name (literal :: path) (literal :: searched) →
      scope.Matches name (literal :: path) result (gone ++ literal :: start)
        (searchProperties (scope.valueWithin steps) (scope.searchWithin steps name) name
          literal.properties.reverse (literal :: searched))) :
    scope.Matches name path result (gone ++ literal :: start)
      (scope.searchWithin (steps + 1) name literal searched) := by
  -- A literal that has been searched is not searched again, and the other search repeats itself.
  by_cases again : literal ∈ searched
  · -- Nothing was found the first time, and nothing is new the second time.
    obtain ⟨rfl, known⟩ := (exhausted literal again).resolve_left fresh steps result gone run
    have repeats : scope.searchWithin (steps + 1) name literal searched = (none, searched) := by
      simp [Scope.searchWithin, again]
    have met : gone ++ [literal] ⊆ searched :=
      List.append_subset.mpr ⟨known, List.cons_subset.mpr ⟨again, List.nil_subset _⟩⟩
    rw [repeats]
    refine ⟨rfl, ?_, fun _ => exhausted⟩
    simpa using first.append met
  · have enters : scope.searchWithin (steps + 1) name literal searched =
        searchProperties (scope.valueWithin steps) (scope.searchWithin steps name) name
          literal.properties.reverse (literal :: searched) := by
      simp [Scope.searchWithin, again]
    have matched := entered (first.cons again) fun other member => by
      rcases List.mem_cons.mp member with rfl | member
      · exact .inl (List.mem_cons_self ..)
      · refine (exhausted other member).imp (List.mem_cons_of_mem _) fun ends => ?_
        intro steps result gone run
        obtain ⟨nothing, known⟩ := ends steps result gone run
        exact ⟨nothing, List.subset_cons_of_subset _ known⟩
    rw [enters]
    refine ⟨matched.found, matched.first, fun nothing other member => ?_⟩
    rcases matched.exhausted nothing other member with onPath | ends
    · rcases List.mem_cons.mp onPath with rfl | onPath
      · -- Another run through the literal is the one that has just ended.
        refine .inr fun steps' result' gone' run' => ?_
        obtain ⟨rfl, rfl⟩ := run.unique run'
        refine ⟨nothing, fun inner member => ?_⟩
        exact matched.first.mem_iff.mpr (List.mem_append_left _ member)
      · exact .inl onPath
    · exact .inr ends

/-- Without circles, a search through the properties of a literal on a path that goes through each
literal once ends like one that goes through them again. -/
theorem Runs.matches {root : ObjectLiteral} {properties : List Property}
    (acyclic : scope.Acyclic root) (run : scope.Runs name steps properties result gone) :
    ∀ outer rest searched start, scope.Trail root (outer :: rest) → properties ⊆ outer.properties →
      FirstOf searched start → scope.Exhausted name (outer :: rest) searched →
      scope.Matches name (outer :: rest) result (gone ++ start)
        (searchProperties (scope.valueWithin steps) (scope.searchWithin steps name) name properties
          searched) := by
  -- Without circles, a literal that was searched before is not on the path.
  induction run with
  | nil => exact fun _ _ _ _ _ _ first exhausted => ⟨rfl, first, fun _ => exhausted⟩
  | here settled named =>
    intro outer rest searched start along within first exhausted
    rw [searchProperties_here _ _ _ named settled]
    exact ⟨rfl, first, fun _ => exhausted⟩
  | other settled own unnamed _ ih =>
    intro outer rest searched start along within first exhausted
    rw [searchProperties_other _ _ _ own unnamed settled]
    exact ih outer rest searched start along (List.cons_subset.mp within).2 first exhausted
  | nowhere settled unknown _ ih =>
    intro outer rest searched start along within first exhausted
    rw [searchProperties_nowhere _ _ _ ((leads_of_settled settled).trans unknown)]
    exact ih outer rest searched start along (List.cons_subset.mp within).2 first exhausted
  | @found steps value literal before result gone settled leads inside ih =>
    intro outer rest searched start along within first exhausted
    have spreads : scope.Spreads outer literal := ⟨value, (List.cons_subset.mp within).1, leads⟩
    have fresh := along.fresh_of_acyclic acyclic spreads
    have matched := Matches.searchWithin fresh first exhausted inside
      (ih literal (outer :: rest) _ _ (along.step spreads fresh) (by simp))
    cases ended : scope.searchWithin (steps + 1) name literal searched with
    | mk result' after =>
      rw [ended] at matched
      obtain rfl : result' = some result := matched.found
      rw [searchProperties_found ((leads_of_settled settled).trans leads) ended]
      simpa using matched
  | @missed steps value literal before result gone further settled leads inside _ ihInside ih =>
    intro outer rest searched start along within first exhausted
    have spreads : scope.Spreads outer literal := ⟨value, (List.cons_subset.mp within).1, leads⟩
    have fresh := along.fresh_of_acyclic acyclic spreads
    have matched := Matches.searchWithin fresh first exhausted inside
      (ihInside literal (outer :: rest) _ _ (along.step spreads fresh) (by simp))
    cases ended : scope.searchWithin (steps + 1) name literal searched with
    | mk result' after =>
      rw [ended] at matched
      obtain rfl : result' = none := matched.found
      rw [searchProperties_missed ((leads_of_settled settled).trans leads) ended]
      have others := ih outer rest after _ along (List.cons_subset.mp within).2 matched.first
        (matched.exhausted rfl)
      simpa using others

end Searching

/-- No lookup goes through a literal twice. Where spreads form no circle and the limit is not
reached even by a lookup that goes through a literal again each time that it is spread, nothing is
lost by that: both find the same, and the lookup goes through the same literals, all within reach,
in the order in which the other one comes to each of them first. -/
theorem searchWithin_eq_searchAgainWithin (scope : Scope) (name : String)
    (literal : ObjectLiteral) :
    let once := scope.searchWithin (depthLimit + 1) name literal []
    let again := scope.searchAgainWithin (depthLimit + 1) name literal []
    scope.property? literal name = once.1 ∧ once.2.Nodup ∧
    (scope.Acyclic literal → scope.Unlimited name literal →
      once.1 = again.1 ∧ once.2.reverse = again.2.reverse.eraseDups ∧
      ∀ inner ∈ once.2, scope.Reaches literal inner) := by
  -- Once a search comes to its end, the lookup is compared with it step by step.
  intro once again
  refine ⟨rfl, nodup_searchWithin _ name literal [] List.nodup_nil, fun acyclic unlimited => ?_⟩
  obtain ⟨result, gone, run⟩ := unlimited
  have entered : again = (result, gone ++ [literal]) := by
    simp only [again, searchAgainWithin, run.searchAgain_eq]
  have first : FirstOf [literal] [literal] :=
    (eraseDups_eq_self (List.nodup_singleton literal)).symm
  -- The literal itself is on the path from the beginning.
  have matched := run.matches acyclic literal [] [literal] [literal] .start (by simp) first
    fun other member => .inl member
  have enters : once = searchProperties (scope.valueWithin depthLimit)
      (scope.searchWithin depthLimit name) name literal.properties.reverse [literal] := by
    simp [once, searchWithin]
  rw [← enters] at matched
  refine ⟨by rw [matched.found, entered], ?_, fun inner member => ?_⟩
  · rw [entered]
    exact matched.first
  · rcases List.mem_append.mp (matched.first.mem_iff.mp member) with member | member
    · exact run.reaches (by simp) inner member
    · rw [List.mem_singleton.mp member]
      exact .refl

namespace Repeating

/-- The literal `{ x: imported }`. -/
def base : ObjectLiteral where
  span := ⟨41, 56⟩
  properties := [.pair 43 (.name "x") (.name ⟨46, 54⟩ "imported")]

/-- The literal `{ ...base, ...base }`. -/
def middle : ObjectLiteral where
  span := ⟨73, 93⟩
  properties := [.spread (.name ⟨78, 82⟩ "base"), .spread (.name ⟨87, 91⟩ "base")]

/-- The literal `{ x: 'early', ...middle, ...middle }`. -/
def outer : ObjectLiteral where
  span := ⟨105, 141⟩
  properties := [.pair 107 (.name "x") (.string ⟨110, 117⟩ "early"),
    .spread (.name ⟨122, 128⟩ "middle"), .spread (.name ⟨133, 139⟩ "middle")]

/-- A module in which a literal is spread twice in one that is spread twice itself. -/
def bindings : Scope where
  bindings := [("middle", .value (.object middle.span middle.properties)),
    ("base", .value (.object base.span base.properties)), ("imported", .imported "./x")]
  assignments := []

theorem acyclic : Repeating.bindings.Acyclic outer := by
  -- Each literal spreads only some that come before it in the text.
  have start : outer ∈ [outer, middle, base] := by simp
  exact acyclic_of_falls start (fun literal => literal.span.lo) (by decide +kernel)

theorem run_base (steps : Nat) :
    Repeating.bindings.Runs "x" steps base.properties.reverse none [] := by
  -- The one property of the name has an imported value.
  refine .here (fun e member => ?_) rfl
  obtain rfl : e = .name ⟨46, 54⟩ "imported" := by simpa [resolved, keyName?, nameOfKey?,
    Key.spelled?] using member
  cases steps <;> rfl

theorem run_middle (steps : Nat) :
    Repeating.bindings.Runs "x" (steps + 2) middle.properties.reverse none [base, base] := by
  -- Both spreads are those of the first literal, where nothing is found.
  have once : Repeating.bindings.Runs "x" (steps + 2) [.spread (.name ⟨78, 82⟩ "base")] none
      ([] ++ ([] ++ [base])) :=
    .missed rfl rfl (run_base _) .nil
  show Repeating.bindings.Runs "x" (steps + 2) _ none ([base] ++ ([] ++ [base]))
  exact .missed rfl rfl (run_base _) once

theorem run_outer (steps : Nat) :
    Repeating.bindings.Runs "x" (steps + 3) outer.properties.reverse
      (some (.string ⟨110, 117⟩ "early")) [base, base, middle, base, base, middle] := by
  -- Nothing is found in both spreads, so that the own property decides.
  have last : Repeating.bindings.Runs "x" (steps + 3)
      [.pair 107 (.name "x") (.string ⟨110, 117⟩ "early")]
      (some (.string ⟨110, 117⟩ "early")) [] := by
    refine .here (fun e member => ?_) rfl
    obtain rfl : e = .string ⟨110, 117⟩ "early" := by simpa [resolved, keyName?, nameOfKey?,
      Key.spelled?] using member
    rfl
  have once : Repeating.bindings.Runs "x" (steps + 3)
      [.spread (.name ⟨122, 128⟩ "middle"), .pair 107 (.name "x") (.string ⟨110, 117⟩ "early")]
      (some (.string ⟨110, 117⟩ "early")) ([] ++ ([base, base] ++ [middle])) :=
    .missed rfl rfl (run_middle steps) last
  show Repeating.bindings.Runs "x" (steps + 3) _ _
    ([base, base, middle] ++ ([base, base] ++ [middle]))
  exact .missed rfl rfl (run_middle steps) once

theorem unlimited : Repeating.bindings.Unlimited "x" outer :=
  ⟨_, _, run_outer 29⟩

end Repeating

/-- Each of two literals is gone through twice without need. -/
theorem searchWithin_eq_searchAgainWithin_repeating :
    let scope := Repeating.bindings
    let once := scope.searchWithin (depthLimit + 1) "x" Repeating.outer []
    let again := scope.searchAgainWithin (depthLimit + 1) "x" Repeating.outer []
    scope.Acyclic Repeating.outer ∧ scope.Unlimited "x" Repeating.outer ∧
    again = (some (.string ⟨110, 117⟩ "early"), [Repeating.base, Repeating.base, Repeating.middle,
      Repeating.base, Repeating.base, Repeating.middle, Repeating.outer]) ∧
    once.2 = [Repeating.base, Repeating.middle, Repeating.outer] ∧
    scope.property? Repeating.outer "x" = once.1 ∧ once.2.Nodup ∧ once.1 = again.1 ∧
    once.2.reverse = again.2.reverse.eraseDups ∧
    ∀ inner ∈ once.2, scope.Reaches Repeating.outer inner := by
  -- The searches are evaluated, and the theorem compares them.
  intro scope once again
  obtain ⟨found, nodup, same⟩ := searchWithin_eq_searchAgainWithin scope "x" Repeating.outer
  exact ⟨Repeating.acyclic, Repeating.unlimited, rfl, by with_unfolding_all rfl, found, nodup,
    same Repeating.acyclic Repeating.unlimited⟩

namespace Distant

/-- The literal `{ x: 'early', [k]: imported }`. -/
def base : ObjectLiteral where
  span := ⟨86, 115⟩
  properties := [.pair 88 (.name "x") (.string ⟨91, 98⟩ "early"),
    .pair 100 (.computed (.name ⟨101, 102⟩ "k")) (.name ⟨105, 113⟩ "imported")]

/-- The names `d10` to `d38`, which lead to each other. -/
def linkName (n : Nat) : String :=
  "d" ++ toString (n + 10)

/-- The literals `{ ...base }`, `{ ...d10 }` and so on. -/
def link : Nat → ObjectLiteral
  | 0 => ⟨⟨129, 140⟩, [.spread (.name ⟨134, 138⟩ "base")]⟩
  | n + 1 => ⟨⟨154 + 24 * n, 164 + 24 * n⟩,
      [.spread (.name ⟨159 + 24 * n, 162 + 24 * n⟩ (linkName n))]⟩

/-- The literal `{ ...d38, ...base }`. -/
def outer : ObjectLiteral where
  span := ⟨824, 843⟩
  properties := [.spread (.name ⟨829, 832⟩ "d38"), .spread (.name ⟨837, 841⟩ "base")]

/-- A module in which a literal is spread twice in another one, once at once and once through 29
others. The key of its last property leads to a name through two more. -/
def bindings : Scope where
  bindings := [("imported", .imported "./x"), ("k2", .value (.string ⟨39, 42⟩ "x")),
    ("k1", .value (.name ⟨55, 57⟩ "k2")), ("k", .value (.name ⟨69, 71⟩ "k1")),
    ("base", .value (.object base.span base.properties))] ++
    (List.range 29).map fun n =>
      (linkName n, .value (.object (link n).span (link n).properties))
  assignments := []

theorem acyclic : Distant.bindings.Acyclic outer := by
  -- Each literal spreads some that stand before it.
  have start : outer ∈ outer :: base :: (List.range 29).map link := List.mem_cons_self
  exact acyclic_of_falls start (fun literal => literal.span.lo) (by decide +kernel)

theorem link_ne {m n : Nat} (less : m < n) : link m ≠ link n := by
  -- Each literal starts behind those that it leads to.
  intro same
  have starts := congrArg (fun literal => literal.span.lo) same
  cases m <;> cases n <;> simp only [link] at starts <;> omega

/-- In the steps that are left at each link, the name in it has its value, which is the link
before. -/
theorem leads_link : ∀ n < 28,
    let e : Expr := .name ⟨159 + 24 * n, 162 + 24 * n⟩ (linkName n)
    Distant.bindings.valueWithin (n + 4) e = Distant.bindings.value? e ∧
      Distant.bindings.object? e = some (link n) := by
  decide +kernel

/-- From a link, the search comes to the literal that has been searched already. -/
theorem run_link (n : Nat) : n ≤ 28 → ∀ searched, base ∈ searched →
    (∀ m < n, link m ∉ searched) →
    ∃ after, Distant.bindings.RunsOnce "x" (n + 3) searched (link n).properties.reverse none
      after := by
  -- One step is used up for each link.
  induction n with
  | zero => exact fun _ searched met _ => ⟨_, .again rfl rfl met .nil⟩
  | succ n ih =>
    intro within searched met fresh
    obtain ⟨settled, leads⟩ := leads_link n (by omega)
    obtain ⟨after, inside⟩ := ih (by omega) (link n :: searched) (List.mem_cons_of_mem _ met)
      fun m less => List.not_mem_cons_of_ne_of_not_mem (link_ne less) (fresh m (by omega))
    exact ⟨_, .missed settled leads (fresh n (by omega)) inside .nil⟩

/-- The literal that is spread last has a property of the name, whose value is not known. -/
theorem run_base (searched : List ObjectLiteral) :
    Distant.bindings.RunsOnce "x" 31 searched base.properties.reverse none searched := by
  -- The key and the value end within the steps as they do at the limit.
  refine .here (fun e member => ?_) (by decide)
  have known : Distant.bindings.resolved "x"
      (.pair 100 (.computed (.name ⟨101, 102⟩ "k")) (.name ⟨105, 113⟩ "imported")) =
        [.name ⟨101, 102⟩ "k", .name ⟨105, 113⟩ "imported"] := by rfl
  rw [known] at member
  exact (by decide +kernel : ∀ e ∈ [Expr.name ⟨101, 102⟩ "k", .name ⟨105, 113⟩ "imported"],
    Distant.bindings.valueWithin 31 e = Distant.bindings.value? e) e member

theorem unlimitedOnce : Distant.bindings.UnlimitedOnce "x" outer := by
  -- The chain of literals is gone through first, and the last one is not searched again.
  obtain ⟨after, links⟩ := run_link 28 (by omega) [link 28, base, outer] (by simp)
    (by decide)
  have others : Distant.bindings.RunsOnce "x" 32 [base, outer] [.spread (.name ⟨829, 832⟩ "d38")]
      none after :=
    .missed (by decide +kernel) (by rfl) (by decide) links .nil
  exact ⟨none, after,
    .missed (by decide +kernel) (by rfl) (by decide) (run_base _) others⟩

end Distant

/-- A lookup that does not reach the limit finds nothing, and one that goes through a literal again
finds a value there, since it has too few steps left for the key of a later property. -/
theorem property?_ne_searchAgain_distant :
    let scope := Distant.bindings
    scope.Acyclic Distant.outer ∧ scope.UnlimitedOnce "x" Distant.outer ∧
    scope.property? Distant.outer "x" = none ∧
    (scope.searchAgainWithin (depthLimit + 1) "x" Distant.outer []).1 =
      some (.string ⟨91, 98⟩ "early") :=
  ⟨Distant.acyclic, Distant.unlimitedOnce, by with_unfolding_all rfl, by rfl⟩

end PropCatalog.Scope
