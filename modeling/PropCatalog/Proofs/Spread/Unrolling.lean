import PropCatalog.Proofs.Spread.Path

/-! The properties of an object literal with those of spread literals in place of the spreads, as a
relation that neither counts levels nor remembers what it has seen. -/

namespace PropCatalog

open Syntax

/-- Whether a property is a spread. -/
def Syntax.Property.isSpread : Property → Bool
  | .spread _ => true
  | _ => false

/-- A property is a spread or has a place of its own. -/
theorem Syntax.Property.own_or_spread (property : Property) :
    property.isSpread = false ∨ ∃ value, property = .spread value := by
  cases property <;> simp [Property.isSpread]

namespace Scope

/-- The properties that a walk through some properties meets, in source order. Where a spread leads
to a literal, the walk goes through that literal, unless it is `closed` to a walk inside the
literals of `path`, the innermost first. -/
inductive Unrolls (scope : Scope) (closed : List ObjectLiteral → ObjectLiteral → Prop) :
    List ObjectLiteral → List Property → List Property → Prop where
  | nil {path : List ObjectLiteral} : Unrolls scope closed path [] []
  -- What is no spread is met where it stands.
  | own {path : List ObjectLiteral} {property : Property} {rest met : List Property}
      (own : property.isSpread = false) (others : Unrolls scope closed path rest met) :
      Unrolls scope closed path (property :: rest) (property :: met)
  -- A spread that leads to no literal is passed over.
  | nowhere {path : List ObjectLiteral} {value : Expr} {rest met : List Property}
      (unknown : scope.object? value = none) (others : Unrolls scope closed path rest met) :
      Unrolls scope closed path (.spread value :: rest) met
  -- A spread of a closed literal is passed over, too.
  | closed {path : List ObjectLiteral} {value : Expr} {literal : ObjectLiteral}
      {rest met : List Property} (leads : scope.object? value = some literal)
      (shut : closed path literal) (others : Unrolls scope closed path rest met) :
      Unrolls scope closed path (.spread value :: rest) met
  -- Every other literal is gone through anew, however often it is spread.
  | enter {path : List ObjectLiteral} {value : Expr} {literal : ObjectLiteral}
      {rest inner met : List Property} (leads : scope.object? value = some literal)
      (opened : ¬ closed path literal)
      (inside : Unrolls scope closed (literal :: path) literal.properties inner)
      (others : Unrolls scope closed path rest met) :
      Unrolls scope closed path (.spread value :: rest) (inner ++ met)

/-- The properties of a literal in source order, with those of the literal that a spread leads to in
place of the spread, as often as it is spread. -/
def InPlace (scope : Scope) (literal : ObjectLiteral) (met : List Property) : Prop :=
  scope.Unrolls (fun _ _ => False) [literal] literal.properties met

/-- The properties that a plain walk through a literal meets, which passes over a spread only if it
is inside of the literal that the spread leads to. -/
def PlainWalk (scope : Scope) (literal : ObjectLiteral) (met : List Property) : Prop :=
  scope.Unrolls (fun path inner => inner ∈ path) [literal] literal.properties met

variable {scope : Scope} {closed : List ObjectLiteral → ObjectLiteral → Prop}

section Inversion

variable {path : List ObjectLiteral} {property : Property} {value : Expr} {literal : ObjectLiteral}
  {rest met : List Property}

/-- A walk meets a property that is no spread where it stands. -/
theorem Unrolls.of_own (own : property.isSpread = false)
    (walked : scope.Unrolls closed path (property :: rest) met) :
    ∃ others, met = property :: others ∧ scope.Unrolls closed path rest others := by
  -- The walk has a step for properties that are no spreads.
  cases walked with
  | own _ others => exact ⟨_, rfl, others⟩
  | nowhere | closed | enter => simp [Property.isSpread] at own

/-- A walk passes over a spread that leads nowhere. -/
theorem Unrolls.of_nowhere (unknown : scope.object? value = none)
    (walked : scope.Unrolls closed path (.spread value :: rest) met) :
    scope.Unrolls closed path rest met := by
  -- No other step fits a spread that leads nowhere.
  cases walked with
  | own own _ => simp [Property.isSpread] at own
  | nowhere _ others => exact others
  | closed leads _ _ | enter leads _ _ _ => simp [unknown] at leads

/-- Where a spread leads to a literal, a walk passes over it or goes through the literal. -/
theorem Unrolls.of_leads (leads : scope.object? value = some literal)
    (walked : scope.Unrolls closed path (.spread value :: rest) met) :
    (closed path literal ∧ scope.Unrolls closed path rest met) ∨
      (¬ closed path literal ∧ ∃ inner others, met = inner ++ others ∧
        scope.Unrolls closed (literal :: path) literal.properties inner ∧
        scope.Unrolls closed path rest others) := by
  -- The literal is closed or open on the path.
  cases walked with
  | own own _ => simp [Property.isSpread] at own
  | nowhere unknown _ => simp [unknown] at leads
  | closed leads' shut others =>
    cases leads.symm.trans leads'
    exact Or.inl ⟨shut, others⟩
  | enter leads' opened inside others =>
    cases leads.symm.trans leads'
    exact Or.inr ⟨opened, _, _, rfl, inside, others⟩

end Inversion

/-- A walk meets one list of properties only. -/
theorem Unrolls.unique {path : List ObjectLiteral} {properties met others : List Property}
    (walked : scope.Unrolls closed path properties met)
    (again : scope.Unrolls closed path properties others) : met = others := by
  -- The first property and what it leads to leave one rule for each step.
  induction walked generalizing others with
  | nil =>
    cases again
    rfl
  | own own _ ih =>
    obtain ⟨rest, rfl, further⟩ := again.of_own own
    rw [ih further]
  | nowhere unknown _ ih => exact ih (again.of_nowhere unknown)
  | closed leads shut _ ih =>
    rcases again.of_leads leads with ⟨_, further⟩ | ⟨opened, _⟩
    · exact ih further
    · exact absurd shut opened
  | enter leads opened _ _ inside ih =>
    rcases again.of_leads leads with ⟨shut, _⟩ | ⟨_, inner, rest, rfl, within, further⟩
    · exact absurd shut opened
    · rw [inside within, ih further]

/-- A walk through some properties and those behind them is one through each part. -/
theorem Unrolls.of_append {path : List ObjectLiteral} {before behind met : List Property}
    (walked : scope.Unrolls closed path (before ++ behind) met) :
    ∃ first second, met = first ++ second ∧ scope.Unrolls closed path before first ∧
      scope.Unrolls closed path behind second := by
  -- Each property of the first part is met in front of all of the second.
  induction before generalizing met with
  | nil => exact ⟨[], met, rfl, .nil, walked⟩
  | cons property before ih =>
    cases walked with
    | own own others =>
      obtain ⟨first, second, rfl, walked, walked'⟩ := ih others
      exact ⟨_, second, (List.cons_append ..).symm, .own own walked, walked'⟩
    | nowhere unknown others =>
      obtain ⟨first, second, rfl, walked, walked'⟩ := ih others
      exact ⟨first, second, rfl, .nowhere unknown walked, walked'⟩
    | closed leads shut others =>
      obtain ⟨first, second, rfl, walked, walked'⟩ := ih others
      exact ⟨first, second, rfl, .closed leads shut walked, walked'⟩
    | enter leads opened inside others =>
      obtain ⟨first, second, rfl, walked, walked'⟩ := ih others
      exact ⟨_, second, (List.append_assoc ..).symm, .enter leads opened inside walked, walked'⟩

/-- A walk along paths without repetition comes to an end when all of these paths are short. -/
theorem exists_unrolls {limit : Nat} {literal : ObjectLiteral}
    (shallow : scope.Shallow limit literal)
    (avoids : ∀ outer rest inner, scope.Trail literal (outer :: rest) → scope.Spreads outer inner →
      ¬ closed (outer :: rest) inner → inner ∉ outer :: rest) :
    ∀ levels outer rest, scope.Trail literal (outer :: rest) → limit < rest.length + 1 + levels →
      ∀ properties, properties ⊆ outer.properties →
        ∃ met, scope.Unrolls closed (outer :: rest) properties met := by
  -- Each literal that is entered makes the path longer and leaves fewer levels.
  intro levels
  induction levels with
  | zero =>
    intro outer rest along deep
    have bound := shallow _ along
    simp only [List.length_cons] at bound
    omega
  | succ levels ih =>
    intro outer rest along deep properties
    induction properties with
    | nil => exact fun _ => ⟨[], .nil⟩
    | cons property others ihOthers =>
      intro within
      obtain ⟨inOuter, within⟩ := List.cons_subset.mp within
      obtain ⟨met, walked⟩ := ihOthers within
      rcases property.own_or_spread with own | ⟨value, rfl⟩
      · exact ⟨_, .own own walked⟩
      · cases leads : scope.object? value with
        | none => exact ⟨_, .nowhere leads walked⟩
        | some inner =>
          by_cases shut : closed (outer :: rest) inner
          · exact ⟨_, .closed leads shut walked⟩
          · have spreads : scope.Spreads outer inner := ⟨value, inOuter, leads⟩
            have fresh := avoids outer rest inner along spreads shut
            obtain ⟨entered, inside⟩ := ih inner (outer :: rest) (along.step spreads fresh)
              (by simp only [List.length_cons]; omega) inner.properties (List.Subset.refl _)
            exact ⟨_, .enter leads shut inside walked⟩

/-- A plain walk comes to an end, since it never goes round in circles. -/
theorem exists_plainWalk {limit : Nat} {literal : ObjectLiteral}
    (shallow : scope.Shallow limit literal) : ∃ met, scope.PlainWalk literal met :=
  -- The walk enters only literals that are not on its path.
  exists_unrolls shallow (fun _ _ _ _ _ opened => opened) limit literal [] .start (by simp)
    literal.properties (List.Subset.refl _)

/-- Two walks are the same when they agree on what is closed along paths without repetition. -/
theorem Unrolls.of_agree {closed' : List ObjectLiteral → ObjectLiteral → Prop}
    {literal : ObjectLiteral}
    (avoids : ∀ outer rest inner, scope.Trail literal (outer :: rest) → scope.Spreads outer inner →
      ¬ closed (outer :: rest) inner → inner ∉ outer :: rest)
    (agree : ∀ outer rest inner, scope.Trail literal (outer :: rest) → scope.Spreads outer inner →
      (closed (outer :: rest) inner ↔ closed' (outer :: rest) inner))
    {path : List ObjectLiteral} {properties met : List Property}
    (walked : scope.Unrolls closed path properties met) :
    ∀ outer rest, path = outer :: rest → scope.Trail literal (outer :: rest) →
      properties ⊆ outer.properties → scope.Unrolls closed' path properties met := by
  -- A literal that is entered adds a step to the path.
  induction walked with
  | nil => exact fun _ _ _ _ _ => .nil
  | own own _ ih =>
    intro outer rest same along within
    exact .own own (ih outer rest same along (List.cons_subset.mp within).2)
  | nowhere unknown _ ih =>
    intro outer rest same along within
    exact .nowhere unknown (ih outer rest same along (List.cons_subset.mp within).2)
  | closed leads shut _ ih =>
    rintro outer rest rfl along within
    obtain ⟨inOuter, within⟩ := List.cons_subset.mp within
    exact .closed leads ((agree _ _ _ along ⟨_, inOuter, leads⟩).mp shut)
      (ih outer rest rfl along within)
  | enter leads opened _ _ ihInside ih =>
    rintro outer rest rfl along within
    obtain ⟨inOuter, within⟩ := List.cons_subset.mp within
    have spreads : scope.Spreads outer _ := ⟨_, inOuter, leads⟩
    have fresh := avoids _ _ _ along spreads opened
    exact .enter leads (fun shut => opened ((agree _ _ _ along spreads).mpr shut))
      (ihInside _ _ rfl (along.step spreads fresh) (List.Subset.refl _))
      (ih outer rest rfl along within)

/-- Without circles, a plain walk passes over nothing. -/
theorem PlainWalk.inPlace {literal : ObjectLiteral} {met : List Property}
    (acyclic : scope.Acyclic literal) (walked : scope.PlainWalk literal met) :
    scope.InPlace literal met := by
  -- No spread along a path leads back to the path.
  refine Unrolls.of_agree (fun _ _ _ _ _ opened => opened) ?_ walked literal [] rfl .start
    (List.Subset.refl _)
  intro outer rest inner along spreads
  exact iff_of_false (along.fresh_of_acyclic acyclic spreads) id

/-- A plain walk hangs on its path only as far as the path is within reach. -/
theorem Unrolls.of_path {path : List ObjectLiteral} {properties met : List Property}
    (walked : scope.Unrolls (fun path inner => inner ∈ path) path properties met) :
    ∀ path' : List ObjectLiteral,
      (∀ value literal, .spread value ∈ properties → scope.object? value = some literal →
        ∀ inner, scope.Reaches literal inner → (inner ∈ path ↔ inner ∈ path')) →
      scope.Unrolls (fun path inner => inner ∈ path) path' properties met := by
  -- A literal that is entered joins both paths, and what it spreads was within reach before.
  induction walked with
  | nil => exact fun _ _ => .nil
  | own own _ ih =>
    intro path' agree
    exact .own own (ih path' fun value literal member => agree value literal (by simp [member]))
  | nowhere unknown _ ih =>
    intro path' agree
    exact .nowhere unknown
      (ih path' fun value literal member => agree value literal (by simp [member]))
  | closed leads shut _ ih =>
    intro path' agree
    exact .closed leads ((agree _ _ (by simp) leads _ .refl).mp shut)
      (ih path' fun value literal member => agree value literal (by simp [member]))
  | @enter path value literal rest inner met leads opened _ _ ihInside ih =>
    intro path' agree
    refine .enter leads (fun shut => opened ((agree _ _ (by simp) leads _ .refl).mpr shut)) ?_
      (ih path' fun value literal member => agree value literal (by simp [member]))
    apply ihInside (literal :: path')
    intro value' literal' member leads' reached within
    have reached := Relation.ReflTransGen.head ⟨value', member, leads'⟩ within
    simp only [List.mem_cons, agree _ _ (by simp) leads _ reached]

end Scope

end PropCatalog
