import PropCatalog.Proofs.Spread.Recall

/-! A walk with a memory meets the properties of all literals within reach and no others, although
it passes over literals that it is inside of and repeats what it met while it was inside of others.
-/

namespace PropCatalog

open Syntax

namespace Memory

theorem not_knows_nil (literal : ObjectLiteral) : ¬ Knows [] literal := by
  simp [Knows]

/-- Remembering a literal adds it to those that are known. -/
theorem knows_cons (memory : Memory) (literal other : ObjectLiteral) (met : List Property) :
    Knows ((literal, met) :: memory) other ↔ other = literal ∨ memory.Knows other := by
  -- The new entry is the first one that a lookup meets.
  by_cases same : other = literal
  · simp [Knows, same]
  · simp [Knows, List.lookup_cons, beq_eq_false_iff_ne.2 same, same]

end Memory

namespace Scope

/-- A property of a literal or of one that it reaches. -/
def Offers (scope : Scope) (literal : ObjectLiteral) (property : Property) : Prop :=
  property.isSpread = false ∧ ∃ inner, scope.Reaches literal inner ∧ property ∈ inner.properties

/-- What a walk has done with a literal: it has followed its spreads, unless it is still inside of
where they lead, and has met its properties. -/
structure Explored (scope : Scope) (path : List ObjectLiteral) (met : List Property)
    (memory : Memory) (literal : ObjectLiteral) : Prop where
  followed : ∀ inner, scope.Spreads literal inner → memory.Knows inner ∨ inner ∈ path
  met : ∀ property ∈ literal.properties, property.isSpread = false → property ∈ met

/-- What is remembered has been met in literals that are known. -/
def Grounded (memory : Memory) : Prop :=
  ∀ literal met, memory.lookup literal = some met → ∀ property ∈ met, property.isSpread = false ∧
    ∃ inner, memory.Knows inner ∧ property ∈ inner.properties

/-- What was met inside a literal is remembered together with that literal. -/
theorem Grounded.cons {memory : Memory} {met : List Property} {literal : ObjectLiteral}
    (ground : Grounded memory)
    (places : ∀ property ∈ met, property.isSpread = false ∧
      (property ∈ literal.properties ∨ ∃ inner, memory.Knows inner ∧ property ∈ inner.properties)) :
    Grounded ((literal, met) :: memory) := by
  -- The literal itself is known from here on.
  intro other remembered lookup property member
  by_cases same : other = literal
  · subst other
    simp only [List.lookup_cons_self, Option.some.injEq] at lookup
    obtain ⟨own, place⟩ := places property (lookup ▸ member)
    refine ⟨own, ?_⟩
    rcases place with member | ⟨inner, known, member⟩
    · exact ⟨literal, (Memory.knows_cons ..).mpr (Or.inl rfl), member⟩
    · exact ⟨inner, (Memory.knows_cons ..).mpr (Or.inr known), member⟩
  · rw [List.lookup_cons, beq_eq_false_iff_ne.2 same] at lookup
    obtain ⟨own, inner, known, member⟩ := ground _ _ lookup property member
    exact ⟨own, inner, (Memory.knows_cons ..).mpr (Or.inr known), member⟩

namespace Recalls

variable {scope : Scope} {path : List ObjectLiteral} {properties met : List Property}
  {memory after : Memory}

/-- A walk forgets nothing. -/
theorem knows_after (walked : scope.Recalls path properties memory met after)
    {literal : ObjectLiteral} (known : memory.Knows literal) : after.Knows literal := by
  -- Every literal that is entered adds to the memory.
  induction walked with
  | nil => exact known
  | own _ _ ih | nowhere _ _ ih | inside _ _ _ _ ih | remembered _ _ _ ih => exact ih known
  | enter _ _ _ _ _ ihWithin ih => exact ih ((Memory.knows_cons ..).mpr (Or.inr (ihWithin known)))

/-- A walk gets to know the literals that are spread, unless it is inside of them. -/
theorem knows_spread (walked : scope.Recalls path properties memory met after) {value : Expr}
    {literal : ObjectLiteral} (spread : .spread value ∈ properties)
    (leads : scope.object? value = some literal) : after.Knows literal ∨ literal ∈ path := by
  -- The spread is the first property or among the others.
  induction walked with
  | nil => simp at spread
  | own own _ ih =>
    rcases List.mem_cons.mp spread with rfl | spread
    · simp [Property.isSpread] at own
    · exact ih spread
  | nowhere unknown _ ih =>
    rcases List.mem_cons.mp spread with same | spread
    · cases same
      simp [unknown] at leads
    · exact ih spread
  | inside leads' _ onPath _ ih =>
    rcases List.mem_cons.mp spread with same | spread
    · cases same
      cases leads.symm.trans leads'
      exact Or.inr onPath
    · exact ih spread
  | remembered leads' known others ih =>
    -- A literal that is known once stays known.
    rcases List.mem_cons.mp spread with same | spread
    · cases same
      cases leads.symm.trans leads'
      exact Or.inl (others.knows_after ⟨_, known⟩)
    · exact ih spread
  | enter leads' _ _ _ others _ ih =>
    rcases List.mem_cons.mp spread with same | spread
    · cases same
      cases leads.symm.trans leads'
      exact Or.inl (others.knows_after ((Memory.knows_cons ..).mpr (Or.inl rfl)))
    · exact ih spread

/-- A walk meets the properties that it goes through. -/
theorem own_met (walked : scope.Recalls path properties memory met after) {property : Property}
    (member : property ∈ properties) (own : property.isSpread = false) : property ∈ met := by
  -- The walk meets each of its own properties when it comes to it.
  induction walked with
  | nil => simp at member
  | own _ _ ih =>
    rcases List.mem_cons.mp member with rfl | member
    · simp
    · simp [ih member]
  | nowhere _ _ ih | inside _ _ _ _ ih =>
    rcases List.mem_cons.mp member with rfl | member
    · simp [Property.isSpread] at own
    · exact ih member
  | remembered _ _ _ ih | enter _ _ _ _ _ _ ih =>
    rcases List.mem_cons.mp member with rfl | member
    · simp [Property.isSpread] at own
    · exact List.mem_append_right _ (ih member)

/-- A walk explores every literal that it gets to know. -/
theorem explored (walked : scope.Recalls path properties memory met after)
    {literal : ObjectLiteral} (known : after.Knows literal) :
    memory.Knows literal ∨ scope.Explored path met after literal := by
  -- A literal that is entered is explored with the literals that become known inside of it.
  induction walked with
  | nil => exact Or.inl known
  | own _ _ ih =>
    refine (ih known).imp_right fun done => ⟨done.followed, fun property member own => ?_⟩
    exact List.mem_cons_of_mem _ (done.met property member own)
  | nowhere _ _ ih | inside _ _ _ _ ih => exact ih known
  | remembered _ _ _ ih =>
    -- What is repeated from memory only adds to what is met.
    refine (ih known).imp_right fun done => ⟨done.followed, fun property member own => ?_⟩
    exact List.mem_append_right _ (done.met property member own)
  | @enter path value entered rest inner met memory between after _ _ _ within others ihWithin ih =>
    rcases ih known with before | done
    · -- Where the spreads inside lead is known or on the path when the walk goes on, too.
      have later : ∀ other, between.Knows other ∨ other ∈ entered :: path →
          after.Knows other ∨ other ∈ path := by
        rintro other (known | onPath)
        · exact Or.inl (others.knows_after ((Memory.knows_cons ..).mpr (Or.inr known)))
        · rcases List.mem_cons.mp onPath with rfl | onPath
          · exact Or.inl (others.knows_after ((Memory.knows_cons ..).mpr (Or.inl rfl)))
          · exact Or.inr onPath
      rcases (Memory.knows_cons ..).mp before with rfl | known
      · -- The literal itself has just been gone through.
        refine Or.inr ⟨?_, fun property member own => ?_⟩
        · rintro other ⟨value, spread, leads⟩
          exact later other (within.knows_spread spread leads)
        · exact List.mem_append_left _ (within.own_met member own)
      · -- A literal that became known inside of it was explored there.
        refine (ihWithin known).imp_right fun done => ⟨?_, fun property member own => ?_⟩
        · exact fun other spread => later other (done.followed other spread)
        · exact List.mem_append_left _ (done.met property member own)
    · refine Or.inr ⟨done.followed, fun property member own => ?_⟩
      exact List.mem_append_right _ (done.met property member own)

/-- What a walk gets to know is within reach of the literal it is in. -/
theorem reaches (walked : scope.Recalls path properties memory met after)
    {literal : ObjectLiteral} (known : after.Knows literal) :
    ∀ outer rest, path = outer :: rest → properties ⊆ outer.properties →
      memory.Knows literal ∨ scope.Reaches outer literal := by
  -- A literal that is entered is spread by the one around it.
  induction walked with
  | nil => exact fun _ _ _ _ => Or.inl known
  | own _ _ ih | nowhere _ _ ih | inside _ _ _ _ ih | remembered _ _ _ ih =>
    exact fun outer rest same within => ih known outer rest same (List.cons_subset.mp within).2
  | enter leads _ _ _ _ ihWithin ih =>
    rintro outer rest rfl within
    obtain ⟨inOuter, within⟩ := List.cons_subset.mp within
    have spread : scope.Spreads outer _ := ⟨_, inOuter, leads⟩
    rcases ih known outer rest rfl within with before | reached
    · rcases (Memory.knows_cons ..).mp before with rfl | known
      · exact Or.inr (.single spread)
      · exact (ihWithin known _ _ rfl (List.Subset.refl _)).imp_right fun reached =>
          Relation.ReflTransGen.head spread reached
    · exact Or.inr reached

/-- What a walk meets stands in the properties it goes through or in a literal it knows, and what it
remembers stays so. -/
theorem grounded (walked : scope.Recalls path properties memory met after)
    (ground : Grounded memory) :
    Grounded after ∧ ∀ property ∈ met, property.isSpread = false ∧
      (property ∈ properties ∨ ∃ inner, after.Knows inner ∧ property ∈ inner.properties) := by
  -- A property of a literal that was entered or recalled is one of a known literal.
  induction walked with
  | nil => exact ⟨ground, by simp⟩
  | own own _ ih =>
    obtain ⟨ground, places⟩ := ih ground
    refine ⟨ground, fun property member => ?_⟩
    rcases List.mem_cons.mp member with rfl | member
    · exact ⟨own, Or.inl (List.mem_cons_self ..)⟩
    · exact (places property member).imp_right (Or.imp_left (List.mem_cons_of_mem _))
  | nowhere _ _ ih | inside _ _ _ _ ih =>
    obtain ⟨ground, places⟩ := ih ground
    refine ⟨ground, fun property member => ?_⟩
    exact (places property member).imp_right (Or.imp_left (List.mem_cons_of_mem _))
  | remembered _ known others ih =>
    -- What is repeated is as well grounded as it was in the memory.
    obtain ⟨after, places⟩ := ih ground
    refine ⟨after, fun property member => ?_⟩
    rcases List.mem_append.mp member with recalled | member
    · obtain ⟨own, inner, knows, member⟩ := ground _ _ known property recalled
      exact ⟨own, Or.inr ⟨inner, others.knows_after knows, member⟩⟩
    · exact (places property member).imp_right (Or.imp_left (List.mem_cons_of_mem _))
  | enter _ _ _ _ others ihWithin ih =>
    -- The literal is known behind the spread, so its own properties are grounded there.
    obtain ⟨groundBetween, placesWithin⟩ := ihWithin ground
    have groundLiteral := groundBetween.cons placesWithin
    obtain ⟨ground, places⟩ := ih groundLiteral
    refine ⟨ground, fun property member => ?_⟩
    rcases List.mem_append.mp member with member | member
    · obtain ⟨own, inner, known, member⟩ :=
        groundLiteral _ _ List.lookup_cons_self property member
      exact ⟨own, Or.inr ⟨inner, others.knows_after known, member⟩⟩
    · exact (places property member).imp_right (Or.imp_left (List.mem_cons_of_mem _))

end Recalls

/-- A walk from a literal that knows nothing meets exactly the properties within reach. -/
theorem mem_recalls_iff {scope : Scope} {literal : ObjectLiteral} {met : List Property}
    {after : Memory} (walked : scope.Recalls [literal] literal.properties [] met after)
    (property : Property) : property ∈ met ↔ scope.Offers literal property := by
  -- The walk stays within reach, and what it has met is closed under spreads.
  constructor
  · -- What is met stands in the literal or in one that is known, and those are within reach.
    intro member
    have nothing : Grounded [] := fun _ _ lookup => by simp at lookup
    obtain ⟨own, place⟩ := (walked.grounded nothing).2 property member
    rcases place with member | ⟨inner, known, member⟩
    · exact ⟨own, literal, .refl, member⟩
    · have reached := (walked.reaches known literal [] rfl (List.Subset.refl _)).resolve_left
        (Memory.not_knows_nil inner)
      exact ⟨own, inner, reached, member⟩
  · -- The literal and those that are known are closed under spreads, so they are all within reach.
    rintro ⟨own, inner, reached, member⟩
    have known : after.Knows inner ∨ inner = literal := by
      refine Reaches.closed (fun inner => after.Knows inner ∨ inner = literal) (Or.inr rfl)
        (fun outer inner place spread => ?_) reached
      have done : after.Knows inner ∨ inner ∈ [literal] := by
        rcases place with known | rfl
        · exact ((walked.explored known).resolve_left
            (Memory.not_knows_nil outer)).followed inner spread
        · obtain ⟨value, spread, leads⟩ := spread
          exact walked.knows_spread spread leads
      simpa using done
    rcases known with known | rfl
    · exact ((walked.explored known).resolve_left (Memory.not_knows_nil inner)).met property member
        own
    · exact walked.own_met member own

/-- Expanding a literal loses no entry and invents none: its names are those that the entry function
gives for some property within reach, and the value of each is one that it gives for the name. -/
theorem expand_offers {scope : Scope} {literal : ObjectLiteral}
    (few : {inner | scope.Reaches literal inner}.encard ≤ depthLimit) {α : Type}
    (pick? : Property → Option (String × α)) :
    (∀ name, name ∈ (scope.expand pick? literal).names ↔
      ∃ property value, scope.Offers literal property ∧ pick? property = some (name, value)) ∧
    ∀ name value, (scope.expand pick? literal).get? name = some value →
      ∃ property, scope.Offers literal property ∧ pick? property = some (name, value) := by
  -- The map is made of the properties that a walk with a memory meets.
  obtain ⟨met, after, walked, expanded⟩ := exists_recalls_expand (shallow_of_encard_le few)
  rw [expanded α pick?]
  refine ⟨fun name => ?_, fun name value found => ?_⟩
  · simp only [OrderedMap.names_ofList, List.mem_eraseDups, List.mem_map, List.mem_filterMap,
      mem_recalls_iff walked]
    constructor
    · rintro ⟨⟨_, value⟩, ⟨property, offered, picked⟩, rfl⟩
      exact ⟨property, value, offered, picked⟩
    · rintro ⟨property, value, offered, picked⟩
      exact ⟨(name, value), ⟨property, offered, picked⟩, rfl⟩
  · rw [OrderedMap.get?_ofList] at found
    obtain ⟨before, behind, split, _⟩ := List.lookup_eq_some_iff.mp found
    have member : (name, value) ∈ met.filterMap pick? := by
      rw [← List.mem_reverse, split]
      simp
    obtain ⟨property, member, picked⟩ := List.mem_filterMap.mp member
    exact ⟨property, (mem_recalls_iff walked property).mp member, picked⟩

namespace Circle

/-- The literal `{ ...late, x: 'a' }`. -/
def early : ObjectLiteral where
  span := ⟨14, 33⟩
  properties := [.spread (.name ⟨19, 23⟩ "late"), .pair 25 (.name "x") (.string ⟨28, 31⟩ "a")]

/-- The literal `{ x: 'b', ...early }`. -/
def late : ObjectLiteral where
  span := ⟨48, 68⟩
  properties := [.pair 50 (.name "x") (.string ⟨53, 56⟩ "b"), .spread (.name ⟨61, 66⟩ "early")]

/-- A module that gives two literals their names, each of which spreads the other. -/
def scope : Scope where
  bindings :=
    [("late", .value (.object late.span late.properties)),
      ("early", .value (.object early.span early.properties))]
  assignments := []

/-- The entries of strings. -/
def text? : Property → Option (String × String)
  | .pair _ (.name name) (.string _ text) => some (name, text)
  | _ => none

theorem encard_reaches_early :
    {inner | Circle.scope.Reaches early inner}.encard ≤ depthLimit := by
  -- Both literals are within reach and no others.
  have two : {inner | Circle.scope.Reaches early inner}.encard ≤ [early, late].length :=
    encard_reaches_le (by simp) (by decide +kernel)
  exact two.trans (by exact_mod_cast (by decide : 2 ≤ depthLimit))

end Circle

theorem expand_offers_circle :
    {inner | Circle.scope.Reaches Circle.early inner}.encard ≤ depthLimit ∧
    (∀ name, name ∈ (Circle.scope.expand Circle.text? Circle.early).names ↔
      ∃ property value, Circle.scope.Offers Circle.early property ∧
        Circle.text? property = some (name, value)) ∧
    ∀ name value, (Circle.scope.expand Circle.text? Circle.early).get? name = some value →
      ∃ property, Circle.scope.Offers Circle.early property ∧
        Circle.text? property = some (name, value) :=
  ⟨Circle.encard_reaches_early, expand_offers Circle.encard_reaches_early Circle.text?⟩

end Scope

end PropCatalog
