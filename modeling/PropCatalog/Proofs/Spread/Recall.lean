import PropCatalog.Proofs.OrderedMap
import PropCatalog.Proofs.Spread.Unrolling
import PropCatalog.Record.Spread

/-! The expansion of a literal as a walk with a memory: it enters every literal once, and repeats
from memory what it met in a literal when a later spread leads there again. -/

namespace PropCatalog

open Syntax

/-- What a walk remembers: the literals that it has gone through, with the properties it met there.
-/
abbrev Memory := List (ObjectLiteral × List Property)

/-- The walk has gone through a literal. -/
def Memory.Knows (memory : Memory) (literal : ObjectLiteral) : Prop :=
  ∃ met, memory.lookup literal = some met

/-- The maps that an entry function makes of a memory. -/
def Memory.expansions {α : Type} (pick? : Property → Option (String × α)) (memory : Memory) :
    Expansions α :=
  memory.map fun (literal, met) => (literal, .ofList (met.filterMap pick?))

namespace Scope

/-- The properties that a walk with a memory meets in some properties, inside the literals of a
path, with the memory before and after them. -/
inductive Recalls (scope : Scope) :
    List ObjectLiteral → List Property → Memory → List Property → Memory → Prop where
  | nil {path : List ObjectLiteral} {memory : Memory} : Recalls scope path [] memory [] memory
  | own {path : List ObjectLiteral} {property : Property} {rest met : List Property}
      {memory after : Memory} (own : property.isSpread = false)
      (others : Recalls scope path rest memory met after) :
      Recalls scope path (property :: rest) memory (property :: met) after
  | nowhere {path : List ObjectLiteral} {value : Expr} {rest met : List Property}
      {memory after : Memory} (unknown : scope.object? value = none)
      (others : Recalls scope path rest memory met after) :
      Recalls scope path (.spread value :: rest) memory met after
  -- A literal that the walk is inside of is passed over and not remembered.
  | inside {path : List ObjectLiteral} {value : Expr} {literal : ObjectLiteral}
      {rest met : List Property} {memory after : Memory}
      (leads : scope.object? value = some literal) (new : memory.lookup literal = none)
      (onPath : literal ∈ path) (others : Recalls scope path rest memory met after) :
      Recalls scope path (.spread value :: rest) memory met after
  -- What is remembered is met again even if a plain walk would meet something else here.
  | remembered {path : List ObjectLiteral} {value : Expr} {literal : ObjectLiteral}
      {rest inner met : List Property} {memory after : Memory}
      (leads : scope.object? value = some literal) (known : memory.lookup literal = some inner)
      (others : Recalls scope path rest memory met after) :
      Recalls scope path (.spread value :: rest) memory (inner ++ met) after
  -- A new literal is gone through and remembered behind what became known inside of it.
  | enter {path : List ObjectLiteral} {value : Expr} {literal : ObjectLiteral}
      {rest inner met : List Property} {memory between after : Memory}
      (leads : scope.object? value = some literal) (new : memory.lookup literal = none)
      (fresh : literal ∉ path)
      (within : Recalls scope (literal :: path) literal.properties memory inner between)
      (others : Recalls scope path rest ((literal, inner) :: between) met after) :
      Recalls scope path (.spread value :: rest) memory (inner ++ met) after

section Expansion

variable {α : Type} (scope : Scope) (pick? : Property → Option (String × α))

/-- A lookup among the maps of a memory makes the map of what is remembered. -/
theorem lookup_expansions (memory : Memory) (literal : ObjectLiteral) :
    (memory.expansions pick?).lookup literal =
      (memory.lookup literal).map fun met => .ofList (met.filterMap pick?) := by
  -- The maps stand under the same literals in the same order.
  induction memory with
  | nil => rfl
  | cons entry rest ih =>
    rcases entry with ⟨other, met⟩
    by_cases same : literal = other
    · simp [Memory.expansions, same]
    · simpa [Memory.expansions, List.lookup_cons, beq_eq_false_iff_ne.2 same] using ih

/-- A literal that has been expanded is not expanded again. -/
theorem expandWithin_known {expansions : Expansions α} {literal : ObjectLiteral}
    {entries : OrderedMap α} (known : expansions.lookup literal = some entries) (levels : Nat)
    (path : List ObjectLiteral) :
    scope.expandWithin pick? levels path literal expansions = (entries, expansions) := by
  -- Even below the last level the lookup comes first.
  cases levels <;> simp [expandWithin, known]

/-- A literal on its own path has no entries. -/
theorem expandWithin_inside {expansions : Expansions α} {literal : ObjectLiteral}
    (new : expansions.lookup literal = none) (levels : Nat) {path : List ObjectLiteral}
    (onPath : literal ∈ path) :
    scope.expandWithin pick? levels path literal expansions = (.empty, expansions) := by
  -- It is passed over above and below the last level.
  cases levels <;> simp [expandWithin, new, onPath]

/-- A new literal is expanded property by property and then remembered. -/
theorem expandWithin_enter {expansions after : Expansions α} {literal : ObjectLiteral}
    {entries : OrderedMap α} (new : expansions.lookup literal = none) (levels : Nat)
    {path : List ObjectLiteral} (fresh : literal ∉ path)
    (expanded : literal.properties.foldl
      (scope.addEntries pick? (scope.expandWithin pick? levels (literal :: path)))
      (.empty, expansions) = (entries, after)) :
    scope.expandWithin pick? (levels + 1) path literal expansions =
      (entries, (literal, entries) :: after) := by
  simp [expandWithin, new, fresh, expanded]

/-- What is no spread adds the entry that is picked from it, if there is one. -/
theorem addEntries_own
    (expand : ObjectLiteral → Expansions α → OrderedMap α × Expansions α) (m : OrderedMap α)
    (expansions : Expansions α) {property : Property} (own : property.isSpread = false) :
    scope.addEntries pick? expand (m, expansions) property =
      (([property].filterMap pick?).foldl (fun m (name, value) => m.insert name value) m,
        expansions) := by
  -- Every form but the spread reads the entry function.
  cases property with
  | spread value => simp [Property.isSpread] at own
  | _ => simp only [addEntries, List.filterMap_cons]; split <;> simp_all

/-- A spread that leads nowhere adds nothing. -/
theorem addEntries_nowhere
    (expand : ObjectLiteral → Expansions α → OrderedMap α × Expansions α) (m : OrderedMap α)
    (expansions : Expansions α) {value : Expr} (unknown : scope.object? value = none) :
    scope.addEntries pick? expand (m, expansions) (.spread value) = (m, expansions) := by
  simp [addEntries, unknown]

/-- A spread adds the insertions that have made the map of the literal it leads to. -/
theorem addEntries_leads
    {expand : ObjectLiteral → Expansions α → OrderedMap α × Expansions α} (m : OrderedMap α)
    {expansions after : Expansions α} {value : Expr} {literal : ObjectLiteral}
    {pairs : List (String × α)} (leads : scope.object? value = some literal)
    (expanded : expand literal expansions = (.ofList pairs, after)) :
    scope.addEntries pick? expand (m, expansions) (.spread value) =
      (pairs.foldl (fun m (name, value) => m.insert name value) m, after) := by
  simp only [addEntries, leads, expanded, OrderedMap.insertAll_ofList]

end Expansion

variable {scope : Scope} {literal : ObjectLiteral}

/-- A walk with a memory along paths without repetition comes to an end when all of these paths are
short. -/
theorem exists_recalls {limit : Nat} (shallow : scope.Shallow limit literal) :
    ∀ levels outer rest, scope.Trail literal (outer :: rest) → limit < rest.length + 1 + levels →
      ∀ properties, properties ⊆ outer.properties → ∀ memory,
        ∃ met after, scope.Recalls (outer :: rest) properties memory met after := by
  -- Each literal that is entered makes the path longer and leaves fewer levels.
  intro levels
  induction levels with
  | zero =>
    intro outer rest along deep
    have bound := shallow _ along
    simp only [List.length_cons] at bound
    omega
  | succ levels ihLevels =>
    intro outer rest along deep properties
    induction properties with
    | nil => exact fun _ memory => ⟨[], memory, .nil⟩
    | cons property others ih =>
      intro within memory
      obtain ⟨inOuter, within⟩ := List.cons_subset.mp within
      replace ih := ih within
      obtain ⟨met, after, walked⟩ := ih memory
      rcases property.own_or_spread with own | ⟨value, rfl⟩
      · exact ⟨_, _, .own own walked⟩
      · cases leads : scope.object? value with
        | none => exact ⟨_, _, .nowhere leads walked⟩
        | some inner =>
          cases known : memory.lookup inner with
          | some remembered => exact ⟨_, _, .remembered leads known walked⟩
          | none =>
            by_cases onPath : inner ∈ outer :: rest
            · exact ⟨_, _, .inside leads known onPath walked⟩
            · -- What is met inside the literal is remembered behind it.
              have step := along.step ⟨value, inOuter, leads⟩ onPath
              obtain ⟨entered, between, walkedInside⟩ := ihLevels inner (outer :: rest) step
                (by simp only [List.length_cons]; omega) inner.properties
                (List.Subset.refl _) memory
              obtain ⟨met, after, walked⟩ := ih ((inner, entered) :: between)
              exact ⟨_, _, .enter leads known onPath walkedInside walked⟩

/-- The properties of a literal on a path are expanded as a walk with a memory meets them, when no
path is longer than there are levels. -/
theorem Recalls.foldl_addEntries {α : Type} (pick? : Property → Option (String × α))
    (shallow : scope.Shallow depthLimit literal) {path : List ObjectLiteral}
    {properties met : List Property} {memory after : Memory}
    (walked : scope.Recalls path properties memory met after) :
    ∀ outer rest levels, path = outer :: rest → scope.Trail literal path →
      path.length + levels = depthLimit → properties ⊆ outer.properties → ∀ m : OrderedMap α,
        properties.foldl (scope.addEntries pick? (scope.expandWithin pick? levels path))
            (m, memory.expansions pick?) =
          ((met.filterMap pick?).foldl (fun m (name, value) => m.insert name value) m,
            after.expansions pick?) := by
  -- The map holds the insertions of the properties that have been met so far.
  induction walked with
  | nil => exact fun _ _ _ _ _ _ _ _ => rfl
  | own own _ ih =>
    intro outer rest levels same along depth within m
    rw [List.foldl_cons, addEntries_own scope pick? _ m _ own,
      ih outer rest levels same along depth (List.cons_subset.mp within).2, ← List.foldl_append,
      ← List.filterMap_append, List.singleton_append]
  | nowhere unknown _ ih =>
    intro outer rest levels same along depth within m
    rw [List.foldl_cons, addEntries_nowhere scope pick? _ m _ unknown]
    exact ih outer rest levels same along depth (List.cons_subset.mp within).2 m
  | @inside path value inner rest met memory after leads new onPath _ ih =>
    -- The empty map of a literal on the path adds nothing.
    intro outer rest levels same along depth within m
    have skipped : scope.expandWithin pick? levels path inner (memory.expansions pick?) =
        (.ofList [], memory.expansions pick?) :=
      expandWithin_inside scope pick? (by simp [lookup_expansions, new]) levels onPath
    rw [List.foldl_cons, addEntries_leads scope pick? m leads skipped]
    exact ih outer rest levels same along depth (List.cons_subset.mp within).2 m
  | @remembered path value inner rest remembered met memory after leads known _ ih =>
    -- Adding the map of a known literal has the effect of the insertions that have built it.
    intro outer rest levels same along depth within m
    have stored : (memory.expansions pick?).lookup inner =
        some (.ofList (remembered.filterMap pick?)) := by
      simp [lookup_expansions, known]
    rw [List.foldl_cons,
      addEntries_leads scope pick? m leads (expandWithin_known scope pick? stored levels path),
      ih outer rest levels same along depth (List.cons_subset.mp within).2,
      List.filterMap_append, List.foldl_append]
  | @enter path value inner rest entered met memory between after leads new fresh _ _ ihWithin ih =>
    rintro outer rest levels rfl along depth within m
    obtain ⟨inOuter, within⟩ := List.cons_subset.mp within
    -- The path to the literal is short, so there is a level left for it.
    have step := along.step ⟨value, inOuter, leads⟩ fresh
    have bound := shallow _ step
    simp only [List.length_cons] at bound depth
    obtain ⟨fewer, rfl⟩ : ∃ fewer, levels = fewer + 1 := ⟨levels - 1, by omega⟩
    have inside := ihWithin inner (outer :: rest) fewer rfl step
      (by simp only [List.length_cons]; omega) (List.Subset.refl _) .empty
    have expanded := expandWithin_enter scope pick? (by simp [lookup_expansions, new]) fewer fresh
      inside
    rw [List.foldl_cons, addEntries_leads scope pick? m leads expanded, List.filterMap_append,
      List.foldl_append]
    exact ih outer rest (fewer + 1) rfl along depth within _

/-- Whatever the entry function, a literal is expanded to the entries of what a walk with a memory
meets in it. -/
theorem exists_recalls_expand (shallow : scope.Shallow depthLimit literal) :
    ∃ met after, scope.Recalls [literal] literal.properties [] met after ∧
      ∀ (α : Type) (pick? : Property → Option (String × α)),
        scope.expand pick? literal = .ofList (met.filterMap pick?) := by
  -- The literal itself takes the first level.
  obtain ⟨met, after, walked⟩ := exists_recalls shallow depthLimit literal [] .start (by simp)
    literal.properties (List.Subset.refl _) []
  refine ⟨met, after, walked, fun α pick? => ?_⟩
  have new : (Memory.expansions pick? []).lookup literal = none := rfl
  have expanded := walked.foldl_addEntries pick? shallow literal [] (depthLimit - 1) rfl .start
    (by simp [depthLimit]) (List.Subset.refl _) .empty
  exact congrArg Prod.fst
    (expandWithin_enter scope pick? new (depthLimit - 1) List.not_mem_nil expanded)

end Scope

end PropCatalog
