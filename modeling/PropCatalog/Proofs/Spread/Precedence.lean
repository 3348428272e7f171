import PropCatalog.Proofs.Spread.Coverage

/-! How a walk with a memory compares with a plain one: it meets the same properties, and they come
first in the same order. They come last in the same order, so that the same entry of a name counts,
when no literal is remembered with less than a plain walk would meet in it. -/

namespace PropCatalog.Scope

open Syntax

variable {scope : Scope} {path : List ObjectLiteral} {memory after : Memory}
  {properties met plain : List Property}

/-- The spreads of known literals lead to known literals or back to the path. -/
def ClosedUnder (scope : Scope) (path : List ObjectLiteral) (memory : Memory) : Prop :=
  ∀ outer inner, memory.Knows outer → scope.Spreads outer inner → memory.Knows inner ∨ inner ∈ path

/-- A longer path leaves what is known closed. -/
theorem ClosedUnder.enter {literal : ObjectLiteral} (closed : scope.ClosedUnder path memory) :
    scope.ClosedUnder (literal :: path) memory :=
  fun outer inner known spread =>
    (closed outer inner known spread).imp_right (List.mem_cons_of_mem _)

/-- Entering a literal makes what is known closed when the walk leaves it again. -/
theorem Recalls.closedUnder_enter {literal : ObjectLiteral} {inner : List Property}
    {between : Memory} (closed : scope.ClosedUnder path memory)
    (within : scope.Recalls (literal :: path) literal.properties memory inner between) :
    scope.ClosedUnder path ((literal, inner) :: between) := by
  -- A spread back to the literal that was entered leads to a known one now.
  have later : ∀ other, between.Knows other ∨ other ∈ literal :: path →
      Memory.Knows ((literal, inner) :: between) other ∨ other ∈ path := by
    intro other place
    rw [Memory.knows_cons]
    rcases place with known | onPath
    · exact Or.inl (Or.inr known)
    · rcases List.mem_cons.mp onPath with same | onPath
      · exact Or.inl (Or.inl same)
      · exact Or.inr onPath
  intro outer other known spread
  rcases (Memory.knows_cons ..).mp known with rfl | known
  · obtain ⟨value, spread, leads⟩ := spread
    exact later other (within.knows_spread spread leads)
  · rcases within.explored known with before | done
    · refine later other ((closed outer other before spread).imp within.knows_after ?_)
      exact List.mem_cons_of_mem _
    · exact later other (done.followed other spread)

/-- A plain walk through a known literal stays among the known ones. -/
theorem Unrolls.known {root : List ObjectLiteral} (closed : scope.ClosedUnder root memory)
    (walked : scope.Unrolls (fun path inner => inner ∈ path) path properties plain) :
    ∀ literal, memory.Knows literal → properties ⊆ literal.properties → root ⊆ path →
      ∀ property ∈ plain, ∃ inner, memory.Knows inner ∧ property.isSpread = false ∧
        property ∈ inner.properties := by
  -- A spread that does not lead back to the path leads to a known literal.
  induction walked with
  | nil => simp
  | own own _ ih =>
    intro literal known within onPath property member
    obtain ⟨inLiteral, within⟩ := List.cons_subset.mp within
    rcases List.mem_cons.mp member with rfl | member
    · exact ⟨literal, known, own, inLiteral⟩
    · exact ih literal known within onPath property member
  | nowhere _ _ ih | closed _ _ _ ih =>
    intro literal known within
    exact ih literal known (List.cons_subset.mp within).2
  | enter leads opened _ _ ihInside ih =>
    intro literal known within onPath property member
    obtain ⟨inLiteral, within⟩ := List.cons_subset.mp within
    rcases List.mem_append.mp member with member | member
    · have reached := (closed literal _ known ⟨_, inLiteral, leads⟩).resolve_right
        fun inRoot => opened (onPath inRoot)
      exact ihInside _ reached (List.Subset.refl _)
        (fun _ inRoot => List.mem_cons_of_mem _ (onPath inRoot)) property member
    · exact ih literal known within onPath property member

/-- All properties of known literals are among some that were met before. -/
def Seen (memory : Memory) (before : List Property) : Prop :=
  ∀ literal, memory.Knows literal →
    ∀ property ∈ literal.properties, property.isSpread = false → property ∈ before

/-- Meeting more properties leaves those of known literals met. -/
theorem Seen.append {before : List Property} (seen : Seen memory before) (further : List Property) :
    Seen memory (before ++ further) :=
  fun literal known property member own =>
    List.mem_append_left _ (seen literal known property member own)

/-- What is remembered of a literal is no news. -/
theorem Seen.remembered {before inner : List Property} {literal : ObjectLiteral}
    (seen : Seen memory before) (ground : Grounded memory)
    (known : memory.lookup literal = some inner) : inner ⊆ before := by
  -- It was met in literals that are known.
  intro property member
  obtain ⟨own, place, known, member⟩ := ground literal inner known property member
  exact seen place known property member own

/-- What a plain walk meets in a known literal is no news. -/
theorem Seen.unrolled {before inner : List Property} {literal : ObjectLiteral}
    (seen : Seen memory before) (closed : scope.ClosedUnder path memory)
    (known : memory.Knows literal)
    (walked : scope.Unrolls (fun path inner => inner ∈ path) (literal :: path) literal.properties
      inner) : inner ⊆ before := by
  -- The walk stays among the known literals.
  intro property member
  obtain ⟨place, known, own, member⟩ := walked.known closed literal known (List.Subset.refl _)
    (List.subset_cons_self ..) property member
  exact seen place known property member own

/-- When a walk leaves a literal, the properties of all literals that it knows then have been
met. -/
theorem Recalls.seen_enter {before inner : List Property} {literal : ObjectLiteral}
    {between : Memory} (seen : Seen memory before)
    (within : scope.Recalls (literal :: path) literal.properties memory inner between) :
    Seen ((literal, inner) :: between) (before ++ inner) := by
  -- They belong to the literal itself or to one that was known before or has been explored since.
  intro other known property member own
  rcases (Memory.knows_cons ..).mp known with rfl | known
  · exact List.mem_append_right _ (within.own_met member own)
  · rcases within.explored known with known | done
    · exact List.mem_append_left _ (seen other known property member own)
    · exact List.mem_append_right _ (done.met property member own)

/-- Behind all properties of known literals, a walk with a memory and a plain one meet new
properties in the same order. -/
theorem Recalls.eraseDups_eq (walked : scope.Recalls path properties memory met after)
    (closed : scope.ClosedUnder path memory) (ground : Grounded memory) :
    ∀ plain, scope.Unrolls (fun path inner => inner ∈ path) path properties plain →
      ∀ before, Seen memory before → (before ++ met).eraseDups = (before ++ plain).eraseDups := by
  -- Neither what is remembered nor what a plain walk meets in a known literal is new.
  induction walked with
  | nil =>
    intro plain walked before _
    cases walked
    rfl
  | @own path property rest met memory after own _ ih =>
    intro plain walked before seen
    obtain ⟨plain, rfl, others⟩ := walked.of_own own
    simpa using ih closed ground plain others (before ++ [property]) (seen.append [property])
  | nowhere unknown _ ih =>
    intro plain walked before seen
    exact ih closed ground plain (walked.of_nowhere unknown) before seen
  | inside leads _ onPath _ ih =>
    -- Both walks pass over a literal that they are inside of.
    intro plain walked before seen
    rcases walked.of_leads leads with ⟨_, others⟩ | ⟨opened, _⟩
    · exact ih closed ground plain others before seen
    · exact absurd onPath opened
  | remembered leads known _ ih =>
    -- The plain walk may go through the literal again and meet other properties, but all old ones.
    intro plain walked before seen
    rw [eraseDups_append_append_of_subset (seen.remembered ground known)]
    rcases walked.of_leads leads with ⟨_, others⟩ | ⟨_, again, plain, rfl, inside, others⟩
    · exact ih closed ground plain others before seen
    · rw [eraseDups_append_append_of_subset (seen.unrolled closed ⟨_, known⟩ inside)]
      exact ih closed ground plain others before seen
  | @enter path value literal rest inner met memory between after leads _ fresh within _ ihWithin
      ih =>
    intro plain walked before seen
    rcases walked.of_leads leads with ⟨shut, _⟩ | ⟨_, again, plain, rfl, inside, others⟩
    · exact absurd shut fresh
    · have groundBetween := (within.grounded ground).1.cons (within.grounded ground).2
      have first := ihWithin closed.enter ground again inside before seen
      -- What was met inside the literal stands behind the rest from here on.
      have second := ih (within.closedUnder_enter closed) groundBetween plain others
        (before ++ inner) (within.seen_enter seen)
      rw [← List.append_assoc, second, ← List.append_assoc]
      exact eraseDups_append_congr first plain

/-- Whatever path leads to a literal, the literals on the path that it leads back to are the same.
-/
def CutAlike (scope : Scope) (literal : ObjectLiteral) : Prop :=
  ∀ inner rest rest', scope.Trail literal (inner :: rest) → scope.Trail literal (inner :: rest') →
    ∀ other, scope.Reaches inner other → (other ∈ rest ↔ other ∈ rest')

/-- Without circles, no literal leads back to a path. -/
theorem Acyclic.cutAlike {literal : ObjectLiteral} (acyclic : scope.Acyclic literal) :
    scope.CutAlike literal := by
  -- What is on the path leads to the literal.
  have apart : ∀ inner rest, scope.Trail literal (inner :: rest) →
      ∀ other, scope.Reaches inner other → other ∉ rest := by
    intro inner rest along other reached onPath
    have back := along.leads inner rest rfl other onPath
    exact acyclic inner (along.reaches inner (List.mem_cons_self ..))
      (Relation.TransGen.trans_right reached back)
  intro inner rest rest' along along' other reached
  exact iff_of_false (apart inner rest along other reached) (apart inner rest' along' other reached)

/-- What is remembered of a literal is what a plain walk meets in it on some path, and the walk is
not inside of it. -/
def Faithful (scope : Scope) (root : ObjectLiteral) (path : List ObjectLiteral) (memory : Memory) :
    Prop :=
  ∀ literal met, memory.lookup literal = some met → literal ∉ path ∧
    ∃ rest, scope.Trail root (literal :: rest) ∧
      scope.Unrolls (fun path inner => inner ∈ path) (literal :: rest) literal.properties met

/-- Entering a new literal leaves what is remembered faithful. -/
theorem Faithful.enter {root literal : ObjectLiteral} (faithful : scope.Faithful root path memory)
    (new : memory.lookup literal = none) : scope.Faithful root (literal :: path) memory := by
  -- What is remembered is not the literal.
  intro other remembered lookup
  obtain ⟨apart, place⟩ := faithful other remembered lookup
  refine ⟨fun onPath => ?_, place⟩
  rcases List.mem_cons.mp onPath with rfl | onPath
  · simp [new] at lookup
  · exact apart onPath

/-- Leaving a literal adds to what is remembered what a plain walk meets in it. -/
theorem Faithful.leave {root literal : ObjectLiteral} {inner : List Property}
    (faithful : scope.Faithful root (literal :: path) memory) (fresh : literal ∉ path)
    (along : scope.Trail root (literal :: path))
    (inside : scope.Unrolls (fun path inner => inner ∈ path) (literal :: path)
      literal.properties inner) :
    scope.Faithful root path ((literal, inner) :: memory) := by
  -- The new entry is the first one that a lookup meets.
  intro other remembered lookup
  by_cases same : other = literal
  · subst other
    simp only [List.lookup_cons_self, Option.some.injEq] at lookup
    subst remembered
    exact ⟨fresh, path, along, inside⟩
  · rw [List.lookup_cons, beq_eq_false_iff_ne.2 same] at lookup
    obtain ⟨apart, place⟩ := faithful other remembered lookup
    exact ⟨fun onPath => apart (List.mem_cons_of_mem _ onPath), place⟩

/-- What a plain walk meets in a literal on one path it meets there on every other path to it, when
the literal leads back to the same ones on all of them. -/
theorem CutAlike.unrolls {root literal : ObjectLiteral} {rest : List ObjectLiteral}
    {inner : List Property} (alike : scope.CutAlike root)
    (before : scope.Trail root (literal :: rest)) (along : scope.Trail root (literal :: path))
    (inside : scope.Unrolls (fun path inner => inner ∈ path) (literal :: rest)
      literal.properties inner) :
    scope.Unrolls (fun path inner => inner ∈ path) (literal :: path) literal.properties inner := by
  -- The walk meets the paths only where its literals lead back to them.
  refine inside.of_path _ ?_
  intro value target spread leads other reached
  have reached := Relation.ReflTransGen.head ⟨value, spread, leads⟩ reached
  simp only [List.mem_cons, alike _ _ _ before along other reached]

/-- Where literals lead back to the same ones on every path, a walk with a memory is a plain one. -/
theorem Recalls.unrolls {root : ObjectLiteral} (alike : scope.CutAlike root)
    (walked : scope.Recalls path properties memory met after) :
    ∀ outer rest, path = outer :: rest → scope.Trail root path → properties ⊆ outer.properties →
      scope.Faithful root path memory →
      scope.Unrolls (fun path inner => inner ∈ path) path properties met ∧
        scope.Faithful root path after := by
  -- What was met on one path may be repeated on another, since both are cut in the same places.
  induction walked with
  | nil => exact fun _ _ _ _ _ faithful => ⟨.nil, faithful⟩
  | own own _ ih =>
    intro outer rest same along within faithful
    obtain ⟨plain, faithful⟩ := ih outer rest same along (List.cons_subset.mp within).2 faithful
    exact ⟨.own own plain, faithful⟩
  | nowhere unknown _ ih =>
    intro outer rest same along within faithful
    obtain ⟨plain, faithful⟩ := ih outer rest same along (List.cons_subset.mp within).2 faithful
    exact ⟨.nowhere unknown plain, faithful⟩
  | inside leads _ onPath _ ih =>
    intro outer rest same along within faithful
    obtain ⟨plain, faithful⟩ := ih outer rest same along (List.cons_subset.mp within).2 faithful
    exact ⟨.closed leads onPath plain, faithful⟩
  | remembered leads known _ ih =>
    -- The memory may stem from another path, on which the walk was cut in the same places.
    rintro outer rest rfl along within faithful
    obtain ⟨inOuter, within⟩ := List.cons_subset.mp within
    obtain ⟨fresh, _, before, inside⟩ := faithful _ _ known
    have step := along.step ⟨_, inOuter, leads⟩ fresh
    obtain ⟨plain, faithful⟩ := ih outer rest rfl along within faithful
    exact ⟨.enter leads fresh (alike.unrolls before step inside) plain, faithful⟩
  | enter leads new fresh _ _ ihWithin ih =>
    -- What is met inside is what a plain walk meets on the path that has led here.
    rintro outer rest rfl along within faithful
    obtain ⟨inOuter, within⟩ := List.cons_subset.mp within
    have step := along.step ⟨_, inOuter, leads⟩ fresh
    obtain ⟨inside, faithfulInside⟩ :=
      ihWithin _ _ rfl step (List.Subset.refl _) (faithful.enter new)
    obtain ⟨plain, faithful⟩ :=
      ih outer rest rfl along within (faithfulInside.leave fresh step inside)
    exact ⟨.enter leads fresh inside plain, faithful⟩

/-- Where literals lead back to the same ones on every path, a walk from a literal that knows
nothing is a plain one. -/
theorem Recalls.plainWalk {literal : ObjectLiteral} (alike : scope.CutAlike literal)
    (walked : scope.Recalls [literal] literal.properties [] met after) :
    scope.PlainWalk literal met :=
  -- There is nothing yet that could have been met on another path.
  (walked.unrolls alike literal [] rfl .start (List.Subset.refl _)
    fun _ _ lookup => by simp at lookup).1

/-- How the expansion of a literal compares with a plain walk through it. The names are always the
same and in the same order. The maps are the same for every entry function exactly when the walk
with a memory, which the expansion is, meets the properties in the same order of last places; it
does so if every literal leads back to the same ones on every path to it. -/
theorem expand_eq_plainWalk_iff {literal : ObjectLiteral}
    (few : {inner | scope.Reaches literal inner}.encard ≤ depthLimit) :
    ∃ met after plain, scope.Recalls [literal] literal.properties [] met after ∧
      scope.PlainWalk literal plain ∧
      (∀ (α : Type) (pick? : Property → Option (String × α)),
        (scope.expand pick? literal).names = (OrderedMap.ofList (plain.filterMap pick?)).names) ∧
      ((∀ (α : Type) (pick? : Property → Option (String × α)),
        scope.expand pick? literal = .ofList (plain.filterMap pick?)) ↔ met.dedup = plain.dedup) ∧
      (scope.CutAlike literal → met = plain) := by
  -- Both maps are made of lists of properties whose first places agree.
  have shallow := shallow_of_encard_le few
  obtain ⟨met, after, walked, expanded⟩ := exists_recalls_expand shallow
  obtain ⟨plain, walkedPlain⟩ := exists_plainWalk shallow
  have firsts : met.eraseDups = plain.eraseDups := by
    refine walked.eraseDups_eq (fun outer _ known _ => absurd known (Memory.not_knows_nil outer))
      (fun _ _ lookup => by simp at lookup) plain walkedPlain [] fun other known => ?_
    exact absurd known (Memory.not_knows_nil other)
  refine ⟨met, after, plain, walked, walkedPlain, fun α pick? => ?_, ?_, fun alike => ?_⟩
  · rw [expanded α pick?, OrderedMap.names_ofList, OrderedMap.names_ofList, List.map_filterMap,
      List.map_filterMap]
    exact eraseDups_filterMap_congr _ firsts
  · rw [← OrderedMap.ofList_filterMap_eq_iff firsts]
    simp only [expanded]
  · exact (walked.plainWalk alike).unique walkedPlain

/-- The literal `{ ...early, ...late }`, which spreads the literals of a circle. -/
def Circle.both : ObjectLiteral where
  span := ⟨71, 92⟩
  properties := [.spread (.name ⟨76, 81⟩ "early"), .spread (.name ⟨86, 90⟩ "late")]

theorem Circle.encard_reaches_both :
    {inner | Circle.scope.Reaches both inner}.encard ≤ depthLimit := by
  -- The literals of the circle are within reach and no others.
  have three : {inner | Circle.scope.Reaches both inner}.encard ≤ [both, early, late].length :=
    encard_reaches_le (by simp) (by decide +kernel)
  exact three.trans (by exact_mod_cast (by decide : 3 ≤ depthLimit))

theorem expand_eq_plainWalk_iff_circle :
    {inner | Circle.scope.Reaches Circle.both inner}.encard ≤ depthLimit ∧
    ∃ met after plain, Circle.scope.Recalls [Circle.both] Circle.both.properties [] met after ∧
      Circle.scope.PlainWalk Circle.both plain ∧
      (∀ (α : Type) (pick? : Property → Option (String × α)),
        (Circle.scope.expand pick? Circle.both).names =
          (OrderedMap.ofList (plain.filterMap pick?)).names) ∧
      ((∀ (α : Type) (pick? : Property → Option (String × α)),
        Circle.scope.expand pick? Circle.both = .ofList (plain.filterMap pick?)) ↔
          met.dedup = plain.dedup) ∧
      (Circle.scope.CutAlike Circle.both → met = plain) :=
  ⟨Circle.encard_reaches_both, expand_eq_plainWalk_iff Circle.encard_reaches_both⟩

/-- In a circle the memory can count: what is remembered of `late` was met inside of `early` and
passes over its entry, which a plain walk meets when it comes to `late` on its own. -/
theorem expand_ne_plainWalk_circle :
    {inner | Circle.scope.Reaches Circle.both inner}.encard ≤ depthLimit ∧
    ∃ plain, Circle.scope.PlainWalk Circle.both plain ∧
      (Circle.scope.expand Circle.text? Circle.both).toList = [("x", "b")] ∧
      (OrderedMap.ofList (plain.filterMap Circle.text?)).toList = [("x", "a")] := by
  -- The plain walk goes round the circle from either side.
  obtain ⟨first, inEarly, picked⟩ : ∃ met, Circle.scope.Unrolls (fun path inner => inner ∈ path)
      [Circle.early, Circle.both] Circle.early.properties met ∧
      met.filterMap Circle.text? = [("x", "b"), ("x", "a")] :=
    ⟨_, .enter rfl (by decide +kernel) (.own rfl (.closed rfl (by decide +kernel) .nil))
      (.own rfl .nil), rfl⟩
  obtain ⟨second, inLate, picked'⟩ : ∃ met, Circle.scope.Unrolls (fun path inner => inner ∈ path)
      [Circle.late, Circle.both] Circle.late.properties met ∧
      met.filterMap Circle.text? = [("x", "b"), ("x", "a")] :=
    ⟨_, .own rfl (.enter rfl (by decide +kernel)
      (.closed rfl (by decide +kernel) (.own rfl .nil)) .nil), rfl⟩
  have walked : Circle.scope.PlainWalk Circle.both (first ++ (second ++ [])) :=
    .enter rfl (by decide +kernel) inEarly (.enter rfl (by decide +kernel) inLate .nil)
  refine ⟨Circle.encard_reaches_both, _, walked, by decide +kernel, ?_⟩
  rw [List.filterMap_append, List.filterMap_append, picked, picked']
  rfl

end PropCatalog.Scope
