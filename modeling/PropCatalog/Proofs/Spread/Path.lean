import Mathlib.Data.Set.Card
import Mathlib.Logic.Relation
import PropCatalog.Scope.Value

/-! Paths of spreads: the object literals that a literal leads to through the spreads in it. -/

namespace PropCatalog

/-- No way leads back to where it starts when all that a member of a list is related to is in the
list and ranks below it. -/
theorem not_transGen_of_falls {α : Type} {r : α → α → Prop} {xs : List α} (rank : α → Nat)
    (falls : ∀ outer ∈ xs, ∀ inner, r outer inner → inner ∈ xs ∧ rank inner < rank outer)
    {x : α} (member : x ∈ xs) : ¬ Relation.TransGen r x x := by
  -- A way goes down all along.
  have down : ∀ inner, Relation.TransGen r x inner → inner ∈ xs ∧ rank inner < rank x := by
    intro inner way
    induction way with
    | single step => exact falls x member _ step
    | tail _ step ih =>
      have further := falls _ ih.1 _ step
      exact ⟨further.1, further.2.trans ih.2⟩
  exact fun way => absurd (down x way).2 (Nat.lt_irrefl _)

namespace Scope

open Syntax

/-- A literal spreads another one when one of its spreads leads to it. -/
def Spreads (scope : Scope) (outer inner : ObjectLiteral) : Prop :=
  ∃ value, .spread value ∈ outer.properties ∧ scope.object? value = some inner

/-- A literal reaches itself and all that it spreads, directly or through others. -/
def Reaches (scope : Scope) : ObjectLiteral → ObjectLiteral → Prop :=
  Relation.ReflTransGen scope.Spreads

/-- No literal within reach spreads itself, directly or through others. -/
def Acyclic (scope : Scope) (literal : ObjectLiteral) : Prop :=
  -- A circle anywhere within reach would be met, not only one through the literal.
  ∀ inner, scope.Reaches literal inner → ¬ Relation.TransGen scope.Spreads inner inner

/-- The literals on a path of spreads from a literal, the last one first. None comes twice. -/
inductive Trail (scope : Scope) (literal : ObjectLiteral) : List ObjectLiteral → Prop where
  | start : Trail scope literal [literal]
  | step {inner outer : ObjectLiteral} {rest : List ObjectLiteral}
      (trail : Trail scope literal (outer :: rest)) (spread : scope.Spreads outer inner)
      (fresh : inner ∉ outer :: rest) : Trail scope literal (inner :: outer :: rest)

/-- No path of spreads goes through more literals than a limit. -/
def Shallow (scope : Scope) (limit : Nat) (literal : ObjectLiteral) : Prop :=
  -- A path has one spread less than it has literals.
  ∀ trail, scope.Trail literal trail → trail.length ≤ limit

variable {scope : Scope} {literal : ObjectLiteral}

/-- What is closed under spreads and holds of a literal holds of all that it reaches. -/
theorem Reaches.closed (holds : ObjectLiteral → Prop) (start : holds literal)
    (closed : ∀ outer inner, holds outer → scope.Spreads outer inner → holds inner)
    {inner : ObjectLiteral} (reached : scope.Reaches literal inner) : holds inner := by
  -- Each spread on the way hands the property on.
  induction reached with
  | refl => exact start
  | tail _ spread ih => exact closed _ _ ih spread

namespace Trail

theorem nodup {trail : List ObjectLiteral} (along : scope.Trail literal trail) :
    trail.Nodup := by
  -- Every step goes to a literal that is not on the path yet.
  induction along with
  | start => simp
  | step _ _ fresh ih => exact List.nodup_cons.mpr ⟨fresh, ih⟩

/-- Every literal on a path is reached from its start. -/
theorem reaches {trail : List ObjectLiteral} (along : scope.Trail literal trail) :
    ∀ inner ∈ trail, scope.Reaches literal inner := by
  -- The last literal is spread by the one before it.
  induction along with
  | start =>
    intro inner member
    rw [List.mem_singleton.mp member]
    exact .refl
  | step _ spread _ ih =>
    intro inner member
    rcases List.mem_cons.mp member with rfl | member
    · exact (ih _ (List.mem_cons_self ..)).tail spread
    · exact ih inner member

/-- Every literal on a path leads to the last one. -/
theorem leads {trail : List ObjectLiteral} (along : scope.Trail literal trail) :
    ∀ inner rest, trail = inner :: rest → ∀ outer ∈ rest,
      Relation.TransGen scope.Spreads outer inner := by
  -- A literal before the last one leads to the one before that, or is it.
  induction along with
  | start =>
    rintro inner rest ⟨⟩ outer member
    simp at member
  | step _ spread _ ih =>
    rintro inner rest ⟨⟩ outer member
    rcases List.mem_cons.mp member with rfl | member
    · exact .single spread
    · exact (ih _ _ rfl outer member).tail spread

/-- Without circles, a spread at the end of a path leads to a literal that is not on it. -/
theorem fresh_of_acyclic {outer inner : ObjectLiteral} {rest : List ObjectLiteral}
    (acyclic : scope.Acyclic literal) (along : scope.Trail literal (outer :: rest))
    (spread : scope.Spreads outer inner) : inner ∉ outer :: rest := by
  -- A literal on the path leads to its end, from where the spread would lead back to it.
  intro member
  have reached := along.reaches inner member
  rcases List.mem_cons.mp member with rfl | member
  · exact acyclic inner reached (.single spread)
  · exact acyclic inner reached ((along.leads _ _ rfl inner member).tail spread)

end Trail

/-- A path goes through no more literals than there are within reach. -/
theorem shallow_of_encard_le {limit : Nat}
    (few : {inner | scope.Reaches literal inner}.encard ≤ limit) : scope.Shallow limit literal := by
  -- The literals of a path are distinct and within reach.
  intro trail along
  have within : (↑trail.toFinset : Set ObjectLiteral) ⊆ {inner | scope.Reaches literal inner} := by
    intro inner member
    exact along.reaches inner (by simpa using member)
  have bounded := (Set.encard_le_encard within).trans few
  rw [Set.encard_coe_eq_coe_finsetCard, List.toFinset_card_of_nodup along.nodup] at bounded
  exact_mod_cast bounded

/-- The literals that the spreads of a literal lead to. -/
def targets (scope : Scope) (literal : ObjectLiteral) : List ObjectLiteral :=
  literal.properties.filterMap fun
    | .spread value => scope.object? value
    | _ => none

theorem mem_targets_iff {outer inner : ObjectLiteral} :
    inner ∈ scope.targets outer ↔ scope.Spreads outer inner := by
  -- Only spreads have a target.
  rw [targets, List.mem_filterMap]
  constructor
  · rintro ⟨property, member, leads⟩
    cases property with
    | spread value => exact ⟨value, member, leads⟩
    | _ => simp at leads
  · rintro ⟨value, member, leads⟩
    exact ⟨.spread value, member, leads⟩

section Enumeration

variable {literals : List ObjectLiteral}

/-- A list that has the targets of all its members has all that they reach. -/
theorem Reaches.mem_of_closed (start : literal ∈ literals)
    (closed : ∀ outer ∈ literals, scope.targets outer ⊆ literals) {inner : ObjectLiteral}
    (reached : scope.Reaches literal inner) : inner ∈ literals :=
  reached.closed (· ∈ literals) start fun outer _ member spread =>
    closed outer member (mem_targets_iff.mpr spread)

/-- No more literals are within reach than there are in a list that has the targets of its members.
-/
theorem encard_reaches_le (start : literal ∈ literals)
    (closed : ∀ outer ∈ literals, scope.targets outer ⊆ literals) :
    {inner | scope.Reaches literal inner}.encard ≤ literals.length := by
  -- Repetitions in the list only make it longer.
  have within :
      {inner | scope.Reaches literal inner} ⊆ (↑literals.toFinset : Set ObjectLiteral) := by
    intro inner reached
    simpa using reached.mem_of_closed start closed
  have bounded := Set.encard_le_encard within
  rw [Set.encard_coe_eq_coe_finsetCard] at bounded
  refine bounded.trans ?_
  exact_mod_cast List.toFinset_card_le literals

/-- There are no circles when the targets of every literal rank below it. -/
theorem acyclic_of_falls (start : literal ∈ literals) (rank : ObjectLiteral → Nat)
    (falls : ∀ outer ∈ literals, ∀ inner ∈ scope.targets outer,
      inner ∈ literals ∧ rank inner < rank outer) : scope.Acyclic literal := by
  -- All literals within reach are in the list.
  intro inner reached
  have member : inner ∈ literals := reached.mem_of_closed start
    fun outer member inner target => (falls outer member inner target).1
  exact not_transGen_of_falls rank
    (fun outer member inner spread => falls outer member inner (mem_targets_iff.mpr spread)) member

end Enumeration

end Scope

end PropCatalog
