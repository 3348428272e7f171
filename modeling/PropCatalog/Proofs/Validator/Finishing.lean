import Mathlib.Data.Set.Finite.List
import Mathlib.Order.WellFounded
import PropCatalog.Proofs.Validator.Nesting

/-! When reading a validator comes to an end: exactly when there is no endless chain of validators
each of which is read inside of the one before it. The limit on nesting is high enough for every
validator that is read to its end. -/

namespace PropCatalog.Analysis

open Syntax

variable {analysis : Analysis} {e : Expr} {depth : Nat}

/-- Reading a validator takes one level for itself. -/
theorem finishesWithin_succ_iff :
    analysis.finishesWithin (depth + 1) e = true ↔
      ∀ inner ∈ analysis.readInside (analysis.typeWithin? depth) e,
        analysis.finishesWithin depth inner = true := by
  -- One level is left less for what is inside.
  rw [finishesWithin, List.all_eq_true]

/-- One level more than is needed changes nothing. -/
theorem finishesWithin_succ (finished : analysis.finishesWithin depth e = true) :
    analysis.finishesWithin (depth + 1) e = true ∧
      analysis.typeWithin? depth e = analysis.typeWithin? (depth + 1) e := by
  -- What is read inside has the same types under both limits, so that the same is read.
  induction depth generalizing e with
  | zero => cases finished
  | succ depth ih =>
    rw [finishesWithin_succ_iff] at finished
    obtain ⟨reads, type⟩ := typeStep?_congr fun inner member => (ih (finished inner member)).2
    refine ⟨finishesWithin_succ_iff.mpr ?_, type⟩
    rw [reads]
    exact fun inner member => (ih (finished inner member)).1

/-- More levels than are needed change nothing. -/
theorem finishesWithin_mono {more : Nat} (le : depth ≤ more)
    (finished : analysis.finishesWithin depth e = true) :
    analysis.finishesWithin more e = true ∧
      analysis.typeWithin? depth e = analysis.typeWithin? more e := by
  -- The levels are added one by one.
  induction more, le using Nat.le_induction with
  | base => exact ⟨finished, rfl⟩
  | succ more _ ih =>
    obtain ⟨finished', type⟩ := finishesWithin_succ ih.1
    exact ⟨finished', ih.2.trans type⟩

/-- Wrappers around a validator do not change whether it is read to its end. -/
theorem finishesWithin_unwrap (depth : Nat) (e : Expr) :
    analysis.finishesWithin depth e.unwrap = analysis.finishesWithin depth e := by
  -- What is read inside hangs on what decides the type, which wrappers do not change.
  cases depth with
  | zero => rfl
  | succ depth => simp only [finishesWithin, readInside, e.verdict?_unwrap]

/-- A validator that needs all of some levels has another one on each of them, and no two of these
are the same part. -/
theorem exists_levels {known : List Expr} (holds : analysis.scope.Holds known)
    (parts : e.parts ⊆ known) (finished : analysis.finishesWithin (depth + 1) e = true)
    (deep : analysis.finishesWithin depth e = false) :
    ∃ levels : List Expr, levels.length = depth + 1 ∧ levels.Nodup ∧ levels ⊆ known ∧
      ∀ part ∈ levels, analysis.finishesWithin (depth + 1) part = true := by
  -- One of the validators inside needs all levels but the first, which is for the validator itself.
  induction depth generalizing e with
  | zero =>
    refine ⟨[e.unwrap], rfl, List.nodup_singleton _, ?_, ?_⟩
    · exact List.cons_subset.mpr ⟨parts e.unwrap_mem_parts, List.nil_subset _⟩
    · rw [List.forall_mem_singleton, finishesWithin_unwrap]
      exact finished
  | succ depth ih =>
    have inside := finishesWithin_succ_iff.mp finished
    obtain ⟨inner, read, deeper⟩ :
        ∃ inner ∈ analysis.readInside (analysis.typeWithin? (depth + 1)) e,
          analysis.finishesWithin depth inner = false := by
      -- Otherwise the same would be read to its end with one level less.
      by_contra none
      have early : ∀ inner ∈ analysis.readInside (analysis.typeWithin? (depth + 1)) e,
          analysis.finishesWithin depth inner = true := fun inner member => by
        by_contra late
        exact none ⟨inner, member, Bool.not_eq_true _ ▸ late⟩
      obtain ⟨reads, -⟩ := typeStep?_congr fun inner member =>
        (finishesWithin_succ (early inner member)).2.symm
      have earlier := finishesWithin_succ_iff.mpr (reads ▸ early)
      exact Bool.false_ne_true (deep.symm.trans earlier)
    have nests : analysis.Nests e inner := readInside_subset_nested _ e read
    obtain ⟨levels, length, nodup, within, all⟩ :=
      ih (parts_subset_of_nests holds parts nests) (inside inner read) deeper
    have fresh : e.unwrap ∉ levels := by
      intro member
      have early := all _ member
      rw [finishesWithin_unwrap, deep] at early
      cases early
    refine ⟨e.unwrap :: levels, congrArg Nat.succ length, List.nodup_cons.mpr ⟨fresh, nodup⟩,
      List.cons_subset.mpr ⟨parts e.unwrap_mem_parts, within⟩, ?_⟩
    rw [List.forall_mem_cons, finishesWithin_unwrap]
    exact ⟨finished, fun part member => (finishesWithin_succ (all part member)).1⟩

/-- A validator is read to its end under the limit when it is read to its end at all. -/
theorem finishes_iff_exists :
    analysis.finishes e = true ↔ ∃ depth, analysis.finishesWithin depth e = true := by
  -- The levels that it needs are no more than the parts there are.
  refine ⟨fun finished => ⟨_, finished⟩, fun finished => ?_⟩
  have least := Nat.find_spec finished
  have enough : Nat.find finished ≤ analysis.nestingLimit e := by
    cases needed : Nat.find finished with
    | zero => exact Nat.zero_le _
    | succ depth =>
      have late : analysis.finishesWithin depth e = false :=
        Bool.eq_false_iff.mpr (Nat.find_min finished (by omega))
      obtain ⟨levels, length, nodup, within, -⟩ :=
        exists_levels (analysis.scope.holds_parts e) (List.subset_append_left _ _)
          (needed ▸ least) late
      have bound := (List.subperm_of_subset nodup within).length_le
      rw [List.length_append] at bound
      simp only [nestingLimit]
      omega
  exact (finishesWithin_mono enough least).1

/-- A validator that is read to its end under a limit has the type that it has at all. -/
theorem typeWithin?_of_finishesWithin (finished : analysis.finishesWithin depth e = true) :
    analysis.typeWithin? depth e = analysis.type? e := by
  -- Both limits can be raised to the same one.
  have enough : analysis.finishesWithin (analysis.nestingLimit e) e = true :=
    finishes_iff_exists.mpr ⟨depth, finished⟩
  have raised := (finishesWithin_mono (Nat.le_max_left depth (analysis.nestingLimit e)) finished).2
  have raised' := (finishesWithin_mono (Nat.le_max_right depth (analysis.nestingLimit e)) enough).2
  exact raised.trans raised'.symm

/-- A validator takes one level more than all that is read inside of it without a limit. -/
theorem finishesWithin_succ_iff_readInside :
    analysis.finishesWithin (depth + 1) e = true ↔
      ∀ inner ∈ analysis.readInside analysis.type? e,
        analysis.finishesWithin depth inner = true := by
  -- What is read to its end has the same type under the limit, so that the same is read inside.
  rw [finishesWithin_succ_iff]
  constructor
  · intro within inner member
    obtain ⟨reads, -⟩ := typeStep?_congr fun inner member =>
      typeWithin?_of_finishesWithin (within inner member)
    exact within inner (reads ▸ member)
  · intro within
    obtain ⟨reads, -⟩ := typeStep?_congr fun inner member =>
      (typeWithin?_of_finishesWithin (within inner member)).symm
    exact reads ▸ within

/-- Validators that are each read to their ends are so under one limit. -/
theorem exists_finishesWithin_all {validators : List Expr}
    (finished : ∀ e ∈ validators, analysis.finishes e = true) :
    ∃ depth, ∀ e ∈ validators, analysis.finishesWithin depth e = true := by
  -- The limit is raised for one after the other.
  induction validators with
  | nil => exact ⟨0, fun _ member => absurd member List.not_mem_nil⟩
  | cons first rest ih =>
    obtain ⟨own, others⟩ := List.forall_mem_cons.mp finished
    obtain ⟨depth, within⟩ := ih others
    refine ⟨max depth (analysis.nestingLimit first), List.forall_mem_cons.mpr ⟨?_, ?_⟩⟩
    · exact (finishesWithin_mono (Nat.le_max_right _ _) own).1
    · exact fun e member => (finishesWithin_mono (Nat.le_max_left _ _) (within e member)).1

/-- A validator is read to its end exactly when all that is read inside of it is. -/
theorem finishes_iff_readInside :
    analysis.finishes e = true ↔
      ∀ inner ∈ analysis.readInside analysis.type? e, analysis.finishes inner = true := by
  -- A limit for the validator is one step above a limit for all that is inside.
  constructor
  · intro finished inner member
    obtain ⟨depth, within⟩ := finishes_iff_exists.mp finished
    cases depth with
    | zero => cases within
    | succ depth =>
      have early := finishesWithin_succ_iff_readInside.mp within inner member
      exact finishes_iff_exists.mpr ⟨depth, early⟩
  · intro finished
    obtain ⟨depth, within⟩ := exists_finishesWithin_all finished
    exact finishes_iff_exists.mpr ⟨depth + 1, finishesWithin_succ_iff_readInside.mpr within⟩

/-- Reading a validator goes on for ever: it starts a chain of validators, each of which is read
inside of the one before it. -/
def Endless (analysis : Analysis) (e : Expr) : Prop :=
  ∃ chain : Nat → Expr, chain 0 = e ∧
    ∀ n, chain (n + 1) ∈ analysis.readInside analysis.type? (chain n)

/-- A validator is read to its end unless reading it goes on for ever. -/
theorem finishes_eq_false_iff : analysis.finishes e = false ↔ analysis.Endless e := by
  -- Without an endless chain, there is an induction on what is read inside.
  rw [Endless, ← not_acc_iff_exists_descending_chain
    (r := fun inner outer => inner ∈ analysis.readInside analysis.type? outer), Bool.eq_false_iff]
  refine not_congr ⟨fun finished => ?_, fun ends => ?_⟩
  · obtain ⟨depth, within⟩ := finishes_iff_exists.mp finished
    induction depth generalizing e with
    | zero => cases within
    | succ depth ih =>
      -- What is inside is read to its end with one level less.
      refine .intro _ fun inner member => ?_
      have early := finishesWithin_succ_iff_readInside.mp within inner member
      exact ih (finishes_iff_exists.mpr ⟨depth, early⟩) early
  · induction ends with
    | intro e _ ih => exact finishes_iff_readInside.mpr ih

/-- A validator that is read to its end has a type as those inside of it have theirs. -/
theorem type?_eq_typeStep? (finished : analysis.finishes e = true) :
    analysis.type? e = analysis.typeStep? analysis.type? e := by
  -- One limit is high enough for all that is inside, and the next one for the validator.
  obtain ⟨depth, within⟩ := exists_finishesWithin_all (finishes_iff_readInside.mp finished)
  obtain ⟨-, type⟩ := typeStep?_congr fun inner member =>
    (typeWithin?_of_finishesWithin (within inner member)).symm
  rw [type, ← typeWithin?_succ]
  exact (typeWithin?_of_finishesWithin (finishesWithin_succ_iff_readInside.mpr within)).symm

/-- The result of reading a validator is its type, unless reading it goes on for ever. -/
theorem reading?_eq_some_iff {type : Option PropType} :
    analysis.reading? e = some type ↔ ¬ analysis.Endless e ∧ analysis.type? e = type := by
  -- The result is there under the condition that says so.
  rw [← finishes_eq_false_iff, reading?]
  split <;> simp_all

/-! ## Validators that do not contain themselves -/

/-- No chain of validators inside of one that does not contain itself goes on for ever. -/
theorem WellNested.acc (well : analysis.WellNested e) :
    Acc (fun inner outer => analysis.Nests outer inner) e := by
  -- An endless chain would come back to a part that it has been at, and so to what is inside of it.
  by_contra endless
  obtain ⟨chain, rfl, nests⟩ := not_acc_iff_exists_descending_chain.mp endless
  have reached : ∀ n more, Relation.ReflTransGen analysis.Nests (chain n) (chain (n + more)) := by
    intro n more
    induction more with
    | zero => exact .refl
    | succ more ih => exact ih.tail (nests (n + more))
  have within : ∀ n, (chain n).parts ⊆ (chain 0).parts ++ analysis.scope.parts := by
    intro n
    induction n with
    | zero => exact List.subset_append_left _ _
    | succ n ih => exact parts_subset_of_nests (analysis.scope.holds_parts _) ih (nests n)
  have member : ∀ n, (chain n).unwrap ∈ {part | part ∈ (chain 0).parts ++ analysis.scope.parts} :=
    fun n => within n (chain n).unwrap_mem_parts
  obtain ⟨n, later, before, same⟩ :=
    Set.Finite.exists_lt_map_eq_of_forall_mem member (List.finite_toSet _)
  obtain ⟨more, rfl⟩ := Nat.exists_eq_add_of_lt before
  have inside : Relation.TransGen analysis.Nests (chain n) (chain (n + more + 1)) :=
    Relation.TransGen.tail' (reached n more) (nests (n + more))
  exact well.unwrap_ne (Nat.zero_add (n + more + 1) ▸ reached 0 _) inside same.symm

/-- A validator that does not contain itself is read to its end. -/
theorem WellNested.finishes (well : analysis.WellNested e) : analysis.finishes e = true := by
  -- No more is read inside of a validator than is nested in it.
  induction well.acc with
  | intro e _ ih =>
    refine finishes_iff_readInside.mpr fun inner member => ?_
    have nests : analysis.Nests e inner := readInside_subset_nested _ e member
    exact ih inner nests (well.inner nests)

/-- The type of a validator that does not contain itself is made of the types of those inside of it,
without a limit. -/
theorem WellNested.type?_eq (well : analysis.WellNested e) :
    analysis.type? e = analysis.typeStep? analysis.type? e :=
  type?_eq_typeStep? well.finishes

end PropCatalog.Analysis
