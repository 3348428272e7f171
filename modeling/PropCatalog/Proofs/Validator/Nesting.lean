import Mathlib.Data.List.Perm.Subperm
import Mathlib.Logic.Relation
import PropCatalog.Proofs.Scope.Parts
import PropCatalog.Proofs.Spread.Path
import PropCatalog.Proofs.Validator.Chain
import PropCatalog.Validator.Reading

/-! Validators inside of validators: what the type of one hangs on, and those that do not contain
themselves. -/

namespace PropCatalog

open Syntax

namespace Syntax

/-- Wrappers around an expression do not change what decides its type. -/
theorem Expr.verdict?_unwrap (e : Expr) : e.unwrap.verdict? = e.verdict? := by
  -- Both walks along the chain pass through a wrapper.
  fun_induction Expr.unwrap e with
  | case1 span wrapper inner ih =>
    rw [ih]
    simp only [Expr.verdict?, Expr.accesses_wrapped, Expr.chainRoot]
  | case2 e _ => rfl

/-- The arguments of a call on a chain are parts of the chain, unless the call is around it. -/
theorem parts_subset_of_mem_accessesInward {access : Access} {arguments : List Element} (e : Expr)
    (pending : Option (List Element)) (member : access ∈ accessesInward pending e)
    (called : access.arguments = some arguments) :
    pending = some arguments ∨ partsOfElements arguments ⊆ e.parts := by
  -- An access takes the arguments of the call just around it.
  fun_induction accessesInward pending e with
  | case1 pending span object key ih =>
    rcases List.mem_cons.mp member with rfl | member
    · exact Or.inl called
    · rcases ih member with none | inside
      · cases none
      · exact Or.inr (List.subset_cons_of_subset _ inside)
  | case2 pending span callee others ih =>
    refine Or.inr (List.subset_cons_of_subset _ ?_)
    rcases ih member with same | inside
    · cases same
      exact List.subset_append_right _ _
    · exact List.subset_append_of_subset_left _ inside
  | case3 pending span wrapper inner ih =>
    rw [Expr.parts]
    exact ih member
  | case4 => cases member

/-- The root of a chain is one of its parts. -/
theorem Expr.parts_chainRoot_subset (e : Expr) : e.chainRoot.parts ⊆ e.parts := by
  -- The root is found at the end of the accesses.
  fun_induction Expr.chainRoot e with
  | case1 span wrapper inner ih =>
    rw [Expr.parts]
    exact ih
  | case2 span target key ih => exact List.subset_cons_of_subset _ ih
  | case3 => exact List.Subset.refl _

/-- The arguments that decide the type of a validator are parts of it. -/
theorem Expr.parts_subset_of_verdict? {e : Expr} {kind : CallKind} {arguments : List Element}
    (decided : e.verdict? = some (.call kind arguments)) : partsOfElements arguments ⊆ e.parts := by
  -- A verdict is that of an access on the chain or of its root.
  rcases Option.or_eq_some_iff.mp decided with found | ⟨-, found⟩
  · -- The call is one on the chain.
    obtain ⟨access, member, verdict⟩ := List.exists_of_findSome?_eq_some found
    have called : access.arguments = some arguments := by
      obtain ⟨name, -, verdict⟩ := Option.bind_eq_some_iff.mp verdict
      split at verdict <;> simp_all
    rcases parts_subset_of_mem_accessesInward e none (List.mem_reverse.mp member) called with
      none | inside
    · cases none
    · exact inside
  · -- The call is the root of the chain.
    refine List.Subset.trans ?_ e.parts_chainRoot_subset
    unfold Expr.rootVerdict? at found
    split at found
    · obtain ⟨_, _, verdict⟩ := Option.map_eq_some_iff.mp found
      cases verdict
    · rename_i callee others same
      rw [same]
      split at found
      · obtain ⟨_, _, verdict⟩ := Option.map_eq_some_iff.mp found
        cases verdict
        exact List.subset_cons_of_subset _ (List.subset_append_right _ _)
      · cases found
    · cases found

/-- The values of the elements of a list are parts of them. -/
theorem parts_subset_of_elementValues? {elements : List Element} {values : List Expr}
    (known : elementValues? elements = some values) :
    ∀ value ∈ values, value.parts ⊆ partsOfElements elements := by
  -- The values are those of the items, one after the other.
  fun_induction elementValues? elements generalizing values with
  | case1 =>
    cases known
    simp
  | case2 rest ih => exact ih known
  | case3 value rest ih =>
    obtain ⟨others, rest, rfl⟩ := Option.map_eq_some_iff.mp known
    refine List.forall_mem_cons.mpr ⟨List.subset_append_left _ _, fun other member => ?_⟩
    exact List.subset_append_of_subset_right _ (ih rest other member)
  | case4 => cases known

end Syntax

namespace Analysis

variable (analysis : Analysis)

/-- The validators that the type of one hangs on directly. -/
def nested (e : Expr) : List Expr :=
  match e.verdict? with
  | some (.call kind (.item argument :: _)) => analysis.argumentValidators kind argument
  | _ => []

/-- One validator is read directly inside of another one. -/
def Nests (outer inner : Expr) : Prop :=
  inner ∈ analysis.nested outer

/-- No validator that is read inside of one contains itself. -/
def WellNested (e : Expr) : Prop :=
  -- A circle anywhere inside would be met, not only one through the validator.
  ∀ inner, Relation.ReflTransGen analysis.Nests e inner →
    ¬ Relation.TransGen analysis.Nests inner inner

/-- The type of a validator, given how those inside of it are read. -/
def typeStep? (type? : Expr → Option PropType) (e : Expr) : Option PropType :=
  match e.verdict? with
  | some (.simple kind) => some (.simple kind)
  | some (.call kind arguments) => analysis.callType? type? kind arguments
  | none => some (.custom (analysis.quote e))

/-- Reading a validator takes one level of depth for itself. -/
theorem typeWithin?_succ (depth : Nat) (e : Expr) :
    analysis.typeWithin? (depth + 1) e = analysis.typeStep? (analysis.typeWithin? depth) e := rfl

/-- Wrappers around a validator do not change what is read inside of it. -/
theorem nested_unwrap (e : Expr) : analysis.nested e.unwrap = analysis.nested e := by
  simp only [nested, e.verdict?_unwrap]

variable {analysis} {type? other? : Expr → Option PropType} {e : Expr}

/-- The fields of a shape hang on the validators in it only. -/
theorem shapeField?_congr {property : Property}
    (same : ∀ inner, analysis.fieldValidator? property = some inner → type? inner = other? inner) :
    analysis.shapeField? type? property = analysis.shapeField? other? property := by
  -- Only a pair with a name has a validator in it.
  cases property with
  | pair start key value =>
    cases named : analysis.scope.keyName? key with
    | none => simp [shapeField?, named]
    | some name => simp [shapeField?, named, same value (by simp [fieldValidator?, named])]
  | _ => rfl

/-- Values that are read one after the other are the same, with the same types, when those that are
read have the same types. -/
theorem readInTurn_congr {values : List Expr}
    (same : ∀ inner ∈ readInTurn type? values, type? inner = other? inner) :
    readInTurn other? values = readInTurn type? values ∧
      values.mapM type? = values.mapM other? := by
  -- Both readings stop at the same value, and so do both lists of types.
  induction values with
  | nil => exact ⟨rfl, rfl⟩
  | cons value rest ih =>
    obtain ⟨first, others⟩ := List.forall_mem_cons.mp same
    rw [readInTurn, readInTurn, List.mapM_cons, List.mapM_cons, ← first]
    cases read : type? value with
    | none => exact ⟨rfl, rfl⟩
    | some type =>
      rw [read] at others
      obtain ⟨reads, types⟩ := ih others
      exact ⟨by simp only [Option.isSome_some, if_true, reads], by rw [types]⟩

/-- The type of a call on an argument hangs on what is read for it only, and so does what is read.
-/
theorem argumentType?_congr {kind : CallKind} {argument : Expr}
    (same : ∀ inner ∈ analysis.argumentReads type? kind argument, type? inner = other? inner) :
    analysis.argumentReads other? kind argument = analysis.argumentReads type? kind argument ∧
      analysis.argumentType? type? kind argument = analysis.argumentType? other? kind argument := by
  -- Only the values of a union are read one after the other.
  cases kind with
  | oneOf | instanceOf => exact ⟨rfl, rfl⟩
  | oneOfType =>
    obtain ⟨reads, types⟩ := readInTurn_congr same
    refine ⟨reads, ?_⟩
    cases known : analysis.elements? argument with
    | none => simp only [argumentType?, known, Option.bind_none]
    | some elements =>
      simp only [argumentValidators, known, Option.getD_some] at types
      simp only [argumentType?, known, Option.bind_some, types]
  | arrayOf | objectOf =>
    have argumentSame : type? argument = other? argument :=
      same argument (List.mem_singleton_self _)
    exact ⟨rfl, by simp only [argumentType?, argumentSame]⟩
  | shape =>
    refine ⟨rfl, ?_⟩
    cases leads : analysis.scope.object? argument with
    | none => simp only [argumentType?, leads]
    | some literal =>
      simp only [argumentReads, argumentValidators, leads] at same
      -- Each field is described by the validator that its property holds.
      have fields : literal.properties.filterMap (analysis.shapeField? type?) =
          literal.properties.filterMap (analysis.shapeField? other?) := by
        refine List.filterMap_congr fun property member => shapeField?_congr fun inner holds => ?_
        exact same inner (List.mem_filterMap.mpr ⟨property, member, holds⟩)
      simp only [argumentType?, leads, shapeFields, fields]

/-- The type of a validator hangs on what is read inside of it only, and so does what is read. -/
theorem typeStep?_congr
    (same : ∀ inner ∈ analysis.readInside type? e, type? inner = other? inner) :
    analysis.readInside other? e = analysis.readInside type? e ∧
      analysis.typeStep? type? e = analysis.typeStep? other? e := by
  -- Only a call with an argument of its own has anything read inside.
  unfold readInside at same ⊢
  unfold typeStep?
  cases decided : e.verdict? with
  | none => exact ⟨rfl, rfl⟩
  | some verdict =>
    rw [decided] at same
    cases verdict with
    | simple kind => exact ⟨rfl, rfl⟩
    | call kind arguments =>
      cases arguments with
      | nil => exact ⟨rfl, rfl⟩
      | cons first others =>
        cases first with
        | hole | spread => exact ⟨rfl, rfl⟩
        | item argument => exact argumentType?_congr same

theorem readInTurn_subset (values : List Expr) : readInTurn type? values ⊆ values := by
  -- Reading stops early, and skips nothing before that.
  induction values with
  | nil => exact List.Subset.refl _
  | cons value rest ih =>
    refine List.cons_subset_cons value ?_
    split
    · exact ih
    · exact List.nil_subset _

/-- What is read inside of a validator is nested in it. -/
theorem readInside_subset_nested (type? : Expr → Option PropType) (e : Expr) :
    analysis.readInside type? e ⊆ analysis.nested e := by
  -- Of the values of a union some may be left out, and nothing else is.
  unfold readInside nested
  rcases e.verdict? with _ | _ | ⟨kind, _ | ⟨_ | argument | _, others⟩⟩
  case some.call.cons.item =>
    cases kind with
    | oneOfType => exact readInTurn_subset _
    | _ => exact List.Subset.refl _
  all_goals exact List.nil_subset _

/-- What is read inside of a validator among some parts is among them itself. -/
theorem parts_subset_of_nests {known : List Expr} (holds : analysis.scope.Holds known)
    (parts : e.parts ⊆ known) {inner : Expr} (nests : analysis.Nests e inner) :
    inner.parts ⊆ known := by
  -- The argument is a part of the validator, and so is what it leads to.
  unfold Nests nested at nests
  split at nests
  · rename_i kind argument others decided
    have argumentParts : argument.parts ⊆ known := by
      refine List.Subset.trans ?_ (List.Subset.trans (Expr.parts_subset_of_verdict? decided) parts)
      exact List.subset_append_left _ _
    cases kind with
    | oneOf | instanceOf => cases nests
    | oneOfType =>
      simp only [argumentValidators, elements?] at nests
      split at nests
      · rename_i span elements value
        have member := holds.value? argument _ argumentParts value
        have inside : partsOfElements elements ⊆ known :=
          fun x part => holds.closed _ member (List.mem_cons_of_mem _ part)
        cases values : elementValues? elements with
        | none => simp [values] at nests
        | some others =>
          simp only [values, Option.getD_some] at nests
          exact List.Subset.trans (parts_subset_of_elementValues? values inner nests) inside
      · cases nests
    | arrayOf | objectOf =>
      rw [List.mem_singleton.mp nests]
      exact argumentParts
    | shape =>
      simp only [argumentValidators] at nests
      split at nests
      · rename_i literal leads
        obtain ⟨object, value, same⟩ := Option.bind_eq_some_iff.mp leads
        have inside := holds.properties (holds.value? argument object argumentParts value) same
        obtain ⟨property, member, field⟩ := List.mem_filterMap.mp nests
        cases property with
        | pair start key value =>
          obtain ⟨_, -, rfl⟩ := Option.map_eq_some_iff.mp field
          refine List.Subset.trans (fun x part => ?_) inside
          exact mem_partsOfProperties_iff.mpr ⟨_, member, by simpa [partsOfProperties] using part⟩
        | _ => cases field
      · cases nests
  · cases nests

/-- A validator that is read inside of another one does not stand inside wrappers of the other one
again, unless the other one contains itself. -/
theorem WellNested.unwrap_ne {root outer inner : Expr} (well : analysis.WellNested root)
    (reached : Relation.ReflTransGen analysis.Nests root inner)
    (inside : Relation.TransGen analysis.Nests outer inner) : inner.unwrap ≠ outer.unwrap := by
  -- The inner validator would contain what the outer one contains, and so itself.
  intro same
  have alike : analysis.nested inner = analysis.nested outer := by
    rw [← analysis.nested_unwrap inner, same, analysis.nested_unwrap]
  obtain ⟨first, step, rest⟩ := Relation.TransGen.head'_iff.mp inside
  have back : analysis.Nests inner first := by
    rw [Nests, alike]
    exact step
  exact well inner reached (Relation.TransGen.head' back rest)

/-- What is inside of a validator that does not contain itself does not contain itself either. -/
theorem WellNested.inner {inner : Expr} (well : analysis.WellNested e)
    (nests : analysis.Nests e inner) : analysis.WellNested inner :=
  fun deeper reached => well deeper (Relation.ReflTransGen.head nests reached)

/-- What has nothing inside that is not inside of a validator that does not contain itself does not
contain itself either. -/
theorem WellNested.of_subset {other : Expr} (well : analysis.WellNested e)
    (fewer : analysis.nested other ⊆ analysis.nested e) : analysis.WellNested other := by
  -- All that is reached through a first step is reached from the validator, too.
  intro deeper reached circle
  rcases Relation.ReflTransGen.cases_head reached with rfl | ⟨first, nests, rest⟩
  · obtain ⟨first, nests, back⟩ := Relation.TransGen.head'_iff.mp circle
    exact well other (Relation.ReflTransGen.head (fewer nests) back) circle
  · exact well deeper (Relation.ReflTransGen.head (fewer nests) rest) circle

/-- No validator inside of one contains itself when all that is read inside of every validator of a
list is in the list and ranks below it. -/
theorem wellNested_of_falls {validators : List Expr} (start : e ∈ validators) (rank : Expr → Nat)
    (falls : ∀ outer ∈ validators, ∀ inner ∈ analysis.nested outer,
      inner ∈ validators ∧ rank inner < rank outer) : analysis.WellNested e := by
  -- All validators inside are in the list.
  intro inner reached
  have member : inner ∈ validators := by
    induction reached with
    | refl => exact start
    | tail _ nests member => exact (falls _ member _ nests).1
  exact not_transGen_of_falls rank falls member

end Analysis

end PropCatalog
