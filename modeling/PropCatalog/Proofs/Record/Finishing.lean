import PropCatalog.Proofs.Spread.Selection
import PropCatalog.Proofs.Validator.Finishing
import PropCatalog.Record.Facet

/-! When documenting the components of a file comes to an end: unless types are to be filled in and
a component declares a validator that is read for ever. -/

namespace PropCatalog

open Syntax

/-- Which literals are gone through does not hang on what is picked from them. -/
theorem Scope.expanded_eq {α : Type} {scope : Scope} (pick? other? : Property → Option (String × α))
    (literal : ObjectLiteral) : scope.expanded pick? literal = scope.expanded other? literal := by
  -- Both pick the same under no name at all, so that the literals are the same.
  have alike : scope.SelectAlike (fun _ => false) pick? other? literal :=
    fun property _ => by cases pick? property <;> cases other? property <;> rfl
  obtain ⟨-, same⟩ := SameOnly.expandWithin depthLimit [] literal alike .empty .empty [] []
    ⟨rfl, .nil⟩
  rw [expanded, expanded, ← List.forall₂_eq_eq_eq, List.forall₂_map_left_iff,
    List.forall₂_map_right_iff]
  exact same.imp fun _ _ known => known.1

namespace Analysis

variable {analysis : Analysis} {component : Component} {facets : List Facet}

/-- A component declares a value for a prop whose name is known, in its own literal or in one that
is gone through because it is spread there, even if the prop has another value in the end. -/
def Declares (analysis : Analysis) (component : Component) (value : Expr) : Prop :=
  ∃ literal inner property, analysis.declaredProps? component = some literal ∧
    inner ∈ analysis.scope.expanded analysis.typedProp? literal ∧ property ∈ inner.properties ∧
    (analysis.scope.propertyName? property).isSome ∧ property.value? = some value

/-- The value of a property is not read to its end when it is a validator that is read for ever. -/
theorem propFinishes_eq_false_iff {property : Property} :
    analysis.propFinishes property = false ↔
      (analysis.scope.propertyName? property).isSome ∧ ∃ value, property.value? = some value ∧
        analysis.isValidator value = true ∧ analysis.Endless value := by
  -- Only a value under a name is looked at, and only a validator is read.
  simp only [← finishes_eq_false_iff, propFinishes]
  cases analysis.scope.propertyName? property <;> cases property.value? <;> simp

/-- Filling in facets does not come to an end when types are among them and the component declares a
validator that is read for ever. -/
theorem recordFinishes_eq_false_iff :
    analysis.recordFinishes facets component = false ↔
      .types ∈ facets ∧ ∃ value, analysis.Declares component value ∧
        analysis.isValidator value = true ∧ analysis.Endless value := by
  -- Every literal that is gone through is asked for every property.
  rw [recordFinishes, Bool.or_eq_false_iff, Bool.not_eq_false', List.contains_iff_mem]
  refine and_congr_right fun _ => ?_
  cases declared : analysis.declaredProps? component with
  | none => simp [Declares, declared]
  | some literal =>
    simp only [Option.all_some, typesFinish, List.all_eq_false, Bool.not_eq_true,
      propFinishes_eq_false_iff]
    constructor
    · rintro ⟨inner, within, property, member, named, value, valued, endless⟩
      exact ⟨value, ⟨literal, inner, property, declared, within, member, named, valued⟩, endless⟩
    · rintro ⟨value, ⟨_, inner, property, own, within, member, named, valued⟩, endless⟩
      cases declared.symm.trans own
      exact ⟨inner, within, property, member, named, value, valued, endless⟩

/-- There are no records when types are to be filled in and a component declares a validator that is
read for ever. -/
theorem records?_eq_none_iff :
    analysis.records? facets = none ↔
      .types ∈ facets ∧ ∃ component ∈ analysis.components, ∃ value,
        analysis.Declares component value ∧ analysis.isValidator value = true ∧
          analysis.Endless value := by
  -- One component is enough.
  simp only [records?, ite_eq_right_iff, reduceCtorEq, imp_false, Bool.not_eq_true,
    List.all_eq_false, recordFinishes_eq_false_iff]
  constructor
  · rintro ⟨component, member, filled, endless⟩
    exact ⟨filled, component, member, endless⟩
  · rintro ⟨filled, component, member, endless⟩
    exact ⟨component, member, filled, endless⟩

/-- Records that there are have all facets filled in. -/
theorem records?_eq_some {records : List Record}
    (finished : analysis.records? facets = some records) :
    records = analysis.records facets := by
  -- What has an end gives what is filled in.
  unfold records? at finished
  split at finished
  · cases finished
    rfl
  · cases finished

end Analysis

end PropCatalog
