import Mathlib.Data.List.Forall2
import PropCatalog.Proofs.Record.Amending

/-! Filling in the facets of a record. Types and descriptions go into the same props, so that their
order can show in the order of the props, but in nothing else; no facet counts more than once. -/

namespace PropCatalog

open Syntax

/-- The change of a prop that writes its description. -/
def PropEntry.withDescription (entry : PropEntry) (description : String) : PropEntry :=
  { entry with description := some description }

/-- What is known about a prop from its type and its description, where there is any. -/
def PropEntry.of? : Option (PropType × Bool) → Option String → Option PropEntry
  | none, none => none
  | type?, description => some
      { type := type?.map Prod.fst
        required := (type?.map Prod.snd).getD false
        description }

/-- Writing a type leaves only the description of what was known about a prop. -/
theorem PropEntry.of?_withType (type? : Option (PropType × Bool)) (description : Option String)
    (value : PropType × Bool) :
    some (((PropEntry.of? type? description).getD .empty).withType value) =
      PropEntry.of? (some value) description := by
  cases type? <;> cases description <;> rfl

/-- Writing a description leaves only the type of what was known about a prop. -/
theorem PropEntry.of?_withDescription (type? : Option (PropType × Bool))
    (description : Option String) (value : String) :
    some (((PropEntry.of? type? description).getD .empty).withDescription value) =
      PropEntry.of? type? (some value) := by
  cases type? <;> cases description <;> rfl

/-- Types are filled in before descriptions, unless one of the two is never filled in. -/
def TypesFirst (facets : List Facet) : Prop :=
  -- A facet counts where it comes first.
  .types ∈ facets → .comments ∈ facets → facets.idxOf .types < facets.idxOf .comments

/-- What comes last can be left out without putting descriptions before types. -/
theorem TypesFirst.of_concat {facets : List Facet} {facet : Facet}
    (ordered : TypesFirst (facets ++ [facet])) : TypesFirst facets := by
  -- Facets of the shorter list come first at the same places in the longer one.
  intro types comments
  have order := ordered (List.mem_append_left _ types) (List.mem_append_left _ comments)
  rwa [List.idxOf_append_of_mem types, List.idxOf_append_of_mem comments] at order

/-- Descriptions are not filled in yet when types are filled in for the first time. -/
theorem TypesFirst.comments_notMem {facets : List Facet} (fresh : .types ∉ facets)
    (ordered : TypesFirst (facets ++ [.types])) : .comments ∉ facets := by
  -- Otherwise their first place would be before the end, where types come first.
  intro comments
  have order := ordered (by simp) (List.mem_append_left _ comments)
  rw [List.idxOf_append_of_notMem fresh, List.idxOf_append_of_mem comments] at order
  have before := List.idxOf_lt_length_of_mem comments
  omega

namespace Analysis

variable (analysis : Analysis) (component : Component)

/-- The types of the props of a component. -/
def typed : OrderedMap (PropType × Bool) :=
  ((analysis.declaredProps? component).map (analysis.scope.expand analysis.typedProp?)).getD .empty

/-- The descriptions of the props of a component. -/
def described : OrderedMap String :=
  ((analysis.declaredProps? component).map
    (analysis.scope.expand analysis.describedProp?)).getD .empty

/-- Filling in types writes them into the props and changes nothing else. -/
theorem fill_types (record : Record) :
    analysis.fill component record .types =
      { record with
        props := (analysis.typed component).toList.foldl
          (.write fun value entry => (entry.getD .empty).withType value) record.props } := by
  -- Without declared props there is nothing to be written.
  cases declared : analysis.declaredProps? component with
  | none => simp [fill, typed, declared, OrderedMap.empty]
  | some literal =>
    simp only [fill, typed, declared, Option.map_some, Option.getD_some]
    exact amendTypes_eq record

/-- Filling in descriptions writes them into the props and changes nothing else. -/
theorem fill_comments (record : Record) :
    analysis.fill component record .comments =
      { record with
        props := (analysis.described component).toList.foldl
          (.write fun value entry => (entry.getD .empty).withDescription value) record.props } := by
  -- Without declared props there is nothing to be written.
  cases declared : analysis.declaredProps? component with
  | none => simp [fill, described, declared, OrderedMap.empty]
  | some literal =>
    simp only [fill, described, declared, Option.map_some, Option.getD_some]
    exact Record.foldl_updateProp (fun value entry => entry.withDescription value) _ record

/-- A further facet is filled in behind the others. -/
theorem record_concat (facets : List Facet) (facet : Facet) :
    analysis.record (facets ++ [facet]) component =
      analysis.fill component (analysis.record facets component) facet := by
  simp [record]

/-- The name that a record shows hangs only on whether it has been filled in. -/
theorem displayName_record (facets : List Facet) :
    (analysis.record facets component).displayName =
      if .displayName ∈ facets then (analysis.ownName? component).or component.name else none := by
  -- The name is found each time or never.
  induction facets using List.reverseRecOn with
  | nil => rfl
  | append_singleton facets facet ih =>
    rw [record_concat]
    cases facet with
    | types => simp [fill_types, ih]
    | comments => simp [fill_comments, ih]
    | displayName =>
      simp only [fill, ih, List.mem_append, List.mem_singleton, or_true, if_true]
      cases (analysis.ownName? component).or component.name <;> simp
    | description => simp [fill, ih]

/-- The description in a record hangs only on whether it has been filled in. -/
theorem description_record (facets : List Facet) :
    (analysis.record facets component).description =
      if .description ∈ facets then analysis.file.descriptionAt? component.position
      else none := by
  -- The description is found each time or never.
  induction facets using List.reverseRecOn with
  | nil => rfl
  | append_singleton facets facet ih =>
    rw [record_concat]
    cases facet with
    | types => simp [fill_types, ih]
    | comments => simp [fill_comments, ih]
    | displayName => simp [fill, ih]
    | description =>
      simp only [fill, ih, List.mem_append, List.mem_singleton, or_true, if_true]
      cases analysis.file.descriptionAt? component.position <;> simp

/-- What is known about a prop hangs only on which of types and descriptions have been filled in. -/
theorem get?_record (facets : List Facet) (name : String) :
    (analysis.record facets component).props.get? name =
      PropEntry.of? (if .types ∈ facets then (analysis.typed component).get? name else none)
        (if .comments ∈ facets then (analysis.described component).get? name else none) := by
  -- Each facet settles its own part of the entry and keeps the other part.
  induction facets using List.reverseRecOn with
  | nil => rfl
  | append_singleton facets facet ih =>
    rw [record_concat]
    cases facet with
    | types =>
      rw [fill_types, OrderedMap.get?_foldl_write_toList (fun _ _ _ => rfl), ih]
      cases known : (analysis.typed component).get? name with
      | none => simp
      | some value => simp [PropEntry.of?_withType]
    | comments =>
      rw [fill_comments, OrderedMap.get?_foldl_write_toList (fun _ _ _ => rfl), ih]
      cases known : (analysis.described component).get? name with
      | none => simp
      | some value => simp [PropEntry.of?_withDescription]
    | displayName => simp [fill, ih]
    | description => simp [fill, ih]

/-- Where types are filled in before descriptions, the props that have types come before those that
have descriptions only, each in the order in which they are declared. -/
theorem names_record {facets : List Facet} (ordered : TypesFirst facets) :
    (analysis.record facets component).props.names =
      ((if .types ∈ facets then (analysis.typed component).names else []) ++
        if .comments ∈ facets then (analysis.described component).names else []).eraseDups := by
  -- Names that are known keep their places, so that a facet adds names only the first time.
  induction facets using List.reverseRecOn with
  | nil => rfl
  | append_singleton facets facet ih =>
    have known := ih ordered.of_concat
    rw [record_concat]
    cases facet with
    | types =>
      rw [fill_types, OrderedMap.names_foldl_write, known]
      by_cases types : Facet.types ∈ facets
      · simp only [types, if_true, List.mem_append, true_or, List.mem_singleton, reduceCtorEq,
          or_false]
        rw [eraseDups_eraseDups_append]
        exact eraseDups_append_of_subset fun name member => List.mem_append_left _ member
      · have comments := TypesFirst.comments_notMem types ordered
        simp [types, comments, OrderedMap.names]
    | comments =>
      rw [fill_comments, OrderedMap.names_foldl_write, known, eraseDups_eraseDups_append]
      by_cases comments : Facet.comments ∈ facets
      · simp only [comments, if_true, List.mem_append, true_or, List.mem_singleton, reduceCtorEq,
          or_false]
        exact eraseDups_append_of_subset fun name member => List.mem_append_right _ member
      · simp [comments, OrderedMap.names]
    | displayName => simpa [fill] using known
    | description => simpa [fill] using known

/-- Records after the same facets say the same about a component, whatever the order in which the
facets have been filled in and however often. Only the order of the props can differ, and it does
not where types have been filled in before descriptions. -/
theorem records_facets_congr {facets others : List Facet}
    (same : ∀ facet, facet ∈ facets ↔ facet ∈ others) :
    List.Forall₂
      (fun record other => record.displayName = other.displayName ∧
        record.description = other.description ∧
        (∀ name, record.props.get? name = other.props.get? name) ∧
        (TypesFirst facets → TypesFirst others → record = other))
      (analysis.records facets) (analysis.records others) := by
  -- Each part of a record hangs only on which facets there are.
  rw [records, records, List.forall₂_map_left_iff, List.forall₂_map_right_iff, List.forall₂_same]
  intro component _
  have displayName : (analysis.record facets component).displayName =
      (analysis.record others component).displayName := by
    simp only [displayName_record, same]
  have description : (analysis.record facets component).description =
      (analysis.record others component).description := by
    simp only [description_record, same]
  have values : ∀ name, (analysis.record facets component).props.get? name =
      (analysis.record others component).props.get? name := by
    intro name
    simp only [get?_record, same]
  refine ⟨displayName, description, values, fun ordered ordered' => ?_⟩
  have names : (analysis.record facets component).props.names =
      (analysis.record others component).props.names := by
    simp only [names_record, ordered, ordered', same]
  have props := OrderedMap.eq_of_names_of_get? names values
  cases first : analysis.record facets component
  cases second : analysis.record others component
  simp_all

namespace Declining

/-- A module with a component one of whose props has a description only, since its validator
declines. -/
def button : Analysis where
  file :=
    { text := "import PropTypes from 'prop-types';\nclass Button \x7b\n  render() \x7b\x7d\n" ++
        "  static propTypes = \x7b a: PropTypes.any, /** B. */\nb: PropTypes.shape() \x7d;\n\x7d"
      module := ⟨[
        .importDecl ⟨0, 35⟩ false (some "prop-types") ["PropTypes"],
        .stmt (.decl ⟨36, 141⟩ (.class "Button" (.mk none [
          .method false (.name "render") [],
          .field true (.name "propTypes") (some (.object ⟨86, 138⟩ [
            .pair 88 (.name "a") (.member ⟨91, 104⟩ (.name ⟨91, 100⟩ "PropTypes") (.name "any")),
            .pair 116 (.name "b") (.call ⟨119, 136⟩
              (.member ⟨119, 134⟩ (.name ⟨119, 128⟩ "PropTypes") (.name "shape")) [])]))])))]⟩
      comments := [(116, [⟨.block, "* B. "⟩])] }
  scope :=
    { bindings := [("PropTypes", .imported "prop-types")]
      assignments := [] }
  validatorModules := []

end Declining

theorem records_facets_congr_declining :
    (∀ facet, facet ∈ [Facet.types, .comments] ↔ facet ∈ [Facet.comments, .types, .comments]) ∧
    List.Forall₂
      (fun record other => record.displayName = other.displayName ∧
        record.description = other.description ∧
        (∀ name, record.props.get? name = other.props.get? name) ∧
        (TypesFirst [.types, .comments] → TypesFirst [.comments, .types, .comments] →
          record = other))
      (Declining.button.records [.types, .comments])
      (Declining.button.records [.comments, .types, .comments]) ∧
    (Declining.button.records [.types, .comments]).map (fun record => record.props.names) =
      [["a", "b"]] ∧
    (Declining.button.records [.comments, .types, .comments]).map
      (fun record => record.props.names) = [["b", "a"]] := by
  -- Both lists have the same two facets.
  have same : ∀ facet, facet ∈ [Facet.types, .comments] ↔
      facet ∈ [Facet.comments, .types, .comments] := by
    intro facet
    cases facet <;> decide
  exact ⟨same, records_facets_congr Declining.button same, by decide +kernel, by decide +kernel⟩

end Analysis

end PropCatalog
