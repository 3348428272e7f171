import PropCatalog.Proofs.Kinship.Component
import PropCatalog.Proofs.Kinship.Spread
import PropCatalog.Record.Facet

/-! The records of modules that are akin: they name the same props in the same order, with types
that differ in printed texts only. -/

namespace PropCatalog

open Syntax

/-- What is known about a prop, with the outline of its type. -/
def PropEntry.outline (entry : PropEntry) : PropEntry :=
  { entry with type := entry.type.map PropType.outline }

/-- Two props have the same outline when their types do, and what is known else is the same. -/
def PropEntry.SameOutline (entry entry' : PropEntry) : Prop :=
  entry.outline = entry'.outline

theorem PropEntry.sameOutline_iff (entry entry' : PropEntry) :
    entry.SameOutline entry' ↔ entry.type.map PropType.outline = entry'.type.map PropType.outline ∧
      entry.required = entry'.required ∧ entry.description = entry'.description := by
  simp only [PropEntry.SameOutline, PropEntry.outline, PropEntry.mk.injEq]

/-- The name that a record shows and its props, each with the outline of its type. -/
def Record.outline (record : Record) : Option String × List (String × PropEntry) :=
  (record.displayName, record.props.toList.map fun (name, entry) => (name, entry.outline))

/-- Two records are alike when they show the same name, and the same props with types of the same
outlines. -/
structure Record.Alike (record record' : Record) : Prop where
  displayName : record.displayName = record'.displayName
  props : record.props.Alike PropEntry.SameOutline record'.props

/-- Two props are typed alike when their types have the same outline, and both are required or none
of them is. -/
def TypedAlike (typed typed' : PropType × Bool) : Prop :=
  typed.1.SameOutline typed'.1 ∧ typed.2 = typed'.2

namespace Record.Alike

variable {record record' : Record}

theorem empty : Record.empty.Alike Record.empty :=
  ⟨rfl, .empty⟩

/-- Records that are alike have the same outline. -/
theorem outline_eq (alike : record.Alike record') : record.outline = record'.outline := by
  -- Prop by prop, the names and the outlines of the entries are the same.
  rw [Record.outline, Record.outline, alike.displayName]
  refine congrArg _ (map_eq_of_forall₂ alike.props ?_)
  rintro ⟨name, entry⟩ ⟨_, entry'⟩ ⟨rfl, outlines⟩
  exact congrArg _ outlines

theorem setType (alike : record.Alike record') (name : String) {type type' : PropType}
    (types : type.SameOutline type') (required : Bool) :
    (record.setType name type required).Alike (record'.setType name type' required) := by
  -- The entry keeps its description, and all else in it is written anew.
  refine ⟨alike.displayName, alike.props.update name rfl fun entry entry' same => ?_⟩
  obtain ⟨_, _, descriptions⟩ := (entry.sameOutline_iff entry').mp same
  exact (PropEntry.sameOutline_iff _ _).mpr ⟨congrArg some types, rfl, descriptions⟩

theorem setDescription (alike : record.Alike record') (name description : String) :
    (record.setDescription name description).Alike (record'.setDescription name description) := by
  -- The entry keeps its type and whether it is required.
  refine ⟨alike.displayName, alike.props.update name rfl fun entry entry' same => ?_⟩
  obtain ⟨types, required, _⟩ := (entry.sameOutline_iff entry').mp same
  exact (PropEntry.sameOutline_iff _ _).mpr ⟨types, required, rfl⟩

end Record.Alike

namespace Analysis.Akin

variable {analysis analysis' : Analysis} {k : Kinship analysis.file analysis'.file} {e e' : Expr}

/-- What is akin is a validator in both modules or in none. -/
theorem isValidator (akin : analysis.Akin analysis' k) (exprs : e.Akin k e') :
    analysis.isValidator e = analysis'.isValidator e' := by
  -- The origin is the same, and so are the modules that it is compared with.
  rw [Analysis.isValidator, Analysis.isValidator, akin.scope.origin? exprs,
    akin.validatorModules]

/-- Props with validators that are akin are typed akin. -/
theorem propType? (akin : analysis.Akin analysis' k) (exprs : e.Akin k e') :
    Option.Rel TypedAlike (analysis.propType? e) (analysis'.propType? e') := by
  -- Both values are validators, whose types are alike, or both are quoted.
  have typed : ∀ type type' : PropType, type.SameOutline type' →
      TypedAlike (type, ! type.isCustom && e.isRequired)
        (type', ! type'.isCustom && e'.isRequired) := by
    intro type type' same
    exact ⟨same, by rw [same.isCustom, exprs.isRequired]⟩
  simp only [Analysis.propType?, akin.isValidator exprs]
  split
  · exact rel_map (akin.type? e e' exprs) typed
  · exact .some (typed _ _ rfl)

/-- Properties that are akin declare the same props, typed akin. -/
theorem typedProp? (akin : analysis.Akin analysis' k) :
    PicksAkin k TypedAlike analysis.typedProp? analysis'.typedProp? := by
  -- A pair is typed by its value and a shorthand by its name, and nothing else is a prop.
  intro property property' properties
  cases properties with
  | pair described keys values =>
    simp only [Analysis.typedProp?, akin.scope.keyName? keys]
    cases analysis'.scope.keyName? _ with
    | none => exact .none
    | some name => exact rel_map (akin.propType? values) fun _ _ same => ⟨rfl, same⟩
  | shorthand name described =>
    exact rel_map (akin.propType? (.inside (.name name))) fun _ _ same => ⟨rfl, same⟩
  | _ => exact .none

/-- Properties that are akin describe the same props with the same texts. -/
theorem describedProp? (akin : analysis.Akin analysis' k) :
    PicksAkin k (fun description description' : String => description = description')
      analysis.describedProp? analysis'.describedProp? := by
  -- A pair or a shorthand is described by the comments in front of it, which are the same.
  intro property property' properties
  cases properties with
  | @pair start start' _ _ _ _ described keys values =>
    have described : analysis.file.descriptionAt? start = analysis'.file.descriptionAt? start' :=
      described
    simp only [Analysis.describedProp?, akin.scope.keyName? keys, described]
    cases analysis'.scope.keyName? _ with
    | none => exact .none
    | some name =>
      simp only [Option.bind_some]
      cases analysis'.file.descriptionAt? start' with
      | none => exact .none
      | some description => exact .some ⟨rfl, rfl⟩
  | @shorthand span span' name described =>
    have described :
        analysis.file.descriptionAt? span.lo = analysis'.file.descriptionAt? span'.lo := described
    simp only [Analysis.describedProp?, described]
    cases analysis'.file.descriptionAt? span'.lo with
    | none => exact .none
    | some description => exact .some ⟨rfl, rfl⟩
  | _ => exact .none

variable {known known' : Record} {literal literal' : ObjectLiteral}

/-- Literals that correspond write the same types into records, printed texts aside. -/
theorem amendTypes (akin : analysis.Akin analysis' k) (records : known.Alike known')
    (corresponds : k.Corresponds literal literal') :
    (analysis.amendTypes known literal).Alike (analysis'.amendTypes known' literal') := by
  -- Both expansions have the same props in the same order, and these are written one by one.
  refine List.rel_foldl (R := EntryAlike TypedAlike) (P := Record.Alike) ?_ records
    (akin.scope.expand akin.typedProp? corresponds)
  rintro known known' records ⟨name, type, required⟩ ⟨_, type', _⟩ ⟨rfl, types, rfl⟩
  exact records.setType name types required

/-- Literals that correspond write the same descriptions into records. -/
theorem amendComments (akin : analysis.Akin analysis' k) (records : known.Alike known')
    (corresponds : k.Corresponds literal literal') :
    (analysis.amendComments known literal).Alike (analysis'.amendComments known' literal') := by
  -- Both expansions have the same props in the same order, and these are written one by one.
  refine List.rel_foldl
    (R := EntryAlike fun description description' : String => description = description')
    (P := Record.Alike) ?_ records (akin.scope.expand akin.describedProp? corresponds)
  rintro known known' records ⟨name, description⟩ ⟨_, _⟩ ⟨rfl, rfl⟩
  exact records.setDescription name description

variable {component component' : Component}

/-- Static members of components that are akin are given values that are akin. -/
theorem memberValue? (akin : analysis.Akin analysis' k)
    (components : component.Akin k component') (member : String) :
    Option.Rel (Expr.Akin k) (analysis.memberValue? component member)
      (analysis'.memberValue? component' member) := by
  -- An assignment to the name of the component counts before its definition.
  rcases component with ⟨name, kind, position⟩
  rcases component' with ⟨_, kind', position'⟩
  obtain ⟨rfl, kinds⟩ := components
  refine rel_or ?_ ?_
  · cases name with
    | none => exact .none
    | some name => exact akin.scope.assigned? name member
  · cases kinds with
    | specification corresponds =>
      exact rel_imp (akin.scope.property? _ _ member corresponds) fun _ _ same => same.akin
    | «class» definitions => exact definitions.static? member
    | function => exact .none

/-- Components that are akin declare their props by literals that correspond. -/
theorem declaredProps? (akin : analysis.Akin analysis' k)
    (components : component.Akin k component') :
    Option.Rel k.Corresponds (analysis.declaredProps? component)
      (analysis'.declaredProps? component') :=
  rel_bind (akin.memberValue? components "propTypes") fun _ _ same => akin.scope.object? same

/-- Components that are akin give themselves the same name. -/
theorem ownName? (akin : analysis.Akin analysis' k)
    (components : component.Akin k component') :
    analysis.ownName? component = analysis'.ownName? component' := by
  -- The value is a string or a template in both modules or in none.
  have values := rel_bind (akin.memberValue? components "displayName") akin.scope.value?.found
  refine bind_eq_of_rel values fun e e' same => ?_
  cases same with
  | template head holes => cases holes <;> rfl
  | _ => rfl

/-- Each facet of components that are akin keeps records akin. -/
theorem fill (akin : analysis.Akin analysis' k) (components : component.Akin k component')
    (records : known.Alike known') (facet : Facet) :
    (analysis.fill component known facet).Alike (analysis'.fill component' known' facet) := by
  -- Each facet is found in both modules or in none, and no other one is changed.
  have declared := akin.declaredProps? components
  cases facet with
  | types =>
    exact rel_getD (rel_map declared fun _ _ => akin.amendTypes records) records
  | comments =>
    exact rel_getD (rel_map declared fun _ _ => akin.amendComments records) records
  | displayName =>
    refine ⟨?_, records.props⟩
    simp only [Analysis.fill, akin.ownName? components, components.name, records.displayName]
  | description => exact ⟨records.displayName, records.props⟩

/-- Components that are akin have records that are akin. -/
theorem record (akin : analysis.Akin analysis' k) (components : component.Akin k component')
    (facets : List Facet) :
    (analysis.record facets component).Alike (analysis'.record facets component') := by
  -- The facets are filled in one after the other.
  have same : List.Forall₂ (fun facet facet' : Facet => facet = facet') facets facets := by simp
  refine List.rel_foldl (fun _ _ records facet _ equal => ?_) .empty same
  subst equal
  exact akin.fill components records facet

/-- The records of modules that are akin have the same outlines. -/
theorem records (akin : analysis.Akin analysis' k) (facets : List Facet) :
    (analysis.records facets).map Record.outline =
      (analysis'.records facets).map Record.outline := by
  -- Component by component, the records are alike.
  rw [Analysis.records, Analysis.records, List.map_map, List.map_map]
  exact map_eq_of_forall₂ akin.components fun _ _ same => (akin.record same facets).outline_eq

end Analysis.Akin

end PropCatalog
