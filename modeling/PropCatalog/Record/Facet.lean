import PropCatalog.Component.Discovery
import PropCatalog.Record.Basic
import PropCatalog.Record.Spread
import PropCatalog.Validator.Reading

/-! The facets of a component that its record holds, each read on its own. -/

namespace PropCatalog

open Syntax

/-- One thing to be found out about a component. -/
inductive Facet where
  /-- The types of its props. -/
  | types
  /-- The descriptions of its props. -/
  | comments
  /-- The name it is shown under. -/
  | displayName
  /-- Its own description. -/
  | description
  deriving DecidableEq, Repr

/-- All facets, in the order in which they are filled in. -/
def Facet.all : List Facet := [types, comments, displayName, description]

namespace Analysis

/-- The type that a prop has by its validator, and whether the prop is required. What is no
validator makes a custom type. -/
def propType? (analysis : Analysis) (validator : Expr) : Option (PropType × Bool) :=
  let type :=
    if analysis.isValidator validator then analysis.type? validator
    else some (.custom (analysis.quote validator))
  type.map fun type => (type, ! type.isCustom && validator.isRequired)

/-- The prop that a property declares, with its type. -/
def typedProp? (analysis : Analysis) : Property → Option (String × (PropType × Bool))
  | .pair _ key value =>
    (analysis.scope.keyName? key).bind fun name =>
      (analysis.propType? value).map fun type => (name, type)
  | .shorthand span name => (analysis.propType? (.name span name)).map fun type => (name, type)
  | _ => none

/-- The prop that a property describes, with the description in front of it. -/
def describedProp? (analysis : Analysis) : Property → Option (String × String)
  | .pair start key _ =>
    (analysis.scope.keyName? key).bind fun name =>
      (analysis.file.descriptionAt? start).map fun description => (name, description)
  | .shorthand span name =>
    (analysis.file.descriptionAt? span.lo).map fun description => (name, description)
  | _ => none

/-- Writes into a record the types of the props that an object literal declares. -/
def amendTypes (analysis : Analysis) (record : Record) (literal : ObjectLiteral) : Record :=
  (analysis.scope.expand analysis.typedProp? literal).toList.foldl
    (fun record (name, type, required) => record.setType name type required) record

/-- Writes into a record the descriptions of the props that an object literal describes. -/
def amendComments (analysis : Analysis) (record : Record) (literal : ObjectLiteral) : Record :=
  (analysis.scope.expand analysis.describedProp? literal).toList.foldl
    (fun record (name, description) => record.setDescription name description) record

/-- The object literal that declares the props of a component. -/
def declaredProps? (analysis : Analysis) (component : Component) : Option ObjectLiteral :=
  (analysis.memberValue? component "propTypes").bind analysis.scope.object?

/-- The name that a component gives itself: the text of a string or template. -/
def ownName? (analysis : Analysis) (component : Component) : Option String :=
  ((analysis.memberValue? component "displayName").bind analysis.scope.value?).bind fun
    | .string _ value => some value
    | .template _ head [] => head
    | _ => none

/-- Fills in one facet of a component, and keeps what the record says if nothing is found. -/
def fill (analysis : Analysis) (component : Component) (record : Record) : Facet → Record
  | .types => ((analysis.declaredProps? component).map (analysis.amendTypes record)).getD record
  | .comments =>
    ((analysis.declaredProps? component).map (analysis.amendComments record)).getD record
  | .displayName =>
    { record with
      displayName := ((analysis.ownName? component).or component.name).or record.displayName }
  | .description =>
    { record with
      description := (analysis.file.descriptionAt? component.position).or record.description }

/-- The record of a component after some facets have been filled in one after the other. -/
def record (analysis : Analysis) (facets : List Facet) (component : Component) : Record :=
  facets.foldl (analysis.fill component) .empty

/-- The records of all components of the module, in source order, when all validators are read to
their ends. -/
def records (analysis : Analysis) (facets : List Facet) : List Record :=
  analysis.components.map (analysis.record facets)

/-! ## Runs without an end -/

/-- Whether the value of a property is read to its end. Only a validator under a name that is known
is read at all. -/
def propFinishes (analysis : Analysis) (property : Property) : Bool :=
  match analysis.scope.propertyName? property, property.value? with
  | some _, some value => ! analysis.isValidator value || analysis.finishes value
  | _, _ => true

/-- Whether the types of all props that an object literal declares are read to their ends, those in
literals that are spread and those that are overwritten, too. -/
def typesFinish (analysis : Analysis) (literal : ObjectLiteral) : Bool :=
  (analysis.scope.expanded analysis.typedProp? literal).all fun inner =>
    inner.properties.all analysis.propFinishes

/-- Whether filling in some facets of a component comes to an end. -/
def recordFinishes (analysis : Analysis) (facets : List Facet) (component : Component) : Bool :=
  ! facets.contains .types || (analysis.declaredProps? component).all analysis.typesFinish

/-- The records of all components of the module; there are none when a validator of one of them has
no end. -/
def records? (analysis : Analysis) (facets : List Facet) : Option (List Record) :=
  if analysis.components.all (analysis.recordFinishes facets) then some (analysis.records facets)
  else none

end Analysis

/-- Documents every component of a source file with all facets. Whether this comes to an end is what
`sourceFinishes` tells. -/
def document? (path source : String) (validatorModules : List String) : Option (List Record) :=
  (SourceFile.parse? path source).map fun file =>
    (Analysis.ofFile file validatorModules).records Facet.all

/-- Whether documenting a source file comes to an end. A text that is no module is given up at
once. -/
def sourceFinishes (path source : String) (validatorModules : List String) : Bool :=
  (SourceFile.parse? path source).all fun file =>
    ((Analysis.ofFile file validatorModules).records? Facet.all).isSome

end PropCatalog
