import PropCatalog.Proofs.Record.Provenance

/-! Which props and fields are required. What a record says about the type of a prop and about
whether it is required is read off one validator, and only a type that is known makes anything
required, however deep it stands. -/

namespace PropCatalog

open Syntax

namespace PropType

mutual

/-- The fields of all shapes in a type, at any depth. -/
def fields : PropType → List ShapeField
  | .union members => fieldsOfAll members
  | .arrayOf item | .objectOf item => item.fields
  | .shape fields => fieldsOfShape fields
  | .simple _ | .enum _ | .enumText _ | .unionText _ | .instanceOf _ | .shapeText _ | .custom _ =>
    []

def fieldsOfAll : List PropType → List ShapeField
  | [] => []
  | type :: rest => type.fields ++ fieldsOfAll rest

/-- The fields of a shape, each in front of those in its type. -/
def fieldsOfShape : List ShapeField → List ShapeField
  | [] => []
  | .mk name type required description :: rest =>
    .mk name type required description :: type.fields ++ fieldsOfShape rest

end

/-- The fields in several types are those in each. -/
theorem fieldsOfAll_eq_flatMap (types : List PropType) :
    fieldsOfAll types = types.flatMap fields := by
  -- The recursion goes through the types one by one.
  induction types with
  | nil => rfl
  | cons type rest ih => rw [fieldsOfAll, ih, List.flatMap_cons]

/-- The fields in a shape are its own ones and those in their types. -/
theorem fieldsOfShape_eq_flatMap (fields : List ShapeField) :
    fieldsOfShape fields = fields.flatMap fun field => field :: field.type.fields := by
  -- The recursion goes through the fields one by one.
  induction fields with
  | nil => rfl
  | cons field rest ih =>
    cases field
    rw [fieldsOfShape, ih, List.flatMap_cons]
    rfl

end PropType

namespace Analysis

variable {analysis : Analysis} {type : PropType}

/-- Every field in a type that validators can describe is itself described by a property. -/
theorem Readable.describes (readable : analysis.Readable type) :
    ∀ field ∈ type.fields, analysis.Describes field := by
  -- The induction is on how the type is put together; only shapes add fields of their own.
  induction readable with
  | union _ ih =>
    intro field member
    rw [PropType.fields, PropType.fieldsOfAll_eq_flatMap] at member
    obtain ⟨type, known, member⟩ := List.mem_flatMap.1 member
    exact ih type known field member
  | arrayOf _ ih | objectOf _ ih =>
    intro field member
    rw [PropType.fields] at member
    exact ih field member
  | shape described _ ih =>
    intro field member
    rw [PropType.fields, PropType.fieldsOfShape_eq_flatMap] at member
    obtain ⟨outer, known, member⟩ := List.mem_flatMap.1 member
    rcases List.mem_cons.1 member with rfl | within
    · exact described field known
    · exact ih outer known field within
  | simple | enum | enumText | unionText | instanceOf | shapeText | custom =>
    intro field member
    simp [PropType.fields] at member

/-- A field is required only beside a type that is known. -/
theorem Describes.isCustom_eq_false {field : ShapeField} (described : analysis.Describes field)
    (required : field.required = true) : field.type.isCustom = false := by
  -- What is required has been asked for the form of its type.
  obtain ⟨_, value, _, same⟩ := described
  rw [same, Bool.and_eq_true, Bool.not_eq_true'] at required
  exact required.1

/-- The type of a prop in a record and whether it is required are what one and the same validator
gives, which stands under the name of the prop in the declared props or in a literal within their
reach. A prop and the fields of the shapes in its type are required only beside types that are
known, and a prop without a type never is. -/
theorem requiredness_of_mem_record {facets : List Facet} {component : Component} {name : String}
    {entry : PropEntry} (member : (name, entry) ∈ (analysis.record facets component).props.toList) :
    (∀ type, entry.type = some type →
      (∃ literal property validator, analysis.declaredProps? component = some literal ∧
        analysis.scope.Offers literal property ∧ analysis.scope.Declares name property validator ∧
        analysis.propType? validator = some (type, entry.required)) ∧
      (entry.required = true → type.isCustom = false) ∧
      ∀ field ∈ type.fields, field.required = true → field.type.isCustom = false) ∧
    (entry.type = none → entry.required = false) := by
  -- The entry has no type, or one validator has given it both the type and the mark.
  rcases exists_of_mem_record member with ⟨untyped, required⟩ |
    ⟨type, literal, property, validator, typed, leads, offered, declares, read⟩
  · refine ⟨fun type typed => ?_, fun _ => required⟩
    rw [untyped] at typed
    cases typed
  · refine ⟨fun other same => ?_, fun untyped => ?_⟩
    · obtain rfl := Option.some.inj (typed.symm.trans same)
      obtain ⟨readable, known⟩ := readable_of_propType? read
      refine ⟨⟨literal, property, validator, leads, offered, declares, read⟩, fun required => ?_,
        fun field inside => (readable.describes field inside).isCustom_eq_false⟩
      rw [known, Bool.and_eq_true, Bool.not_eq_true'] at required
      exact required.1
    · rw [untyped] at typed
      cases typed

namespace Circular

/-- The literal `{ box: PropTypes.object, ...more }`. -/
def size : Expr := .object ⟨49, 83⟩ [
  .pair 51 (.name "box") (.member ⟨56, 72⟩ (.name ⟨56, 65⟩ "PropTypes") (.name "object")),
  .spread (.name ⟨77, 81⟩ "more")]

/-- The literal `{ ...size, box: … }` with a shape that is required, as is the field in it. -/
def more : Expr := .object ⟨98, 178⟩ [
  .spread (.name ⟨103, 107⟩ "size"),
  .pair 109 (.name "box") (.member ⟨114, 176⟩
    (.call ⟨114, 165⟩ (.member ⟨114, 129⟩ (.name ⟨114, 123⟩ "PropTypes") (.name "shape"))
      [.item (.object ⟨130, 164⟩ [
        .pair 132 (.name "w") (.member ⟨135, 162⟩
          (.member ⟨135, 151⟩ (.name ⟨135, 144⟩ "PropTypes") (.name "number"))
          (.name "isRequired"))])])
    (.name "isRequired"))]

/-- A class whose props are the first of the two literals. -/
def box : Syntax.Class :=
  .mk none [
    .method false (.name "render") [],
    .field true (.name "propTypes") (some (.name ⟨227, 231⟩ "size"))]

/-- A module whose two literals spread each other. The later one declares the prop again. -/
def module : Analysis :=
  .ofFile
    { text := "import PropTypes from 'prop-types';\nconst size = \x7b box: PropTypes.object, " ++
        "...more \x7d;\nconst more = \x7b ...size, box: PropTypes.shape(\x7b w: " ++
        "PropTypes.number.isRequired \x7d).isRequired \x7d;\nclass Box \x7b\n" ++
        "  render() \x7b\x7d\n  static propTypes = size;\n\x7d\n"
      module := ⟨[
        .importDecl ⟨0, 35⟩ false (some "prop-types") ["PropTypes"],
        .stmt (.decl ⟨36, 84⟩ (.variables [.mk (.name "size") (some size)])),
        .stmt (.decl ⟨85, 179⟩ (.variables [.mk (.name "more") (some more)])),
        .stmt (.decl ⟨180, 234⟩ (.class "Box" box))]⟩
      comments := [] }
    []

end Circular

theorem requiredness_of_mem_record_circular :
    ∃ entry, ("box", entry) ∈ (Circular.module.record Facet.all
        ⟨some "Box", .class Circular.box, 180⟩).props.toList ∧
      entry.required = true ∧ entry.type.map PropType.display = some "shape(\x7bw: number\x7d)" ∧
      (∀ type, entry.type = some type →
        (∃ literal property validator,
          Circular.module.declaredProps? ⟨some "Box", .class Circular.box, 180⟩ = some literal ∧
          Circular.module.scope.Offers literal property ∧
          Circular.module.scope.Declares "box" property validator ∧
          Circular.module.propType? validator = some (type, entry.required)) ∧
        (entry.required = true → type.isCustom = false) ∧
        ∀ field ∈ type.fields, field.required = true → field.type.isCustom = false) ∧
      (entry.type = none → entry.required = false) := by
  -- The record has one prop, and the theorem is about it.
  have props : (Circular.module.record Facet.all
        ⟨some "Box", .class Circular.box, 180⟩).props.toList.map
      (fun prop => (prop.1, prop.2.required, prop.2.type.map PropType.display)) =
        [("box", true, some "shape(\x7bw: number\x7d)")] := by decide +kernel
  obtain ⟨⟨name, entry⟩, member, same⟩ := List.mem_map.1 (props ▸ List.mem_singleton_self _)
  simp only [Prod.mk.injEq] at same
  obtain ⟨rfl, required, shown⟩ := same
  exact ⟨entry, member, required, shown, requiredness_of_mem_record member⟩

end Analysis

end PropCatalog
