import PropCatalog.Proofs.Record.Amending
import PropCatalog.Proofs.Spread.Own
import PropCatalog.Proofs.Validator.Finishing

/-! Shapes beside the props of a component: an object literal describes the same fields in a shape
as it declares props, except that validators inside of validators are known by their names alone. -/

namespace PropCatalog

open Syntax

namespace ShapeField

/-- What a field says beside its description. -/
def entry (field : ShapeField) : String × (PropType × Bool) :=
  (field.name, field.type, field.required)

/-- Fields take the place of those of their name as entries of a map do. -/
theorem map_entry_insert (field : ShapeField) (fields : List ShapeField) :
    (field.insert fields).map entry =
      insertEntry field.name (field.type, field.required) (fields.map entry) := by
  -- Both walks stop at the name.
  induction fields with
  | nil => rfl
  | cons other rest ih =>
    by_cases same : other.name = field.name
    · simp [insert, insertEntry, entry, same]
    · simp only [insert, if_neg same, List.map_cons, ih]
      simp [insertEntry, entry, same]

/-- Fields that are put in one after the other are those of the map that their entries make. -/
theorem map_entry_foldl_insert (fields : List ShapeField) :
    (fields.foldl (fun fields field => field.insert fields) []).map entry =
      (OrderedMap.ofList (fields.map entry)).toList := by
  -- Fields are put in at the end, so that the induction takes them off there.
  induction fields using List.reverseRecOn with
  | nil => rfl
  | append_singleton fields field ih =>
    rw [List.foldl_concat, map_entry_insert, ih, List.map_append, OrderedMap.ofList,
      OrderedMap.ofList, List.foldl_append]
    rfl

end ShapeField

namespace Analysis

/-- The type that a validator describes, whatever module it comes from, and whether the prop is
required. -/
def validatorType? (analysis : Analysis) (e : Expr) : Option (PropType × Bool) :=
  (analysis.type? e).map fun type => (type, ! type.isCustom && e.isRequired)

/-- The prop that a property declares, given how values are read. -/
def readProp? (analysis : Analysis) (type? : Expr → Option (PropType × Bool)) :
    Property → Option (String × (PropType × Bool))
  | .pair _ key value =>
    (analysis.scope.keyName? key).bind fun name => (type? value).map fun type => (name, type)
  | .shorthand span name => (type? (.name span name)).map fun type => (name, type)
  | _ => none

/-- Among the properties of a literal and of those it spreads, only pairs of a key and a value in
the literal itself have a name. -/
structure Paired (analysis : Analysis) (literal : ObjectLiteral) (name : String) : Prop where
  written : ∀ span, .shorthand span name ∉ literal.properties
  unspread : analysis.scope.Unspread literal name

/-- All values that a literal pairs with a name come from modules whose exports are validators. -/
def Recognized (analysis : Analysis) (literal : ObjectLiteral) (name : String) : Prop :=
  ∀ start key value, .pair start key value ∈ literal.properties →
    analysis.scope.keyName? key = some name → analysis.isValidator value = true

variable {analysis : Analysis} {literal : ObjectLiteral} {keep : String → Bool}

/-- What comes from a module of validators has the type of a validator. -/
theorem propType?_of_isValidator {e : Expr} (known : analysis.isValidator e = true) :
    analysis.propType? e = analysis.validatorType? e := by
  simp [propType?, validatorType?, known]

/-- Types are written for props whose values are read as they come. -/
theorem typedProp?_eq_readProp? : analysis.typedProp? = analysis.readProp? analysis.propType? := by
  -- The two are the same for each form of a property.
  funext property
  cases property <;> rfl

/-- However values are read, props have the names of properties. -/
theorem names_readProp? (type? : Expr → Option (PropType × Bool)) :
    analysis.scope.Names (analysis.readProp? type?) := by
  -- A prop is read from a pair or a shorthand, and bears its name.
  intro property name value read
  cases property with
  | pair start key validator =>
    obtain ⟨_, named, read⟩ := Option.bind_eq_some_iff.mp read
    obtain ⟨_, -, same⟩ := Option.map_eq_some_iff.mp read
    cases same
    exact named
  | shorthand span text =>
    obtain ⟨_, -, same⟩ := Option.map_eq_some_iff.mp read
    cases same
    rfl
  | _ => cases read

/-- The fields of a shape, beside their descriptions, are the map of what its properties declare
when values are read as validators, shorthands left out. -/
theorem map_entry_shapeFields (analysis : Analysis) (properties : List Property) :
    (analysis.shapeFields analysis.type? properties).map ShapeField.entry =
      (OrderedMap.ofList (properties.filterMap fun property =>
        match property with
        | .shorthand _ _ => none
        | other => analysis.readProp? analysis.validatorType? other)).toList := by
  -- A pair is read the same by both, and no other property makes a field.
  rw [shapeFields, ShapeField.map_entry_foldl_insert, List.map_filterMap]
  congr 2
  refine List.filterMap_congr fun property _ => ?_
  cases property with
  | pair start key value =>
    simp only [shapeField?, readProp?, validatorType?]
    cases analysis.scope.keyName? key with
    | none => rfl
    | some name => cases analysis.type? value <;> rfl
  | _ => rfl

/-- The fields of a shape whose names are given by pairs of the literal alone are the props that the
literal declares when values are read as validators. -/
theorem filter_shapeFields (paired : ∀ name, keep name = true → analysis.Paired literal name) :
    ((analysis.shapeFields analysis.type? literal.properties).map ShapeField.entry).filter
        (fun field => keep field.1) =
      (analysis.scope.expand (analysis.readProp? analysis.validatorType?) literal).only keep := by
  -- Under these names nothing is spread, so that both maps are made of the own properties.
  rw [map_entry_shapeFields, Scope.only_expand (names_readProp? _)
    fun name kept => (paired name kept).unspread]
  refine OrderedMap.only_ofList_filterMap_congr fun property member => ?_
  cases property with
  | shorthand span text =>
    -- Nothing is looked at under the name of a shorthand.
    have out : keep text = false := by
      by_contra kept
      exact (paired text (by simpa using kept)).written span member
    rw [(names_readProp? _).filter_eq_none rfl out]
    rfl
  | _ => rfl

/-- Types that come from modules of validators are the same in a record. -/
theorem only_amendTypes (paired : ∀ name, keep name = true → analysis.Paired literal name)
    (recognized : ∀ name, keep name = true → analysis.Recognized literal name) :
    (analysis.amendTypes .empty literal).props.only keep =
      ((analysis.scope.expand (analysis.readProp? analysis.validatorType?) literal).only keep).map
        fun (name, type, required) => (name, ⟨some type, required, none⟩) := by
  -- From an empty record, each entry of the expansion is written once.
  have amended : (analysis.amendTypes .empty literal).props.toList =
      (analysis.scope.expand analysis.typedProp? literal).toList.map
        fun (name, type, required) => (name, ⟨some type, required, none⟩) := by
    rw [amendTypes_eq]
    exact OrderedMap.toList_foldl_write_empty _ _
  have read : (analysis.scope.expand analysis.typedProp? literal).only keep =
      (analysis.scope.expand (analysis.readProp? analysis.validatorType?) literal).only keep := by
    have unspread := fun name kept => (paired name kept).unspread
    rw [typedProp?_eq_readProp?, Scope.only_expand (names_readProp? _) unspread,
      Scope.only_expand (names_readProp? _) unspread]
    refine OrderedMap.only_ofList_filterMap_congr fun property member => ?_
    cases property with
    | pair start key value =>
      cases named : analysis.scope.keyName? key with
      | none => simp [readProp?, named]
      | some name =>
        by_cases kept : keep name = true
        · have known := recognized name kept start key value member named
          simp [readProp?, propType?_of_isValidator known]
        · have out : keep name = false := by simpa using kept
          have bears : analysis.scope.propertyName? (.pair start key value) = some name := named
          rw [(names_readProp? _).filter_eq_none bears out,
            (names_readProp? _).filter_eq_none bears out]
    | shorthand span text =>
      have out : keep text = false := by
        by_contra kept
        exact (paired text (by simpa using kept)).written span member
      rw [(names_readProp? _).filter_eq_none rfl out, (names_readProp? _).filter_eq_none rfl out]
    | _ => rfl
  rw [← read, OrderedMap.only, amended, List.filter_map]
  rfl

/-- The shape that a call on an object literal describes, in a validator that does not contain
itself. Under names that only pairs of a key and a value in the literal itself have, its fields are
the props that the literal declares when every value is read as a validator, in the same order and
with the same types, required or not. Where the values come from modules whose exports are
validators, these are the props that the literal writes into an empty record. -/
theorem type?_shape {e argument : Expr} {others : List Element} (well : analysis.WellNested e)
    (decided : e.verdict? = some (.call .shape (.item argument :: others)))
    (leads : analysis.scope.object? argument = some literal) :
    ∃ fields, analysis.type? e = some (.shape fields) ∧
      ∀ keep : String → Bool, (∀ name, keep name = true → analysis.Paired literal name) →
        let kept := (fields.map ShapeField.entry).filter fun field => keep field.1
        kept =
            (analysis.scope.expand (analysis.readProp? analysis.validatorType?) literal).only keep ∧
        ((∀ name, keep name = true → analysis.Recognized literal name) →
          (analysis.amendTypes .empty literal).props.only keep =
            kept.map fun (name, type, required) => (name, ⟨some type, required, none⟩)) := by
  -- The type is that of one step, which makes the fields of the literal.
  have described : analysis.type? e =
      some (.shape (analysis.shapeFields analysis.type? literal.properties)) := by
    rw [well.type?_eq]
    simp [typeStep?, decided, callType?, argumentType?, leads]
  refine ⟨_, described, fun keep paired => ⟨filter_shapeFields paired, fun recognized => ?_⟩⟩
  rw [filter_shapeFields paired]
  exact only_amendTypes paired recognized

namespace Fields

/-- An access to a member of a name. -/
def access (start middle stop : Nat) (object key : String) : Expr :=
  .member ⟨start, stop⟩ (.name ⟨start, middle⟩ object) (.name key)

/-- The literal `{ d: PropTypes.any }`. -/
def base : ObjectLiteral where
  span := ⟨74, 94⟩
  properties := [.pair 76 (.name "d") (access 79 88 92 "PropTypes" "any")]

/-- The validator `PropTypes.string.isRequired`. -/
def text : Expr :=
  .member ⟨117, 144⟩ (access 117 126 133 "PropTypes" "string") (.name "isRequired")

/-- The validator `PropTypes.number`. -/
def number : Expr :=
  access 167 176 183 "PropTypes" "number"

/-- The validator `PropTypes.arrayOf(PropTypes.number)`. -/
def numbers : Expr :=
  .call ⟨149, 184⟩ (access 149 158 166 "PropTypes" "arrayOf") [.item number]

/-- The literal with the fields `a`, `b`, `c`, the shorthand `d` and the spread of `base`. -/
def mixed : ObjectLiteral where
  span := ⟨112, 215⟩
  properties := [.pair 114 (.name "a") text, .pair 146 (.name "b") numbers,
    .pair 186 (.name "c") (access 189 194 201 "other" "string"), .shorthand ⟨203, 204⟩ "d",
    .spread (.name ⟨209, 213⟩ "base")]

/-- The literal `{ c: other.string }`. -/
def foreign : ObjectLiteral where
  span := ⟨234, 253⟩
  properties := [.pair 236 (.name "c") (access 239 244 251 "other" "string")]

/-- A call of `PropTypes.shape` on a literal. -/
def shape (start : Nat) (literal : ObjectLiteral) : Expr :=
  .call ⟨start, literal.span.hi + 1⟩ (access start (start + 9) (start + 15) "PropTypes" "shape")
    [.item (.object literal.span literal.properties)]

/-- A module with two shapes. -/
def module : Analysis where
  file :=
    { text := "import PropTypes from 'prop-types';\nimport other from './x';\n" ++
        "const base = \x7b d: PropTypes.any \x7d;\n" ++
        "PropTypes.shape(\x7b a: PropTypes.string.isRequired, " ++
        "b: PropTypes.arrayOf(PropTypes.number), c: other.string, d, ...base \x7d);\n" ++
        "PropTypes.shape(\x7b c: other.string \x7d);"
      module := ⟨[.stmt (.expr ⟨96, 217⟩ (shape 96 mixed)),
        .stmt (.expr ⟨218, 255⟩ (shape 218 foreign))]⟩
      comments := [] }
  scope :=
    { bindings := [("base", .value (.object base.span base.properties)),
        ("other", .imported "./x"), ("PropTypes", .imported "prop-types")]
      assignments := [] }
  validatorModules := []

theorem wellNested : Fields.module.WellNested (shape 96 mixed) := by
  -- A validator inside of another one is a shorter text.
  have start : shape 96 mixed ∈
      [shape 96 mixed, text, numbers, access 189 194 201 "other" "string", number] := by simp
  exact wellNested_of_falls start (fun e => e.span.hi - e.span.lo) (by decide +kernel)

theorem paired : ∀ name, ["a", "b"].contains name = true → Fields.module.Paired mixed name := by
  -- The names are those of pairs, and the literal that is spread has others.
  intro name kept
  have either : name ∈ ["a", "b"] := by simpa using kept
  refine ⟨fun span member => ?_, ?_⟩
  · simp only [mixed, List.mem_cons, reduceCtorEq, Property.shorthand.injEq, false_or,
      List.not_mem_nil, or_false] at member
    rw [member.2] at either
    exact absurd either (by decide)
  · -- Only `base` is spread.
    have first : Fields.module.scope.targets mixed ⊆ [base] := by decide +kernel
    refine Scope.unspread_of_closed first (by decide +kernel) ?_
    exact (by decide +kernel : ∀ name ∈ ["a", "b"], ∀ inner ∈ [base],
      ∀ property ∈ inner.properties,
        Fields.module.scope.propertyName? property ≠ some name) name either

theorem recognized :
    ∀ name, ["a", "b"].contains name = true → Fields.module.Recognized mixed name := by
  -- The values under the two names are accesses to the module of validators.
  intro name kept start key value member named
  simp only [mixed, List.mem_cons, Property.pair.injEq, reduceCtorEq, List.not_mem_nil, or_false]
    at member
  rcases member with ⟨rfl, rfl, rfl⟩ | ⟨rfl, rfl, rfl⟩ | ⟨rfl, rfl, rfl⟩
  · decide +kernel
  · decide +kernel
  · -- The third name is not looked at.
    cases named
    exact absurd kept (by decide)

theorem wellNested_foreign : Fields.module.WellNested (shape 218 foreign) := by
  -- The one validator inside is shorter.
  have start : shape 218 foreign ∈
      [shape 218 foreign, access 239 244 251 "other" "string"] := by simp
  exact wellNested_of_falls start (fun e => e.span.hi - e.span.lo) (by decide +kernel)

theorem acyclic_foreign : Fields.module.scope.Acyclic foreign := by
  -- Nothing is spread.
  have start : foreign ∈ [foreign] := by simp
  exact Scope.acyclic_of_falls start (fun literal => literal.span.lo) (by decide +kernel)

end Fields

theorem type?_shape_mixed :
    Fields.module.WellNested (Fields.shape 96 Fields.mixed) ∧
    (Fields.shape 96 Fields.mixed).verdict? =
      some (.call .shape [.item (.object Fields.mixed.span Fields.mixed.properties)]) ∧
    Fields.module.scope.object? (.object Fields.mixed.span Fields.mixed.properties) =
      some Fields.mixed ∧
    (∀ name, ["a", "b"].contains name = true → Fields.module.Paired Fields.mixed name) ∧
    (∀ name, ["a", "b"].contains name = true → Fields.module.Recognized Fields.mixed name) ∧
    ∃ fields, Fields.module.type? (Fields.shape 96 Fields.mixed) = some (.shape fields) ∧
      (Fields.module.amendTypes .empty Fields.mixed).props.only ["a", "b"].contains =
        ((fields.map ShapeField.entry).filter fun field => ["a", "b"].contains field.1).map
          fun (name, type, required) => (name, ⟨some type, required, none⟩) := by
  -- Both names belong to pairs with validators that are recognized.
  obtain ⟨fields, described, kept⟩ := type?_shape Fields.wellNested rfl rfl
  exact ⟨Fields.wellNested, rfl, rfl, Fields.paired, Fields.recognized, fields, described,
    (kept ["a", "b"].contains Fields.paired).2 Fields.recognized⟩

/-- A field whose value comes from elsewhere has the type of the validator that it bears the name
of, and the prop that the same literal declares has a custom type. -/
theorem type?_shape_foreign :
    Fields.module.WellNested (Fields.shape 218 Fields.foreign) ∧
    (Fields.shape 218 Fields.foreign).verdict? =
      some (.call .shape [.item (.object Fields.foreign.span Fields.foreign.properties)]) ∧
    Fields.module.scope.object? (.object Fields.foreign.span Fields.foreign.properties) =
      some Fields.foreign ∧
    Fields.module.scope.Acyclic Fields.foreign ∧
    (Fields.module.type? (Fields.shape 218 Fields.foreign)).map PropType.display =
      some "shape(\x7bc?: string\x7d)" ∧
    (Fields.module.amendTypes .empty Fields.foreign).props.toList.map
        (fun (name, entry) => (name, entry.type.map PropType.display)) =
      [("c", some "custom(other.string)")] := by
  -- The field and the prop are evaluated, apart from the text of the validator.
  have quoted : Fields.module.file.quote ⟨239, 251⟩ = "other.string" := by
    rw [SourceFile.quote_eq (ofList_append_eq (ofList_append_eq (ofList_append_eq
      (ofList_append_eq rfl rfl) rfl) rfl) rfl)]
    decide +kernel
  have entries : (Fields.module.amendTypes .empty Fields.foreign).props.toList =
      [("c", ⟨some (.custom (Fields.module.file.quote ⟨239, 251⟩)), false, none⟩)] := rfl
  refine ⟨Fields.wellNested_foreign, rfl, rfl, Fields.acyclic_foreign, by decide +kernel, ?_⟩
  rw [entries, quoted]
  decide

end Analysis

end PropCatalog
