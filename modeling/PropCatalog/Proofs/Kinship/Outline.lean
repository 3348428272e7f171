import PropCatalog.Proofs.Kinship.Validator

/-! Outlines of types: what is left of a type without the texts that are printed in it. Validators
that are akin have types of the same outline. -/

namespace PropCatalog

open Syntax

mutual

/-- A type with nothing in the place of the texts that are printed in it. -/
def PropType.outline : PropType → PropType
  | .simple kind => .simple kind
  | .enum members => .enum (members.map fun member => ⟨"", member.computed⟩)
  | .enumText _ => .enumText ""
  | .union members => .union (outlineAll members)
  | .unionText _ => .unionText ""
  | .arrayOf item => .arrayOf item.outline
  | .objectOf item => .objectOf item.outline
  | .instanceOf _ => .instanceOf ""
  | .shape fields => .shape (outlineFields fields)
  | .shapeText _ => .shapeText ""
  | .custom _ => .custom ""

/-- The outline of each of several types. -/
def outlineAll : List PropType → List PropType
  | [] => []
  | type :: rest => type.outline :: outlineAll rest

/-- A field with the outline of its type. -/
def ShapeField.outline : ShapeField → ShapeField
  | .mk name type required description => .mk name type.outline required description

/-- Each of several fields with the outline of its type. -/
def outlineFields : List ShapeField → List ShapeField
  | [] => []
  | field :: rest => field.outline :: outlineFields rest

end

@[simp]
theorem outlineAll_eq_map (types : List PropType) :
    outlineAll types = types.map PropType.outline := by
  -- The recursion goes through the types one by one.
  induction types with
  | nil => rfl
  | cons type rest ih => rw [outlineAll, ih, List.map_cons]

@[simp]
theorem outlineFields_eq_map (fields : List ShapeField) :
    outlineFields fields = fields.map ShapeField.outline := by
  -- The recursion goes through the fields one by one.
  induction fields with
  | nil => rfl
  | cons field rest ih => rw [outlineFields, ih, List.map_cons]

/-- An outline keeps the name of a field. -/
@[simp]
theorem ShapeField.name_outline (field : ShapeField) : field.outline.name = field.name := by
  -- An outline leaves names as they are.
  cases field with
  | mk name type required description => rfl

/-- Fields are put in their places by their names only, so that outlines can be taken before. -/
theorem ShapeField.map_outline_insert (field : ShapeField) (fields : List ShapeField) :
    (field.insert fields).map outline = field.outline.insert (fields.map outline) := by
  -- The field is compared by its name, which its outline has as well.
  induction fields with
  | nil => rfl
  | cons known rest ih =>
    simp only [ShapeField.insert, List.map_cons, ShapeField.name_outline]
    split
    · rfl
    · rw [List.map_cons, ih]

/-- Two types have the same outline when they differ in printed texts at most. -/
def PropType.SameOutline (type type' : PropType) : Prop :=
  type.outline = type'.outline

/-- Types of the same outline are both custom or none of them is. -/
theorem PropType.SameOutline.isCustom {type type' : PropType} (same : type.SameOutline type') :
    type.isCustom = type'.isCustom := by
  -- An outline keeps the form of a type.
  have kept : ∀ type : PropType, type.outline.isCustom = type.isCustom := by
    intro type
    cases type <;> simp only [PropType.outline, PropType.isCustom]
  rw [← kept type, ← kept type', same]

/-- A spread argument leads to the same outline, whatever its text is. -/
theorem CallKind.ofSpread?_rel (kind : CallKind) (text text' : String) :
    Option.Rel PropType.SameOutline (kind.ofSpread? text) (kind.ofSpread? text') := by
  -- The outline leaves the text out.
  cases kind with
  | arrayOf => exact .none
  | objectOf => exact .none
  | _ => exact .some rfl

/-- Fields have the same outline when their types do and the rest of them is the same. -/
def ShapeField.SameOutline (field field' : ShapeField) : Prop :=
  field.outline = field'.outline

/-- Two analyses are akin when they are about modules that are akin, and know the same modules of
validators. -/
structure Analysis.Akin (analysis analysis' : Analysis)
    (k : Kinship analysis.file analysis'.file) : Prop where
  module : analysis.file.module.Akin k analysis'.file.module
  scope : analysis.scope.Akin k analysis'.scope
  validatorModules : analysis.validatorModules = analysis'.validatorModules

/-- Analyses of files whose modules are akin are akin. -/
theorem Analysis.Akin.ofFile {file other : SourceFile} {k : Kinship file other}
    (akin : file.module.Akin k other.module) (validatorModules : List String) :
    (Analysis.ofFile file validatorModules).Akin (Analysis.ofFile other validatorModules) k :=
  ⟨akin, .ofModule akin, rfl⟩

/-- Two ways to read types are akin when they read types of the same outline from validators that
are akin. -/
def TypesAkin {file other : SourceFile} (k : Kinship file other)
    (type? type'? : Expr → Option PropType) : Prop :=
  ∀ e e', e.Akin k e' → Option.Rel PropType.SameOutline (type? e) (type'? e')

namespace Analysis.Akin

variable {analysis analysis' : Analysis} {k : Kinship analysis.file analysis'.file}

/-- Array literals that stand for what is akin have elements that are akin. -/
theorem elements? (akin : analysis.Akin analysis' k) {e e' : Expr} (exprs : e.Akin k e') :
    Option.Rel (List.Forall₂ (Expr.Akin k)) (analysis.elements? e) (analysis'.elements? e') := by
  -- The values are arrays in both modules or in none.
  unfold Analysis.elements?
  have values := akin.scope.value?.found e e' exprs
  generalize analysis.scope.value? e = value, analysis'.scope.value? e' = value' at values
  cases values with
  | none => exact .none
  | some same =>
    cases same with
    | array akin => exact akin.elementValues?
    | _ => exact .none

/-- Properties that are akin describe fields of the same outline. -/
theorem shapeField? (akin : analysis.Akin analysis' k) {type? type'? : Expr → Option PropType}
    (types : TypesAkin k type? type'?) {property property' : Property}
    (properties : property.Akin k property') :
    Option.Rel ShapeField.SameOutline (analysis.shapeField? type? property)
      (analysis'.shapeField? type'? property') := by
  -- Only properties with a key of their own describe fields.
  cases properties with
  | pair described keys values =>
    simp only [Analysis.shapeField?, akin.scope.keyName? keys]
    cases analysis'.scope.keyName? _ with
    | none => exact .none
    | some name =>
      refine rel_map (types _ _ values) fun type type' same => ?_
      have described : analysis.file.descriptionAt? _ = analysis'.file.descriptionAt? _ := described
      have outlines : type.outline = type'.outline := same
      simp only [ShapeField.SameOutline, ShapeField.outline, outlines, same.isCustom,
        values.isRequired, described]
  | _ => exact .none

/-- Properties that are akin describe shapes with fields of the same outlines. -/
theorem shapeFields (akin : analysis.Akin analysis' k) {type? type'? : Expr → Option PropType}
    (types : TypesAkin k type? type'?) {properties properties' : List Property}
    (related : PropertiesAkin k properties properties') :
    (analysis.shapeFields type? properties).map ShapeField.outline =
      (analysis'.shapeFields type'? properties').map ShapeField.outline := by
  -- One field after the other is put into its place.
  have fields := List.rel_filterMap (R := Property.Akin k) (P := ShapeField.SameOutline)
    (fun _ _ => akin.shapeField? types) related.forall₂
  refine List.rel_foldl (R := ShapeField.SameOutline) (P := fun known known' : List ShapeField =>
    known.map ShapeField.outline = known'.map ShapeField.outline) ?_ rfl fields
  intro known known' same field field' outlines
  rw [ShapeField.map_outline_insert, ShapeField.map_outline_insert, same, outlines]

/-- Arguments that are akin lead to types of the same outline. -/
theorem argumentType? (akin : analysis.Akin analysis' k) {type? type'? : Expr → Option PropType}
    (types : TypesAkin k type? type'?) (kind : CallKind) {argument argument' : Expr}
    (arguments : argument.Akin k argument') :
    Option.Rel PropType.SameOutline (analysis.argumentType? type? kind argument)
      (analysis'.argumentType? type'? kind argument') := by
  -- Each kind reads the argument in one way, and what it reads in it is akin.
  cases kind with
  | oneOf =>
    have elements := akin.elements? arguments
    simp only [Analysis.argumentType?]
    generalize analysis.elements? argument = es, analysis'.elements? argument' = es' at elements
    cases elements with
    | none => exact .some rfl
    | some related =>
      -- Whether a member is computed does not hang on its text.
      refine .some ?_
      simp only [PropType.SameOutline, PropType.outline, List.map_map, PropType.enum.injEq]
      refine map_eq_of_forall₂ related fun e e' same => ?_
      simp only [Function.comp_apply, Analysis.enumMember, same.isLiteral]
  | oneOfType =>
    have members := rel_bind (akin.elements? arguments) fun _ _ related => rel_mapM related types
    simp only [Analysis.argumentType?]
    generalize (analysis.elements? argument).bind _ = read,
      (analysis'.elements? argument').bind _ = read' at members
    cases members with
    | none => exact .some rfl
    | some related =>
      refine .some ?_
      simp only [PropType.SameOutline, PropType.outline, outlineAll_eq_map, PropType.union.injEq]
      exact map_eq_of_forall₂ related fun _ _ same => same
  | instanceOf => exact .some rfl
  | arrayOf =>
    refine rel_map (types _ _ arguments) fun type type' same => ?_
    exact congrArg PropType.arrayOf same
  | objectOf =>
    refine rel_map (types _ _ arguments) fun type type' same => ?_
    exact congrArg PropType.objectOf same
  | shape =>
    have literals := akin.scope.object? arguments
    simp only [Analysis.argumentType?]
    generalize analysis.scope.object? argument = literal,
      analysis'.scope.object? argument' = literal' at literals
    cases literals with
    | none => exact .some rfl
    | some corresponds =>
      refine .some ?_
      simp only [PropType.SameOutline, PropType.outline, outlineFields_eq_map, PropType.shape.injEq]
      exact akin.shapeFields types corresponds.properties

/-- In any number of steps, validators that are akin have types of the same outline. -/
theorem typeWithin? (akin : analysis.Akin analysis' k) (depth : Nat) :
    TypesAkin k (analysis.typeWithin? depth) (analysis'.typeWithin? depth) := by
  -- What decides is akin, and leaves its arguments one step less.
  induction depth with
  | zero => exact fun _ _ _ => .none
  | succ depth ih =>
    intro e e' exprs
    have verdicts := exprs.verdict?
    simp only [Analysis.typeWithin?]
    generalize e.verdict? = verdict, e'.verdict? = verdict' at verdicts
    cases verdicts with
    | none => exact .some rfl
    | some verdicts =>
      cases verdicts with
      | simple kind => exact .some rfl
      | call kind arguments =>
        cases arguments with
        | nil => exact .none
        | cons first _ =>
          cases first with
          | hole => exact .none
          | item argument => exact akin.argumentType? ih kind argument
          | spread _ => exact kind.ofSpread?_rel _ _

/-- Validators that are akin have types of the same outline. -/
theorem type? (akin : analysis.Akin analysis' k) :
    TypesAkin k analysis.type? analysis'.type? := by
  -- Trees and scopes that are akin have as many parts, and so as many steps are left for both.
  intro e e' exprs
  have limits : analysis.nestingLimit e = analysis'.nestingLimit e' := by
    rw [nestingLimit, nestingLimit, exprs.length_parts, akin.scope.length_parts]
  rw [Analysis.type?, Analysis.type?, limits]
  exact akin.typeWithin? _ e e' exprs

end Analysis.Akin

end PropCatalog
