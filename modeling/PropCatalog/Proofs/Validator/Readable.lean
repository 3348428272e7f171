import PropCatalog.Proofs.Related
import PropCatalog.Proofs.Validator.Nesting

/-! The types that validators can describe: how they are put together, and which texts of the source
stand in them. -/

namespace PropCatalog

open Syntax

namespace Analysis

variable (analysis : Analysis)

/-- Whether a text is a piece of the source as it is quoted, such a piece behind the dots of a
spread, or the name that a key spells. -/
inductive Given : String → Prop where
  | quote (e : Expr) : Given (analysis.quote e)
  | spread (e : Expr) : Given ("..." ++ analysis.quote e)
  | key {key : Key} {name : String} (known : analysis.scope.keyName? key = some name) : Given name

/-- Whether some property of a literal can describe a field, given its type: a key spells its name,
and a validator says whether it is required, which counts beside a type that is known only. -/
def Describes (field : ShapeField) : Prop :=
  ∃ (key : Key) (value : Expr), analysis.scope.keyName? key = some field.name ∧
    field.required = (! field.type.isCustom && value.isRequired)

/-- Whether validators of a source file can describe a type. -/
inductive Readable : PropType → Prop where
  | simple (kind : SimpleKind) : Readable (.simple kind)
  | enum (elements : List Expr) : Readable (.enum (elements.map analysis.enumMember))
  | union {types : List PropType} (members : ∀ type ∈ types, Readable type) :
      Readable (.union types)
  | arrayOf {type : PropType} (item : Readable type) : Readable (.arrayOf type)
  | objectOf {type : PropType} (item : Readable type) : Readable (.objectOf type)
  | shape {fields : List ShapeField} (described : ∀ field ∈ fields, analysis.Describes field)
      (types : ∀ field ∈ fields, Readable field.type) : Readable (.shape fields)
  -- A text stands for what is not known.
  | enumText {text : String} (given : analysis.Given text) : Readable (.enumText text)
  | unionText {text : String} (given : analysis.Given text) : Readable (.unionText text)
  | instanceOf {text : String} (given : analysis.Given text) : Readable (.instanceOf text)
  | shapeText {text : String} (given : analysis.Given text) : Readable (.shapeText text)
  | custom {text : String} (given : analysis.Given text) : Readable (.custom text)

variable {analysis} {type? : Expr → Option PropType} {e : Expr} {type : PropType}

/-- Putting in a field adds no other one. -/
theorem mem_insert_field {field other : ShapeField} {known : List ShapeField}
    (member : field ∈ other.insert known) : field = other ∨ field ∈ known := by
  -- The field takes the place of one with its name or comes last.
  induction known with
  | nil => simpa [ShapeField.insert] using member
  | cons first rest ih =>
    unfold ShapeField.insert at member
    split at member
    · exact (List.mem_cons.1 member).imp_right (List.mem_cons_of_mem _)
    · rcases List.mem_cons.1 member with here | later
      · exact .inr (here ▸ List.mem_cons_self)
      · exact (ih later).imp_right (List.mem_cons_of_mem _)

/-- A field of a shape is what one of the properties describes. -/
theorem exists_of_mem_shapeFields {field : ShapeField} {properties : List Property}
    (member : field ∈ analysis.shapeFields type? properties) :
    ∃ property ∈ properties, analysis.shapeField? type? property = some field := by
  -- A field is put in when it comes, and what is put in before stays or is replaced.
  have among : ∀ fields known : List ShapeField,
      field ∈ fields.foldl (fun fields field => field.insert fields) known →
        field ∈ fields ∨ field ∈ known := by
    intro fields
    induction fields with
    | nil => exact fun known => .inr
    | cons first rest ih =>
      intro known member
      rcases ih _ member with later | here
      · exact .inl (List.mem_cons_of_mem _ later)
      · exact (mem_insert_field here).imp_left fun same => List.mem_cons.2 (.inl same)
  -- There is no field before the first one is put in.
  rcases among _ _ member with described | none
  · exact List.mem_filterMap.1 described
  · simp at none

/-- A property of a shape describes a field with a type that is read inside of it. -/
theorem describes_of_shapeField? {property : Property} {field : ShapeField}
    (found : analysis.shapeField? type? property = some field) :
    analysis.Describes field ∧ ∃ value, type? value = some field.type := by
  -- Only a pair with a name describes a field.
  cases property with
  | pair start key value =>
    simp only [shapeField?, Option.bind_eq_some_iff, Option.map_eq_some_iff] at found
    obtain ⟨name, known, type, read, rfl⟩ := found
    exact ⟨⟨key, value, known, rfl⟩, value, read⟩
  | _ => simp [shapeField?] at found

/-- The text of a spread stands for the argument of a call. -/
theorem readable_of_ofSpread? {kind : CallKind} {text : String} (given : analysis.Given text)
    (found : kind.ofSpread? text = some type) : analysis.Readable type := by
  -- Each kind of calls that takes a text makes a type of it.
  cases kind with
  | arrayOf | objectOf => simp [CallKind.ofSpread?] at found
  | oneOf => exact Option.some.inj found ▸ .enumText given
  | oneOfType => exact Option.some.inj found ▸ .unionText given
  | instanceOf => exact Option.some.inj found ▸ .instanceOf given
  | shape => exact Option.some.inj found ▸ .shapeText given

/-- An argument decides a type that validators can describe when those inside of it do. -/
theorem readable_of_argumentType? (inner : ∀ e type, type? e = some type → analysis.Readable type)
    {kind : CallKind} {argument : Expr}
    (found : analysis.argumentType? type? kind argument = some type) :
    analysis.Readable type := by
  -- Where the argument cannot be looked into, its text stands for it.
  have given : analysis.Given (analysis.quote argument) := .quote argument
  cases kind with
  | oneOf =>
    simp only [argumentType?] at found
    split at found
    · exact Option.some.inj found ▸ .enum _
    · exact Option.some.inj found ▸ .enumText given
  | oneOfType =>
    simp only [argumentType?] at found
    split at found
    · rename_i types listed
      obtain ⟨elements, _, read⟩ := Option.bind_eq_some_iff.1 listed
      refine Option.some.inj found ▸ .union fun type member => ?_
      obtain ⟨element, -, known⟩ := exists_mem_of_forall₂ (mapM_eq_some_iff.1 read).flip member
      exact inner element type known
    · exact Option.some.inj found ▸ .unionText given
  | instanceOf => exact Option.some.inj found ▸ .instanceOf given
  | arrayOf =>
    obtain ⟨item, read, rfl⟩ := Option.map_eq_some_iff.1 found
    exact .arrayOf (inner argument item read)
  | objectOf =>
    obtain ⟨item, read, rfl⟩ := Option.map_eq_some_iff.1 found
    exact .objectOf (inner argument item read)
  | shape =>
    simp only [argumentType?] at found
    split at found
    · refine Option.some.inj found ▸ .shape (fun field member => ?_) fun field member => ?_
      · obtain ⟨property, _, described⟩ := exists_of_mem_shapeFields member
        exact (describes_of_shapeField? described).1
      · obtain ⟨property, _, described⟩ := exists_of_mem_shapeFields member
        obtain ⟨value, read⟩ := (describes_of_shapeField? described).2
        exact inner value field.type read
    · exact Option.some.inj found ▸ .shapeText given

/-- One step of reading gives a type that validators can describe when the steps inside do. -/
theorem readable_of_typeStep? (inner : ∀ e type, type? e = some type → analysis.Readable type)
    (found : analysis.typeStep? type? e = some type) : analysis.Readable type := by
  -- A step is simple, a call or custom.
  unfold typeStep? at found
  split at found
  · exact Option.some.inj found ▸ .simple _
  · unfold callType? at found
    split at found
    · exact readable_of_argumentType? inner found
    · exact readable_of_ofSpread? (.spread _) found
    · simp at found
  · exact Option.some.inj found ▸ .custom (.quote e)

/-- The type that an expression describes is one that validators can describe. -/
theorem readable_of_type? (found : analysis.type? e = some type) : analysis.Readable type := by
  -- Whatever the limit on nesting is, every step is made of steps below it.
  have within : ∀ depth e type, analysis.typeWithin? depth e = some type →
      analysis.Readable type := by
    intro depth
    induction depth with
    | zero =>
      intro e type found
      simp [typeWithin?] at found
    | succ depth ih =>
      intro e type found
      rw [typeWithin?_succ] at found
      exact readable_of_typeStep? ih found
  exact within _ _ _ found

end Analysis

end PropCatalog
