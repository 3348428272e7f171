import PropCatalog.Proofs.Json.Reading
import PropCatalog.Proofs.OrderedMap
import PropCatalog.Report.Encoding
import PropCatalog.Settings.Reading

/-! What a catalog that was written as JSON says, found by the names of the members. -/

namespace PropCatalog

namespace Json

variable {α : Type}

/-- What a member must hold. -/
def needed? (read : Json → Option α) (name : String) (members : List (String × Json)) : Option α :=
  (members.lookup name).bind read

/-- What a member holds, if it is there. -/
def allowed? (read : Json → Option α) (name : String) (members : List (String × Json)) :
    Option (Option α) :=
  match members.lookup name with
  | none => some none
  | some value => (read value).map some

end Json

open Json (text? bool? needed? allowed?)

/-! ## The decoder -/

def EnumMember.ofJson? : Json → Option EnumMember
  | .object members => do
    let text ← needed? text? "value" members
    let computed ← needed? bool? "computed" members
    return ⟨text, computed⟩
  | _ => none

namespace PropType

/-- The name of the member that holds what a type with a tag is made of. -/
def contentName (tag : String) : String :=
  if tag = "custom" then "raw" else "value"

/-- The type with a tag of which a text is known. -/
def ofText? (tag text : String) : Option PropType :=
  match tag with
  | "enum" => some (.enumText text)
  | "union" => some (.unionText text)
  | "instanceOf" => some (.instanceOf text)
  | "shape" => some (.shapeText text)
  | "custom" => some (.custom text)
  | _ => none

mutual

/-- The type that an object encodes. Members that belong to no type are passed over. -/
def ofJson? : Json → Option PropType
  | .object members => (needed? text? "name" members).bind fun tag => ofTagged? tag members
  | _ => none

/-- The type with a tag among the members of an object. -/
def ofTagged? (tag : String) : List (String × Json) → Option PropType
  | [] => (SimpleKind.ofName? tag).map .simple
  | (name, content) :: rest =>
    if name = contentName tag then
      match tag, content with
      | tag, .string text => ofText? tag text
      | "enum", .array members => (members.mapM EnumMember.ofJson?).map .enum
      | "union", .array members => (ofItems? members).map .union
      | "shape", .object fields => (ofFields? fields).map .shape
      | "arrayOf", item => (ofJson? item).map .arrayOf
      | "objectOf", item => (ofJson? item).map .objectOf
      | _, _ => none
    else ofTagged? tag rest

/-- The types that the items of an array encode. -/
def ofItems? : List Json → Option (List PropType)
  | [] => some []
  | item :: rest => do
    let type ← ofJson? item
    let others ← ofItems? rest
    return type :: others

/-- The fields that the members of an object encode. -/
def ofFields? : List (String × Json) → Option (List ShapeField)
  | [] => some []
  | (name, field) :: rest => do
    let type ← ofJson? field
    let .object members := field | none
    let required ← needed? bool? "required" members
    let description ← allowed? text? "description" members
    let others ← ofFields? rest
    return .mk name type required description :: others

end

end PropType

def PropEntry.ofJson? : Json → Option PropEntry
  | .object members => do
    let type ← allowed? PropType.ofJson? "type" members
    let required ← needed? bool? "required" members
    let description ← allowed? text? "description" members
    return ⟨type, required, description⟩
  | _ => none

namespace Record

/-- The props that an object encodes. -/
def propsOfJson? : Json → Option (OrderedMap PropEntry)
  | .object members => do
    let entries ← members.mapM fun (name, entry) => (PropEntry.ofJson? entry).map (name, ·)
    return .ofList entries
  | _ => none

def ofJson? : Json → Option Record
  | .object members => do
    let displayName ← allowed? text? "displayName" members
    let description ← allowed? text? "description" members
    let props ← allowed? propsOfJson? "props" members
    return ⟨displayName, description, props.getD .empty⟩
  | _ => none

end Record

namespace FileRecords

/-- The records of one file, which stand under its path. -/
def ofMember? : String × Json → Option FileRecords
  | (path, .array records) => (records.mapM Record.ofJson?).map (⟨path, ·⟩)
  | _ => none

end FileRecords

/-- The files that an object encodes. -/
def Catalog.filesOfJson? : Json → Option (List FileRecords)
  | .object members => members.mapM FileRecords.ofMember?
  | _ => none

/-! ## What is decoded is what was encoded -/

theorem EnumMember.ofJson?_json (member : EnumMember) : ofJson? member.json = some member :=
  rfl

/-- What is known of a field or of a prop besides its type. -/
def facets (required : Bool) (description : Option String) : List (String × Json) :=
  ("required", .bool required) :: Json.textMember? "description" description

/-- What is known besides a type has a name of its own. -/
theorem lookup_facets {name : String} (required : Bool) (description : Option String)
    (other : name ≠ "required" ∧ name ≠ "description") :
    (facets required description).lookup name = none := by
  -- There are two names to go past.
  have different := And.intro (beq_eq_false_iff_ne.2 other.1) (beq_eq_false_iff_ne.2 other.2)
  cases description <;> simp [facets, Json.textMember?, List.lookup_cons, different]

namespace PropType

/-- Behind its tag, a type is found among the rest of the members. -/
theorem ofJson?_named (tag : String) (rest : List (String × Json)) :
    ofJson? (.object (("name", .string tag) :: rest)) = ofTagged? tag rest := by
  -- The content of a type is never under the name of its tag.
  have other : "name" ≠ contentName tag := by
    unfold contentName
    split <;> decide
  simp [ofJson?, needed?, text?, ofTagged?, other]

/-- Where there is no content, the tag is the name of a kind. -/
theorem ofTagged?_of_lookup {tag : String} {members : List (String × Json)}
    (free : members.lookup (contentName tag) = none) :
    ofTagged? tag members = (SimpleKind.ofName? tag).map .simple := by
  -- The content is looked for member by member, and the end decides.
  induction members with
  | nil => rfl
  | cons member rest ih =>
    rcases member with ⟨name, content⟩
    by_cases same : name = contentName tag
    · simp [same] at free
    · rw [List.lookup_cons, beq_eq_false_iff_ne.2 (Ne.symm same)] at free
      rw [ofTagged?.eq_def]
      exact (if_neg same).trans (ih free)

/-- The members that encode a type bear no other names. -/
theorem lookup_members {name : String} (type : PropType)
    (other : name ≠ "name" ∧ name ≠ "value" ∧ name ≠ "raw") (others : List (String × Json)) :
    (type.members ++ others).lookup name = others.lookup name := by
  -- There are three names to go past, of which a type has two at most.
  have different := And.intro (beq_eq_false_iff_ne.2 other.1)
    (And.intro (beq_eq_false_iff_ne.2 other.2.1) (beq_eq_false_iff_ne.2 other.2.2))
  cases type <;> simp [PropType.members, List.lookup_cons, different]

mutual

/-- A type is decoded from its members, whatever other members stand after them. -/
theorem ofJson?_members : ∀ (type : PropType) (others : List (String × Json)),
    others.lookup "value" = none → ofJson? (.object (type.members ++ others)) = some type
  | .simple kind, others, free => by
    have content : contentName kind.name = "value" := by cases kind <;> decide
    simp [PropType.members, tag, ofJson?_named, ofTagged?_of_lookup (content ▸ free),
      SimpleKind.ofName?_name]
  | .enum members, others, _ => by
    have each := mapM_map_of_inverse EnumMember.ofJson?_json members
    simp [PropType.members, tag, ofJson?_named, ofTagged?, contentName, each]
  | .union members, others, _ => by
    have each := ofItems?_jsonItems members
    simp [PropType.members, tag, ofJson?_named, ofTagged?, contentName, each]
  | .arrayOf item, others, _ => by
    have inner := ofJson?_members item [] rfl
    rw [List.append_nil] at inner
    simp [PropType.members, tag, ofJson?_named, ofTagged?, contentName, inner]
  | .objectOf item, others, _ => by
    have inner := ofJson?_members item [] rfl
    rw [List.append_nil] at inner
    simp [PropType.members, tag, ofJson?_named, ofTagged?, contentName, inner]
  | .shape fields, others, _ => by
    have each := ofFields?_fieldMembers fields
    simp [PropType.members, tag, ofJson?_named, ofTagged?, contentName, each]
  | .enumText text, others, _ | .unionText text, others, _ | .instanceOf text, others, _
  | .shapeText text, others, _ | .custom text, others, _ => by
    simp [PropType.members, tag, ofJson?_named, ofTagged?, contentName, ofText?]

theorem ofItems?_jsonItems : ∀ types : List PropType, ofItems? (jsonItems types) = some types
  | [] => rfl
  | type :: rest => by
    have first := ofJson?_members type [] rfl
    rw [List.append_nil] at first
    simp [jsonItems, ofItems?, first, ofItems?_jsonItems rest]

theorem ofFields?_fieldMembers : ∀ fields : List ShapeField,
    ofFields? (fieldMembers fields) = some fields
  | [] => rfl
  | .mk name type required description :: rest => by
    -- A field has the members of its type and two more, which are looked up behind those.
    have first := ofJson?_members type (facets required description)
      (lookup_facets required description (by decide))
    have known : needed? bool? "required" (type.members ++ facets required description) =
        some required := by
      rw [needed?, lookup_members type (by decide)]
      rfl
    have told : allowed? text? "description" (type.members ++ facets required description) =
        some description := by
      rw [allowed?, lookup_members type (by decide)]
      cases description <;> rfl
    simp only [facets] at first known told
    simp [fieldMembers, ofFields?, first, known, told, ofFields?_fieldMembers rest]

end

theorem ofJson?_json (type : PropType) : ofJson? type.json = some type := by
  simpa [PropType.json] using ofJson?_members type [] rfl

end PropType

theorem PropEntry.ofJson?_json (entry : PropEntry) : ofJson? entry.json = some entry := by
  -- Each member is there or left out, and it is looked up under its own name.
  rcases entry with ⟨_ | type, required, _ | description⟩ <;>
    simp [PropEntry.json, PropEntry.ofJson?, allowed?, needed?, Json.textMember?, text?, bool?,
      List.lookup_cons, PropType.ofJson?_json]

namespace Record

/-- Props are decoded in their order, since no name comes twice. -/
theorem propsOfJson?_toList (props : OrderedMap PropEntry) :
    propsOfJson? (.object (props.toList.map fun (name, entry) => (name, entry.json))) =
      some props := by
  -- Each entry is decoded by itself.
  have each := mapM_map_of_inverse (f := fun prop : String × PropEntry => (prop.1, prop.2.json))
    (g := fun member => (PropEntry.ofJson? member.2).map (member.1, ·))
    (fun prop => by simp [PropEntry.ofJson?_json]) props.toList
  simp [propsOfJson?, each, OrderedMap.ofList_toList]

theorem ofJson?_json (record : Record) : ofJson? record.json = some record := by
  -- The name and the description are members or left out, and so are the props.
  rcases record with ⟨displayName, description, props⟩
  cases none : props.isEmpty with
  | true =>
    -- A record without props has no member for them.
    have empty : props = .empty := OrderedMap.ext (List.isEmpty_iff.1 none)
    subst empty
    cases displayName <;> cases description <;>
      simp [Record.json, Record.ofJson?, allowed?, Json.textMember?, text?, List.lookup_cons, none]
  | false =>
    have read := propsOfJson?_toList props
    cases displayName <;> cases description <;>
      simp [Record.json, Record.ofJson?, allowed?, Json.textMember?, text?, List.lookup_cons, none,
        read]

end Record

namespace FileRecords

/-- A file as a member of the object that encodes a catalog. -/
def member (file : FileRecords) : String × Json :=
  (file.path, .array (file.records.map Record.json))

theorem ofMember?_member (file : FileRecords) : ofMember? file.member = some file := by
  -- Each record is decoded by itself.
  have each := mapM_map_of_inverse Record.ofJson?_json file.records
  simp [member, ofMember?, each]

end FileRecords

end PropCatalog
