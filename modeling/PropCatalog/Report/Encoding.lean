import PropCatalog.Catalog.Basic
import PropCatalog.Json.Layout

/-! Records and catalogs as JSON values. What is not known about a component is left out. -/

namespace PropCatalog

namespace EnumMember

def json (member : EnumMember) : Json :=
  .object [("value", .string member.text), ("computed", .bool member.computed)]

end EnumMember

namespace PropType

/-- The name under which a type is encoded. -/
def tag : PropType → String
  | .simple kind => kind.name
  | .enum _ | .enumText _ => "enum"
  | .union _ | .unionText _ => "union"
  | .arrayOf _ => "arrayOf"
  | .objectOf _ => "objectOf"
  | .instanceOf _ => "instanceOf"
  | .shape _ | .shapeText _ => "shape"
  | .custom _ => "custom"

mutual

/-- The members of an object that encodes a type: its tag and what it is made of. -/
def members (type : PropType) : List (String × Json) :=
  ("name", .string type.tag) ::
    match type with
    | .simple _ => []
    | .enum members => [("value", .array (members.map EnumMember.json))]
    | .union members => [("value", .array (jsonItems members))]
    | .arrayOf item | .objectOf item => [("value", .object item.members)]
    | .shape fields => [("value", .object (fieldMembers fields))]
    | .enumText text | .unionText text | .instanceOf text | .shapeText text =>
      [("value", .string text)]
    | .custom text => [("raw", .string text)]

/-- Each of several types as an object. -/
def jsonItems : List PropType → List Json
  | [] => []
  | type :: rest => .object type.members :: jsonItems rest

/-- Each field of a shape as an object that holds its type, under the name of the field. -/
def fieldMembers : List ShapeField → List (String × Json)
  | [] => []
  | .mk name type required description :: rest =>
    (name, .object (type.members ++ ("required", .bool required) ::
      Json.textMember? "description" description)) :: fieldMembers rest

end

def json (type : PropType) : Json :=
  .object type.members

end PropType

namespace PropEntry

def json (entry : PropEntry) : Json :=
  .object ((match entry.type with
    | some type => [("type", type.json)]
    | none => []) ++
    ("required", .bool entry.required) :: Json.textMember? "description" entry.description)

end PropEntry

namespace Record

/-- A record as an object. Props are left out when there are none. -/
def json (record : Record) : Json :=
  .object (Json.textMember? "displayName" record.displayName ++
    Json.textMember? "description" record.description ++
    if record.props.isEmpty then []
    else [("props", .object (record.props.toList.map fun (name, entry) => (name, entry.json)))])

end Record

namespace Catalog

/-- The records of the files by their paths. Of two files with one path the later counts, in the
place of the earlier. -/
def json (catalog : Catalog) : Json :=
  .object (OrderedMap.ofList (catalog.files.map fun file =>
    (file.path, Json.array (file.records.map Record.json)))).toList

/-- The report as JSON. -/
def jsonText (catalog : Catalog) : String :=
  catalog.json.pretty ++ "\n"

end Catalog

end PropCatalog
