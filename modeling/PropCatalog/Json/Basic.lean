/-! JSON values. Objects keep the order of their members, and every member that repeats a name. -/

namespace PropCatalog

inductive Json where
  | null
  | bool (value : Bool)
  /-- A number as it is written. -/
  | number (text : String)
  | string (value : String)
  | array (items : List Json)
  | object (members : List (String × Json))
  /-- A string, or an object with a name, in which half of a surrogate pair stands alone. -/
  | illFormed

namespace Json

instance : Inhabited Json := ⟨null⟩

/-- A text, or null where there is none. -/
def ofText? : Option String → Json
  | some text => .string text
  | none => .null

/-- A member with a text, or no member where there is none. -/
def textMember? (name : String) : Option String → List (String × Json)
  | some text => [(name, .string text)]
  | none => []

end Json

end PropCatalog
