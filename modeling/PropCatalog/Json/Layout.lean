import PropCatalog.Json.Basic
import PropCatalog.Json.Quoted

/-! JSON values written with every item and member on a line of its own. -/

namespace PropCatalog.Json

/-- A line end and the indentation of a level, two spaces for each level. -/
def newLine (level : Nat) : List Char :=
  '\n' :: List.replicate (2 * level) ' '

mutual

/-- A value whose first line is indented already; containers that are empty stay on that line. -/
def layout (level : Nat) : Json → List Char
  | .null => "null".toList
  | .bool value => (if value then "true" else "false").toList
  | .number text => text.toList
  | .string value => quoted value.toList
  | .array [] => ['[', ']']
  | .array (item :: rest) =>
    '[' :: newLine (level + 1) ++ layout (level + 1) item ++ layoutItems level rest
  | .object [] => ['\x7b', '\x7d']
  | .object (member :: rest) =>
    '\x7b' :: newLine (level + 1) ++ layoutMember level member ++ layoutMembers level rest
  | .illFormed => quoted ['\uFFFD']

/-- The items after the first one, and the closing bracket. -/
def layoutItems (level : Nat) : List Json → List Char
  | [] => newLine level ++ [']']
  | item :: rest =>
    ',' :: newLine (level + 1) ++ layout (level + 1) item ++ layoutItems level rest

/-- A member of an object at this level. -/
def layoutMember (level : Nat) : String × Json → List Char
  | (name, value) => quoted name.toList ++ ':' :: ' ' :: layout (level + 1) value

/-- The members after the first one, and the closing brace. -/
def layoutMembers (level : Nat) : List (String × Json) → List Char
  | [] => newLine level ++ ['\x7d']
  | member :: rest =>
    ',' :: newLine (level + 1) ++ layoutMember level member ++ layoutMembers level rest

end

/-- The text of a value. -/
def pretty (value : Json) : String :=
  String.ofList (layout 0 value)

end PropCatalog.Json
