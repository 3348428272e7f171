import PropCatalog.Json.Reading
import PropCatalog.Settings.Basic

/-! Settings read from the text of their file. What the file does not say is as in the standard
settings. -/

namespace PropCatalog

namespace Json

def text? : Json → Option String
  | .string value => some value
  | _ => none

def bool? : Json → Option Bool
  | .bool value => some value
  | _ => none

/-- The texts of an array of strings. -/
def texts? : Json → Option (List String)
  | .array items => items.mapM text?
  | _ => none

end Json

namespace Settings

/-- The names of the settings, in the order in which an array holds them. -/
def fieldNames : List String :=
  ["includes", "ignores", "ignoreTestFiles", "validatorModules"]

/-- The value of a setting, or the standard one when it is not among the members. -/
def fieldOr? {α : Type} (members : List (String × Json)) (name : String) (standard : α)
    (read? : Json → Option α) : Option α :=
  match members.lookup name with
  | some value => read? value
  | none => some standard

/-- Whether no setting is among the members twice. -/
def hasNoRepeats (members : List (String × Json)) : Bool :=
  fieldNames.all fun name => (members.filter fun member => member.1 == name).length ≤ 1

/-- The settings that the members of an object say; members with other names are passed over. -/
def ofMembers? (members : List (String × Json)) : Option Settings :=
  if hasNoRepeats members then do
    let includes ← fieldOr? members "includes" standard.includes Json.texts?
    let ignores ← fieldOr? members "ignores" standard.ignores Json.texts?
    let ignoreTestFiles ←
      fieldOr? members "ignoreTestFiles" standard.ignoreTestFiles Json.bool?
    let validatorModules ←
      fieldOr? members "validatorModules" standard.validatorModules Json.texts?
    return { includes, ignores, ignoreTestFiles, validatorModules }
  else none

/-- The settings that a value says: an object, or an array with the settings in their order. -/
def ofJson? : Json → Option Settings
  | .object members => ofMembers? members
  | .array items =>
    if items.length ≤ fieldNames.length then ofMembers? (fieldNames.zip items) else none
  | _ => none

/-- The settings that a text says. -/
def read? (text : String) : Option Settings :=
  (Json.read? text).bind ofJson?

end Settings

end PropCatalog
