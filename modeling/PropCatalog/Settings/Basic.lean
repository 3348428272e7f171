import PropCatalog.Json.Layout

/-! The settings of a project, and their encoding. -/

namespace PropCatalog

/-- What a project says about which files are documented, and how. -/
structure Settings where
  /-- The paths and patterns to look below; the whole project if there are none. -/
  includes : List String
  /-- The paths and patterns to leave out. -/
  ignores : List String
  /-- Whether files with tests are left out too. -/
  ignoreTestFiles : Bool
  /-- Further modules whose exports are validators. -/
  validatorModules : List String
  deriving DecidableEq, Repr

namespace Settings

/-- The settings of a project that says nothing. -/
def standard : Settings where
  includes := []
  ignores := ["**/node_modules/**"]
  ignoreTestFiles := true
  validatorModules := []

instance : Inhabited Settings := ⟨standard⟩

/-- The name of the file that holds the settings of a project. -/
def fileName : String := ".propdocrc.json"

/-- Settings as an object. -/
def json (settings : Settings) : Json :=
  .object
    [ ("includes", .array (settings.includes.map .string)),
      ("ignores", .array (settings.ignores.map .string)),
      ("ignoreTestFiles", .bool settings.ignoreTestFiles),
      ("validatorModules", .array (settings.validatorModules.map .string)) ]

/-- The text of a file with these settings. -/
def fileText (settings : Settings) : String :=
  settings.json.pretty ++ "\n"

end Settings

end PropCatalog
