import PropCatalog.Disk.FileTree
import PropCatalog.Glob.Pattern
import PropCatalog.Settings.Reading
import PropCatalog.Text.Blank

/-! The settings that hold for a directory: those of the nearest file above it, up to the root of
its repository. -/

namespace PropCatalog

/-- Why settings cannot be used. -/
inductive SettingsError where
  | unreadable (path : Path)
  | malformed (path : Path)
  /-- An entry of a list that is no pattern. -/
  | invalidPattern (list pattern : String) (cause : Glob.PatternError)
  | blankModule (name : String)
  deriving DecidableEq, Repr

namespace SettingsError

/-- The text of an error, without what caused it. -/
def message : SettingsError → String
  | unreadable path => "Failed to read config file: " ++ path.text
  | malformed path => "Failed to parse config file: " ++ path.text
  | invalidPattern list pattern _ =>
    "Invalid glob pattern in '" ++ list ++ "': \"" ++ pattern ++ "\""
  | blankModule name => "Invalid module name in 'validatorModules': \"" ++ name ++ "\""

/-- The text of an error, followed by that of its cause. -/
def fullMessage (error : SettingsError) : String :=
  match error with
  | invalidPattern _ _ cause => error.message ++ ": " ++ cause.message
  | _ => error.message

end SettingsError

namespace Settings

/-- Checks that the entries of a list are patterns. -/
def checkPatterns (list : String) (patterns : List String) : Except SettingsError Unit :=
  patterns.forM fun pattern =>
    match Glob.Pattern.ofText pattern with
    | .ok _ => .ok ()
    | .error cause => .error (.invalidPattern list pattern cause)

/-- Checks the patterns and then the names of modules, in the order in which they stand. Includes
without wildcards are plain paths. -/
def check (settings : Settings) : Except SettingsError Unit := do
  checkPatterns "ignores" settings.ignores
  checkPatterns "includes" (settings.includes.filter Glob.isPattern)
  match settings.validatorModules.find? fun name => (Text.trim name.toList).isEmpty with
  | some name => .error (.blankModule name)
  | none => .ok ()

/-- A path with all paths that come from it by taking the last component away, the longest first;
a number of steps is enough for all of them. -/
def ancestorsWithin : Nat → Path → List Path
  | 0, path => [path]
  | steps + 1, path =>
    match path.parent? with
    | some parent => path :: ancestorsWithin steps parent
    | none => [path]

/-- A path with all paths that come from it by taking the last component away. -/
def ancestors (path : Path) : List Path :=
  ancestorsWithin (path.segments.length + 1) path

/-- The first settings file of some directories, unless the root of a repository comes before it. -/
def firstFile? (disk : Disk) : List Path → Option Path
  | [] => none
  | path :: rest =>
    if disk.contains (path.entry fileName) then some (path.entry fileName)
    else if disk.contains (path.entry ".git") then none
    else firstFile? disk rest

/-- The settings file that holds for a directory. -/
def file? (disk : Disk) (start : Path) : Option Path :=
  firstFile? disk (ancestors start)

/-- The settings in a file. -/
def ofFile (disk : Disk) (path : Path) : Except SettingsError Settings :=
  match disk.text? path with
  | none => .error (.unreadable path)
  | some text =>
    match read? text with
    | none => .error (.malformed path)
    | some settings => do
      settings.check
      return settings

/-- The settings that hold for a directory, with the file they come from. -/
def load (disk : Disk) (start : Path) : Except SettingsError (Settings × Option Path) :=
  match file? disk start with
  | some path => (ofFile disk path).map fun settings => (settings, some path)
  | none => .ok (standard, none)

end Settings

end PropCatalog
