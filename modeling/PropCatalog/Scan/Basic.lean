import PropCatalog.Glob.Search
import PropCatalog.Scan.Walk
import PropCatalog.Settings.Basic

/-! Scans of a project for its source files. -/

namespace PropCatalog

/-- What a scan passes over. -/
inductive ScanWarning where
  | invalidIgnore (entry : String) (cause : Glob.PatternError)
  | missingInclude (path : Path)
  | invalidInclude (entry : String) (cause : Glob.PatternError)
  | inaccessible (path : Path) (cause : AccessError)
  deriving DecidableEq, Repr

namespace ScanWarning

/-- The text of a warning. -/
def message : ScanWarning → String
  | invalidIgnore entry cause =>
    "Invalid ignore pattern '" ++ entry ++ "': " ++ cause.message
  | missingInclude path => "Include path does not exist: " ++ path.text
  | invalidInclude entry cause => "Invalid glob pattern '" ++ entry ++ "': " ++ cause.message
  | inaccessible path cause =>
    "Cannot access path: IO error for operation on " ++ path.text ++ ": " ++ cause.message

/-- Whether a warning is about a path that could not be walked. -/
def isInaccessible : ScanWarning → Bool
  | inaccessible _ _ => true
  | _ => false

end ScanWarning

/-- The texts of source files in their order, each of them once, and the warnings of the scan. -/
structure Scan where
  files : List String
  warnings : List ScanWarning

namespace Scan

/-- The number of paths that could not be walked. -/
def skipped (scan : Scan) : Nat :=
  scan.warnings.countP ScanWarning.isInaccessible

/-- The paths that an entry of the includes leads to from a base, and what it warns about. -/
def rootsOf (disk : Disk) (base : Path) (entry : String) : List Path × List ScanWarning :=
  let path := base.join (Path.ofText entry)
  if Glob.isPattern entry then
    match Glob.directories disk path.text with
    | .ok paths => (paths, [])
    | .error cause => ([], [.invalidInclude entry cause])
  else if disk.contains path then ([path], [])
  else ([], [.missingInclude path])

/-- The paths to look below, and what finding them warns about. -/
def roots (disk : Disk) (base : Path) (includes : List String) :
    List Path × List ScanWarning :=
  if includes.isEmpty then ([base], [])
  else
    let found := includes.map (rootsOf disk base)
    (found.flatMap Prod.fst, found.flatMap Prod.snd)

/-- The source files below a path, or a warning when nothing is there. -/
def walk (disk : Disk) (ignored : IgnoreSet) (path : Path) : List Path × List ScanWarning :=
  match disk.find path with
  | .ok tree => (tree.sources ignored path, [])
  | .error cause => ([], [.inaccessible path cause])

/-- Texts in ascending order, each of them once. -/
def sorted (texts : List String) : List String :=
  (texts.mergeSort fun a b => a ≤ b).eraseReps

/-- Scans a project whose directory is given. -/
def ofProject (disk : Disk) (base : Path) (settings : Settings) : Scan :=
  let ignored := IgnoreSet.ofEntries base settings.ignores settings.ignoreTestFiles
  let faults := (IgnoreSet.faults settings.ignores).map fun (entry, cause) =>
    ScanWarning.invalidIgnore entry cause
  let (roots, warnings) := roots disk base settings.includes
  let walks := roots.map (walk disk ignored)
  { files := sorted ((walks.flatMap Prod.fst).map Path.text)
    warnings := faults ++ warnings ++ walks.flatMap Prod.snd }

end Scan

end PropCatalog
