import PropCatalog.Catalog.Basic
import PropCatalog.Disk.FileTree
import PropCatalog.Record.Facet

/-! The catalog of the source files that a scan has found. -/

namespace PropCatalog

/-- Why a file cannot be documented. -/
inductive FileError where
  | noText
  | noModule (path : String)
  deriving DecidableEq, Repr

/-- The text of an error. -/
def FileError.message : FileError → String
  | noText => "Failed to read file: stream did not contain valid UTF-8"
  | noModule path => "Failed to parse " ++ path

/-- A path as a report shows it: as it lies below the directory of the project, with slashes
only. -/
def reportedPath (base : Path) (text : String) : String :=
  let path := Path.ofText text
  String.ofList (((path.relativeTo? base).getD path).text.toList.map fun c =>
    if c == '\\' then '/' else c)

/-- The records of the file whose path a text spells. -/
def documentFile (disk : Disk) (validatorModules : List String) (path : String) :
    Except FileError (List Record) :=
  match disk.text? (Path.ofText path) with
  | none => .error .noText
  | some source =>
    match document? path source validatorModules with
    | none => .error (.noModule path)
    | some records => .ok records

/-- Whether documenting the file whose path a text spells comes to an end. -/
def fileFinishes (disk : Disk) (validatorModules : List String) (path : String) : Bool :=
  (disk.text? (Path.ofText path)).all fun source => sourceFinishes path source validatorModules

namespace Catalog

/-- Adds what has become of a file. One without components leaves nothing behind. -/
def add (catalog : Catalog) (path : String) : Except FileError (List Record) → Catalog
  | .ok [] => catalog
  | .ok records => { catalog with files := catalog.files ++ [⟨path, records⟩] }
  | .error cause =>
    { catalog with failures := catalog.failures ++ [⟨path, cause.message⟩] }

/-- Whether a failure comes before another one or is the same. -/
def inOrder (a b : Failure) : Bool :=
  a.path < b.path || (a.path == b.path && a.message ≤ b.message)

/-- Puts files and failures into the order of their paths; files with one path stay as they are. -/
def sorted (catalog : Catalog) : Catalog where
  files := catalog.files.mergeSort fun a b => a.path ≤ b.path
  failures := catalog.failures.mergeSort inOrder

/-- The catalog of the files whose paths some texts spell. -/
def ofFiles (disk : Disk) (base : Path) (validatorModules : List String)
    (paths : List String) : Catalog :=
  (paths.foldl
    (fun catalog path =>
      catalog.add (reportedPath base path) (documentFile disk validatorModules path))
    empty).sorted

end Catalog

end PropCatalog
