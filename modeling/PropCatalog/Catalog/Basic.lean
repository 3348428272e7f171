import PropCatalog.Record.Basic

/-! The records of a project, file by file, and the files that could not be documented. -/

namespace PropCatalog

/-- The records of the components in a file. -/
structure FileRecords where
  path : String
  records : List Record

/-- A file that could not be documented, and why. -/
structure Failure where
  path : String
  message : String
  deriving DecidableEq, Repr

structure Catalog where
  files : List FileRecords
  failures : List Failure

namespace Catalog

def empty : Catalog := ⟨[], []⟩

/-- The number of components in all files. -/
def componentCount (catalog : Catalog) : Nat :=
  catalog.files.foldl (fun count file => count + file.records.length) 0

end Catalog

end PropCatalog
