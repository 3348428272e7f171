import PropCatalog.Catalog.Basic
import PropCatalog.Report.Style
import PropCatalog.Text.Lines

/-! The report of a catalog as text, line by line. -/

namespace PropCatalog

/-- The text of some lines, each with its end. -/
def unlines (lines : List String) : String :=
  String.join (lines.map (· ++ "\n"))

/-- A number with the word for one or for several of a thing. -/
def counted (count : Nat) (one several : String) : String :=
  toString count ++ " " ++ if count = 1 then one else several

/-- The lines of a text behind an indentation; empty lines stay empty. -/
def indentedLines (indent text : String) : List String :=
  (Text.splitLines text.toList).map fun line =>
    if line.isEmpty then "" else indent ++ String.ofList line

/-- The lines of a description, if there is one. -/
def descriptionLines (indent : String) : Option String → List String
  | some text => indentedLines indent text
  | none => []

/-- The line that shows that something has been done. -/
def successLine (color : Bool) (message : String) : String :=
  Style.green.paint color "✓" ++ " " ++ Style.green.paint color message

/-- The line of a prop. -/
def PropEntry.line (color : Bool) (name : String) (entry : PropEntry) : String :=
  let type := (entry.type.map PropType.display).getD "unknown"
  "    " ++ Style.bold.paint color name ++ ": " ++ Style.green.paint color type ++
    if entry.required then " " ++ Style.red.paint color "(required)" else ""

/-- The lines of a prop: its own and those of its description. -/
def PropEntry.lines (color : Bool) (name : String) (entry : PropEntry) : List String :=
  entry.line color name :: descriptionLines "      " entry.description

/-- The lines of a component: its title, its description and its props. -/
def Record.lines (color : Bool) (record : Record) : List String :=
  ("  " ++ Style.boldCyan.paint color record.title) ::
    (descriptionLines "    " record.description ++
      record.props.toList.flatMap fun (name, entry) => entry.lines color name)

/-- The lines of a file: its path, its components and an empty one. -/
def FileRecords.lines (color : Bool) (file : FileRecords) : List String :=
  Style.bold.paint color file.path :: (file.records.flatMap (Record.lines color) ++ [""])

namespace Catalog

/-- What a catalog holds, in a few words. -/
def summary (catalog : Catalog) (scanned : Nat) : String :=
  if catalog.componentCount = 0 then
    "No components found in " ++ counted scanned "source file" "source files"
  else
    "Documented " ++ counted catalog.componentCount "component" "components" ++ " in " ++
      counted catalog.files.length "file" "files"

/-- The lines of a report on a number of scanned files. -/
def lines (color : Bool) (catalog : Catalog) (scanned : Nat) : List String :=
  catalog.files.flatMap (FileRecords.lines color) ++
    [successLine color (catalog.summary scanned)]

/-- The report as text. -/
def text (color : Bool) (catalog : Catalog) (scanned : Nat) : String :=
  unlines (catalog.lines color scanned)

end Catalog

/-- The line of a warning. -/
def warningLine (color : Bool) (message : String) : String :=
  Style.boldYellow.paint color "warning:" ++ " " ++ message

/-- The lines about files that could not be documented: each of them, or only their number. -/
def failureLines (color verbose : Bool) (failures : List Failure) : List String :=
  if failures.isEmpty then []
  else if verbose then
    failures.map fun failure => warningLine color (failure.path ++ ": " ++ failure.message)
  else
    [warningLine color (toString failures.length ++ " file(s) could not be parsed (use " ++
      Style.cyan.paint color "-v" ++ " for details)")]

end PropCatalog
