import PropCatalog.Catalog.Building
import PropCatalog.Command.Arguments
import PropCatalog.Report.Encoding
import PropCatalog.Report.Text
import PropCatalog.Scan.Basic
import PropCatalog.Settings.Loading

/-! What the commands print and write, given the files on the disk. -/

namespace PropCatalog.Command

inductive ExitStatus where
  | success
  /-- Some files could not be documented, or nothing was written. -/
  | failure
  /-- The command could not be carried out. -/
  | error
  deriving DecidableEq, Repr

def ExitStatus.code : ExitStatus → Nat
  | success => 0
  | failure => 1
  | error => 2

/-- What a command leaves behind. -/
structure Outcome where
  status : ExitStatus
  /-- Why the command could not be carried out. -/
  cause : Option SettingsError
  output : String
  messages : String
  disk : Disk

/-- The help that is printed when no command is given. -/
def overview : String :=
  unlines
    [ "A fast CLI tool for extracting prop documentation from React components",
      "",
      "Usage: propdoc [COMMAND]",
      "",
      "Commands:",
      "  parse  Extract prop documentation from React components",
      "  init   Initialize a new .propdocrc.json configuration file",
      "  help   Print this message or the help of the given subcommand(s)",
      "",
      "Options:",
      "  -h, --help     Print help",
      "  -V, --version  Print version" ]

/-- Writes the standard settings into a new file. -/
def init (color : Bool) (disk : Disk) : Outcome :=
  if disk.contains (Path.ofText Settings.fileName) then
    { status := .failure, cause := none, output := ""
      messages := "Error: " ++ Settings.fileName ++ " already exists\n", disk }
  else
    { status := .success, cause := none
      output := unlines [successLine color ("Created " ++ Settings.fileName)], messages := ""
      disk := disk.write [Settings.fileName] Settings.standard.fileText }

/-- The directory that a run documents. -/
def Options.root (options : Options) : Path :=
  Path.ofText (options.sourceRoot.getD ".")

/-- The modules of the settings, and those of the options that are not among them. -/
def Options.modules (options : Options) (settings : Settings) : List String :=
  options.validatorModules.foldl
    (fun modules name => if modules.contains name then modules else modules ++ [name])
    settings.validatorModules

/-- The messages before the report: that there are no settings, and what the scan passed over. -/
def scanMessages (color verbose : Bool) (file : Option Path) (scan : Scan) : List String :=
  (if verbose && file.isNone then
    ["Note: No " ++ Settings.fileName ++ " found, using default configuration"] else []) ++
  (if verbose then scan.warnings.map fun warning => warningLine color warning.message else []) ++
  if scan.skipped = 0 then []
  else
    [warningLine color (toString scan.skipped ++ " path(s) skipped due to access errors" ++
      if verbose then "" else " (use -v for details)")]

/-- The catalog of the files that a scan of a directory has found. -/
def Options.catalog (options : Options) (disk : Disk) (settings : Settings) (scan : Scan) :
    Catalog :=
  Catalog.ofFiles disk options.root (options.modules settings) scan.files

/-- The catalog of the files that a scan has found, unless documenting one of them has no end: the
files are documented at once, and such a one takes all others down with it. -/
def Options.catalog? (options : Options) (disk : Disk) (settings : Settings) (scan : Scan) :
    Option Catalog :=
  if scan.files.all (fileFinishes disk (options.modules settings)) then
    some (options.catalog disk settings scan)
  else none

/-- Documents the source files of a directory, and fails when one of them cannot be documented. A
run that has no end leaves nothing behind. -/
def document (color : Bool) (disk : Disk) (options : Options) : Option Outcome :=
  match Settings.load disk options.root with
  | .error cause =>
    some { status := .error, cause := some cause, output := "", messages := "", disk }
  | .ok (settings, file) =>
    let scan := Scan.ofProject disk options.root settings
    (options.catalog? disk settings scan).map fun catalog =>
      { status := if catalog.failures.isEmpty then .success else .failure
        cause := none
        output := match options.format with
          | some .json => catalog.jsonText
          | _ => catalog.text color scan.files.length
        messages := unlines (scanMessages color options.verbose file scan ++
          failureLines color options.verbose catalog.failures)
        disk }

/-- Carries out what the arguments ask for, unless there is no end to it. -/
def run (color : Bool) (disk : Disk) : Request → Option Outcome
  | .overview =>
    some { status := .success, cause := none, output := overview, messages := "", disk }
  | .init => some (init color disk)
  | .document options => document color disk options

end PropCatalog.Command
