import PropCatalog.Command.Run
import PropCatalog.Proofs.Catalog.Outcome
import PropCatalog.Proofs.Scan.Difference

/-! Runs account for every file that they find, and one file changes nothing for the others. -/

namespace PropCatalog

open Syntax FileOutcome

/-- The files that a scan finds at a place. -/
def Scan.filesAt (scan : Scan) (disk : Disk) (place : List String) : List String :=
  scan.files.filter fun file => disk.location (Path.ofText file) = place

namespace Command

section

variable {disk disk' : Disk} {options : Options} {settings : Settings} {place : List String}

/-- The scan of a run. -/
def Options.scan (options : Options) (disk : Disk) (settings : Settings) : Scan :=
  Scan.ofProject disk options.root settings

/-- The catalog of a run. -/
def Options.documented (options : Options) (disk : Disk) (settings : Settings) : Catalog :=
  options.catalog disk settings (options.scan disk settings)

/-- What becomes of a file in a run. -/
def Options.outcome (options : Options) (disk : Disk) (settings : Settings) (file : String) :
    FileOutcome :=
  .ofFile disk options.root (options.modules settings) file

/-- What becomes of some files in a run, one after the other. -/
def Options.gathered (options : Options) (disk : Disk) (settings : Settings)
    (files : List String) : Catalog :=
  .gathered disk options.root (options.modules settings) files

/-- Whether a run accounts for every file that it finds. -/
structure Accounts (disk : Disk) (options : Options) (settings : Settings) : Prop where
  /-- No file is found twice. -/
  distinct : (options.scan disk settings).files.Nodup
  /-- What is listed is what becomes of the files that have components. -/
  listed : (options.documented disk settings).files.Perm
    ((options.scan disk settings).files.filterMap fun file =>
      (options.outcome disk settings file).listed?)
  /-- What is reported is what becomes of the files that fail. -/
  failed : (options.documented disk settings).failures.Perm
    ((options.scan disk settings).files.filterMap fun file =>
      (options.outcome disk settings file).failed?)
  filled : ∀ file ∈ (options.documented disk settings).files, file.records ≠ []
  ascending : (options.documented disk settings).files.Pairwise fun a b => a.path ≤ b.path
  ascendingFailures :
    (options.documented disk settings).failures.Pairwise fun a b => a.path ≤ b.path
  /-- The files may be gone through in any order: the failures are the same, and so are the files
  that are listed, but for the order of those that share a path. -/
  anyOrder : ∀ files : List String, files.Perm (options.scan disk settings).files →
    (Catalog.ofFiles disk options.root (options.modules settings) files).failures =
      (options.documented disk settings).failures ∧
    (Catalog.ofFiles disk options.root (options.modules settings) files).files.Perm
      (options.documented disk settings).files ∧
    (((options.documented disk settings).files.map FileRecords.path).Nodup →
      (Catalog.ofFiles disk options.root (options.modules settings) files).files =
        (options.documented disk settings).files)
  /-- The files may be finished in any order. -/
  finished : ∀ finished : List (String × Except FileError (List Record)),
    finished.Perm ((options.scan disk settings).files.map fun file =>
      (file, documentFile disk (options.modules settings) file)) →
    Catalog.ofFinished options.root finished (options.scan disk settings).files =
      options.documented disk settings

/-- Whether runs of two disks differ only in what becomes of the files at a place. -/
structure SameElsewhere (place : List String) (disk disk' : Disk) (options : Options)
    (settings : Settings) : Prop where
  found : (options.scan disk settings).elsewhere disk place =
    (options.scan disk' settings).elsewhere disk' place
  outcomes : ∀ file ∈ (options.scan disk settings).elsewhere disk place,
    options.outcome disk settings file = options.outcome disk' settings file
  /-- Both catalogs have the same besides what they have of the place. -/
  others : ∃ others : Catalog,
    (options.documented disk settings).files.Perm ((options.gathered disk settings
      ((options.scan disk settings).filesAt disk place)).files ++ others.files) ∧
    (options.documented disk' settings).files.Perm ((options.gathered disk' settings
      ((options.scan disk' settings).filesAt disk' place)).files ++ others.files) ∧
    (options.documented disk settings).failures.Perm ((options.gathered disk settings
      ((options.scan disk settings).filesAt disk place)).failures ++ others.failures) ∧
    (options.documented disk' settings).failures.Perm ((options.gathered disk' settings
      ((options.scan disk' settings).filesAt disk' place)).failures ++ others.failures)

theorem Options.legible_root (options : Options) : options.root.Legible :=
  Path.legible_ofText _

/-- The catalog of a run is what is gathered from the files of its scan, sorted. -/
theorem Options.documented_eq (options : Options) (disk : Disk) (settings : Settings) :
    options.documented disk settings =
      (options.gathered disk settings (options.scan disk settings).files).sorted := by
  -- The catalog of a run is made of the files of its scan in their order.
  rw [documented, catalog, Catalog.ofFiles_eq]
  rfl

/-- A run accounts for every file that it finds. -/
theorem accounts (disk : Disk) (options : Options) (settings : Settings) :
    Accounts disk options settings where
  distinct := (Scan.pairwise_sorted _).imp fun less => less.ne
  listed := by
    -- Sorting reorders what has been gathered, and no more.
    rw [options.documented_eq]
    exact List.mergeSort_perm _ _
  failed := by
    rw [options.documented_eq]
    exact List.mergeSort_perm _ _
  filled := by
    -- A file is listed only for the records of its components.
    intro file member
    rw [options.documented_eq] at member
    obtain ⟨path, -, listed⟩ := List.mem_filterMap.1 (List.mem_mergeSort.1 member)
    exact (records_ne_nil_of_listed listed).1
  ascending := by
    rw [options.documented_eq]
    exact Catalog.pairwise_files_sorted _
  ascendingFailures := by
    rw [options.documented_eq]
    exact (Catalog.pairwise_failures_sorted _).imp Catalog.path_le_of_inOrder
  anyOrder := by
    intro files perm
    obtain ⟨failures, listed, same⟩ := @Catalog.ofFiles_perm disk options.root
      (options.modules settings) _ _ perm.symm
    exact ⟨failures.symm, listed.symm, fun distinct => (same distinct).symm⟩
  finished := fun _ perm =>
    Catalog.ofFinished_eq ((Scan.pairwise_sorted _).imp fun less => less.ne) perm

/-- What is gathered from all files is gathered from those at a place and from those elsewhere. -/
theorem Options.perm_gathered (options : Options) (disk : Disk) (settings : Settings)
    (place : List String) :
    (options.documented disk settings).files.Perm
      ((options.gathered disk settings ((options.scan disk settings).filesAt disk place)).files ++
        (options.gathered disk settings
          ((options.scan disk settings).elsewhere disk place)).files) ∧
    (options.documented disk settings).failures.Perm
      ((options.gathered disk settings
          ((options.scan disk settings).filesAt disk place)).failures ++
        (options.gathered disk settings
          ((options.scan disk settings).elsewhere disk place)).failures) := by
  -- What is gathered is gathered file by file, and each file is at the place or elsewhere.
  have split : (options.scan disk settings).files.Perm
      ((options.scan disk settings).filesAt disk place ++
        (options.scan disk settings).elsewhere disk place) := by
    rw [Scan.filesAt, Scan.elsewhere]
    simpa using (List.filter_append_perm
      (fun file => decide (disk.location (Path.ofText file) = place))
      (options.scan disk settings).files).symm
  obtain ⟨-, listed, failed, -⟩ := accounts disk options settings
  refine ⟨listed.trans ((split.filterMap _).trans ?_),
    failed.trans ((split.filterMap _).trans ?_)⟩ <;>
  · rw [List.filterMap_append]
    exact List.Perm.refl _

/-- Runs of disks that are the same but for one file differ in that file only. -/
theorem sameElsewhere (same : Disk.SameBut place disk disk') (proper : disk.root.Proper)
    (proper' : disk'.root.Proper) (options : Options) (settings : Settings) :
    SameElsewhere place disk disk' options settings := by
  -- The scans find the same files elsewhere, and each of these has the same text on both disks.
  have found : (options.scan disk settings).elsewhere disk place =
      (options.scan disk' settings).elsewhere disk' place :=
    Scan.elsewhere_eq same proper proper' options.legible_root settings
  have outcomes : ∀ file ∈ (options.scan disk settings).elsewhere disk place,
      options.outcome disk settings file = options.outcome disk' settings file := by
    intro file member
    have apart : disk.location (Path.ofText file) ≠ place := by
      simpa using (List.mem_filter.1 member).2
    rw [Options.outcome, Options.outcome, ofFile, ofFile, documentFile, documentFile,
      same.text?_eq apart]
  -- What is gathered elsewhere is the same, since each file has the same outcome.
  have kept : options.gathered disk settings ((options.scan disk settings).elsewhere disk place) =
      options.gathered disk' settings ((options.scan disk' settings).elsewhere disk' place) := by
    rw [← found]
    exact congrArg₂ Catalog.mk
      (List.filterMap_congr fun file member => congrArg listed? (outcomes file member))
      (List.filterMap_congr fun file member => congrArg failed? (outcomes file member))
  obtain ⟨files, failures⟩ := options.perm_gathered disk settings place
  obtain ⟨files', failures'⟩ := options.perm_gathered disk' settings place
  rw [← kept] at files' failures'
  exact ⟨found, outcomes, _, files, files', failures, failures'⟩

/-- A run that reads its settings has no outcome exactly when it finds a file that is documented for
ever. -/
theorem document_eq_none_iff (color : Bool) {source : Option Path}
    (loaded : Settings.load disk options.root = .ok (settings, source)) :
    document color disk options = none ↔
      ∃ file ∈ (options.scan disk settings).files,
        DocumentedForEver disk (options.modules settings) file := by
  -- The catalog is there unless one of the files has no end.
  simp only [← fileFinishes_eq_false_iff]
  rw [document, loaded, Option.map_eq_none_iff, Options.catalog?, ← Options.scan]
  simp only [ite_eq_right_iff, reduceCtorEq, imp_false, Bool.not_eq_true, List.all_eq_false]

/-- A run that has an outcome fails exactly when a file fails. -/
theorem code_of_document {color : Bool} {source : Option Path} {outcome : Outcome}
    (loaded : Settings.load disk options.root = .ok (settings, source))
    (ended : document color disk options = some outcome) :
    outcome.status.code =
      if (options.documented disk settings).failures = [] then 0 else 1 := by
  -- The settings are read, so that only failures are left to end the run with an error.
  rw [document, loaded, Option.map_eq_some_iff] at ended
  obtain ⟨catalog, documented, rfl⟩ := ended
  obtain rfl : options.documented disk settings = catalog := by
    unfold Options.catalog? at documented
    split at documented
    · exact Option.some.inj documented
    · cases documented
  dsimp only
  cases (options.documented disk settings).failures <;> rfl

/-- A run that finds only files with outcomes has one itself, and it lists and reports what becomes
of them. -/
theorem document_of_becomes (color : Bool) {source : Option Path} {results : List FileOutcome}
    (loaded : Settings.load disk options.root = .ok (settings, source))
    (becomes : List.Forall₂ (Becomes disk options.root (options.modules settings))
      (options.scan disk settings).files results) :
    (∃ outcome, document color disk options = some outcome) ∧
    (options.documented disk settings).files.Perm (results.filterMap listed?) ∧
    (options.documented disk settings).failures.Perm (results.filterMap failed?) := by
  -- Each of the outcomes is the one that the catalog is gathered from.
  have same : (options.scan disk settings).files.map (options.outcome disk settings) = results := by
    rw [← List.forall₂_eq_eq_eq, List.forall₂_map_left_iff]
    exact becomes.imp fun file result => ofFile_eq_of_becomes
  obtain ⟨-, listed, failed, -⟩ := accounts disk options settings
  refine ⟨?_, ?_, ?_⟩
  · -- A file that is documented for ever would have no outcome.
    rw [← Option.ne_none_iff_exists', ne_eq, document_eq_none_iff color loaded]
    rintro ⟨file, found, endless⟩
    obtain ⟨result, -, becomes⟩ := exists_mem_of_forall₂ becomes found
    exact not_becomes endless becomes
  · rw [← same, List.filterMap_map]
    exact listed
  · rw [← same, List.filterMap_map]
    exact failed

/-- A file that is documented for ever in one of two disks that are the same elsewhere is so in the
other one. -/
theorem documentedForEver_congr (same : Disk.SameBut place disk disk') {modules : List String}
    {file : String} (apart : disk.location (Path.ofText file) ≠ place) :
    DocumentedForEver disk modules file ↔ DocumentedForEver disk' modules file := by
  -- Both have the same text.
  simp only [DocumentedForEver, same.text?_eq apart]

/-- A run has no outcome exactly when it finds a file that is documented for ever. Otherwise each
file that it finds has one outcome, the run accounts for all of them, and it fails exactly when a
file fails. When a file is put in, taken out or changed, it is this file alone that can take the
outcome away from the run, and the run does the same about all others as long as it has one. -/
theorem document_accounts (color : Bool) {source : Option Path} (proper : disk.root.Proper)
    (loaded : Settings.load disk options.root = .ok (settings, source)) :
    (document color disk options = none ↔ ∃ file ∈ (options.scan disk settings).files,
      DocumentedForEver disk (options.modules settings) file) ∧
    ∀ outcome, document color disk options = some outcome →
      (∀ file ∈ (options.scan disk settings).files, ∀ result,
        Becomes disk options.root (options.modules settings) file result ↔
          options.outcome disk settings file = result) ∧
      Accounts disk options settings ∧
      outcome.status.code =
        (if (options.documented disk settings).failures = [] then 0 else 1) ∧
      ∀ place disk', Disk.SameBut place disk disk' → disk'.root.Proper →
        Settings.load disk' options.root = .ok (settings, source) ∧
        (document color disk' options = none ↔
          ∃ file ∈ (options.scan disk' settings).filesAt disk' place,
            DocumentedForEver disk' (options.modules settings) file) ∧
        ∀ outcome', document color disk' options = some outcome' →
          SameElsewhere place disk disk' options settings := by
  -- A run with an outcome has found no file without one, so that each has just the one it is given.
  have aborts := document_eq_none_iff color loaded
  refine ⟨aborts, fun outcome ended => ?_⟩
  have finished : ∀ file ∈ (options.scan disk settings).files,
      ¬ DocumentedForEver disk (options.modules settings) file := by
    intro file found endless
    cases ended.symm.trans (aborts.mpr ⟨file, found, endless⟩)
  refine ⟨fun file found _ => becomes_iff (finished file found), accounts disk options settings,
    code_of_document loaded ended, fun place disk' same proper' => ?_⟩
  have elsewhere := sameElsewhere same proper proper' options settings
  have loaded' : Settings.load disk' options.root = .ok (settings, source) := by
    rw [← Settings.load_of_same same, loaded]
  refine ⟨loaded', ?_, fun _ _ => elsewhere⟩
  rw [document_eq_none_iff color loaded']
  constructor
  · -- A file elsewhere is found in the first run as well, which has come to its end.
    rintro ⟨file, found, endless⟩
    by_cases here : disk'.location (Path.ofText file) = place
    · exact ⟨file, List.mem_filter.2 ⟨found, decide_eq_true here⟩, endless⟩
    · have member : file ∈ (options.scan disk settings).elsewhere disk place :=
        elsewhere.found ▸ List.mem_filter.2 ⟨found, decide_eq_true here⟩
      obtain ⟨known, apart⟩ := List.mem_filter.1 member
      exact absurd ((documentedForEver_congr same (of_decide_eq_true apart)).mpr endless)
        (finished file known)
  · rintro ⟨file, found, endless⟩
    exact ⟨file, (List.mem_filter.1 found).1, endless⟩

end

/-! ## A run with a broken file, and one with a file that is documented for ever -/

/-- The names of the components of a file and their props with their types, as they are listed. -/
def listing (file : FileRecords) : List (String × List (String × Option String)) :=
  file.records.map fun record =>
    (record.title, record.props.toList.map fun (name, entry) =>
      (name, entry.type.map PropType.display))

namespace Broken

/-- The source of a component with a prop. -/
def component : String :=
  "import P from 'prop-types';\nexport const A = () => <a/>;\nA.propTypes = \x7b n: P.number \x7d;"

/-- A project with a component, a file without components and one that has no text. -/
def disk : Disk :=
  ⟨.directory [("src", .directory
    [("A.jsx", .file (some component)), ("Broken.jsx", .file none), ("math.js", .file (some ""))])],
    []⟩

/-- The project without the file that has no text. -/
def repaired : Disk :=
  ⟨.directory [("src", .directory
    [("A.jsx", .file (some component)), ("math.js", .file (some ""))])], []⟩

theorem proper : disk.root.Proper := by
  -- All names in the tree are different, and none of them is a dot.
  refine .directory (by decide) (by decide) (List.forall_mem_singleton.2 ?_)
  refine .directory (by decide) (by decide) (List.forall_mem_cons.2 ⟨.file _, ?_⟩)
  exact List.forall_mem_cons.2 ⟨.file _, List.forall_mem_singleton.2 (.file _)⟩

theorem proper_repaired : repaired.root.Proper := by
  -- All names in the tree are different, and none of them is a dot.
  refine .directory (by decide) (by decide) (List.forall_mem_singleton.2 ?_)
  refine .directory (by decide) (by decide) (List.forall_mem_cons.2 ⟨.file _, ?_⟩)
  exact List.forall_mem_singleton.2 (.file _)

theorem sameBut : Disk.SameBut ["src", "Broken.jsx"] disk repaired where
  current := rfl
  root := by
    -- The directory is the only entry of the root.
    change FileTree.SameBut _ (.directory ([] ++ ("src", _) :: []))
      (.directory ([] ++ ("src", _) :: []))
    exact .inside (.here rfl (by simp [FileTree.isDirectory]) (by simp))
  source := ⟨"Broken.jsx", rfl, by decide⟩

theorem files : (Options.empty.scan disk .standard).files =
    ["./src/A.jsx", "./src/Broken.jsx", "./src/math.js"] :=
  Scan.files_eq (by decide) (by decide +kernel)

theorem files_repaired : (Options.empty.scan repaired .standard).files =
    ["./src/A.jsx", "./src/math.js"] :=
  Scan.files_eq (by decide) (by decide +kernel)

/-- Wherever its source is, the component is listed with its prop. -/
theorem becomes_component {disk : Disk}
    (text : disk.text? (Path.ofText "./src/A.jsx") = some component) :
    ∃ entry, Becomes disk Options.empty.root [] "./src/A.jsx" (.listed entry) ∧
      entry.path = "src/A.jsx" ∧ listing entry = [("A", [("n", some "number")])] := by
  -- The text is read once, for the record as it is listed.
  have shown : ((SourceFile.parse? "./src/A.jsx" component).bind fun file =>
      ((Analysis.ofFile file []).records? Facet.all).map fun records =>
        listing ⟨"src/A.jsx", records⟩) = some [("A", [("n", some "number")])] := by
    rw [SourceFile.parse?_eq (rfl : component = _)]
    decide +kernel
  obtain ⟨file, parsed, shown⟩ := Option.bind_eq_some_iff.1 shown
  obtain ⟨records, documented, listed⟩ := Option.map_eq_some_iff.1 shown
  have filled : records ≠ [] := by
    rintro rfl
    cases listed
  have path : reportedPath Options.empty.root "./src/A.jsx" = "src/A.jsx" := by decide
  exact ⟨_, .listed text parsed documented filled, path, listed⟩

/-- A file without text is no component. -/
theorem becomes_empty {disk : Disk} (text : disk.text? (Path.ofText "./src/math.js") = some "") :
    Becomes disk Options.empty.root [] "./src/math.js" .bare := by
  -- No component is found in a module without items.
  have none : ((SourceFile.parse? "./src/math.js" "").bind fun file =>
      ((Analysis.ofFile file []).records? Facet.all).map List.length) = some 0 := by decide
  obtain ⟨file, parsed, none⟩ := Option.bind_eq_some_iff.1 none
  obtain ⟨records, documented, none⟩ := Option.map_eq_some_iff.1 none
  exact .bare text parsed (List.length_eq_zero_iff.1 none ▸ documented)

/-- The file that has no text fails under its own path. -/
theorem becomes_broken : Becomes disk Options.empty.root [] "./src/Broken.jsx"
    (.failed ⟨"src/Broken.jsx", FileError.noText.message⟩) := by
  -- The path is reported as it stands in the project.
  have path : reportedPath Options.empty.root "./src/Broken.jsx" = "src/Broken.jsx" := by decide
  exact path ▸ .noText (by decide)

/-- Without the broken file, the run comes to a good end and lists the component. -/
theorem ended_repaired :
    (∃ outcome, document false repaired .empty = some outcome ∧ outcome.status.code = 0) ∧
    (Options.empty.documented repaired .standard).files.map FileRecords.path = ["src/A.jsx"] := by
  -- One of the files is listed, and neither of them fails.
  have loaded : Settings.load repaired Options.empty.root = .ok (.standard, none) := by decide
  have text : repaired.text? (Path.ofText "./src/A.jsx") = some component := rfl
  obtain ⟨entry, becomes, path, -⟩ := becomes_component text
  have results : List.Forall₂ (Becomes repaired Options.empty.root [])
      (Options.empty.scan repaired .standard).files [.listed entry, .bare] :=
    files_repaired ▸ .cons becomes (.cons (becomes_empty (by decide)) .nil)
  obtain ⟨⟨outcome, ended⟩, listed, failed⟩ := document_of_becomes false loaded results
  refine ⟨⟨outcome, ended, ?_⟩, ?_⟩
  · rw [code_of_document loaded ended, List.perm_nil.1 failed, if_pos rfl]
  · rw [List.perm_singleton.1 listed, List.map_singleton, path]

end Broken

/-- The broken file fails, and nothing changes about the component when it is taken out. -/
theorem document_accounts_broken :
    (∃ outcome, document false Broken.disk .empty = some outcome ∧ outcome.status.code = 1) ∧
    (∃ outcome, document false Broken.repaired .empty = some outcome ∧ outcome.status.code = 0) ∧
    (∃ entry, (Options.empty.documented Broken.disk .standard).files = [entry] ∧
      entry.path = "src/A.jsx" ∧ listing entry = [("A", [("n", some "number")])]) ∧
    (Options.empty.documented Broken.disk .standard).failures =
      [⟨"src/Broken.jsx", FileError.noText.message⟩] ∧
    SameElsewhere ["src", "Broken.jsx"] Broken.disk Broken.repaired .empty .standard := by
  -- Each of the three files has the outcome that its text gives it.
  have loaded : Settings.load Broken.disk Options.empty.root = .ok (.standard, none) := by decide
  have text : Broken.disk.text? (Path.ofText "./src/A.jsx") = some Broken.component := rfl
  obtain ⟨entry, becomes, path, shown⟩ := Broken.becomes_component text
  have results : List.Forall₂ (Becomes Broken.disk Options.empty.root [])
      (Options.empty.scan Broken.disk .standard).files
      [.listed entry, .failed ⟨"src/Broken.jsx", FileError.noText.message⟩, .bare] :=
    Broken.files ▸ .cons becomes (.cons Broken.becomes_broken
      (.cons (Broken.becomes_empty (by decide)) .nil))
  obtain ⟨⟨outcome, ended⟩, listed, failed⟩ := document_of_becomes false loaded results
  obtain ⟨outcome', ended', code'⟩ := Broken.ended_repaired.1
  obtain ⟨-, -, code, apart⟩ := (document_accounts false Broken.proper loaded).2 _ ended
  have failures := List.perm_singleton.1 failed
  refine ⟨⟨outcome, ended, ?_⟩, ⟨outcome', ended', code'⟩,
    ⟨entry, List.perm_singleton.1 listed, path, shown⟩, failures, ?_⟩
  · rw [code, failures, if_neg (List.cons_ne_nil _ _)]
  · exact (apart _ _ Broken.sameBut Broken.proper_repaired).2.2 outcome' ended'

namespace Looping

/-- The source of a component with a prop whose type contains itself. -/
def component : String :=
  "import P from 'prop-types';\nconst node = \x7b child: P.shape(node) \x7d;\n" ++
    "export const B = () => <b/>;\nB.propTypes = node;"

/-- A project with two components, one of which has a prop whose type contains itself. -/
def disk : Disk :=
  ⟨.directory [("src", .directory
    [("A.jsx", .file (some Broken.component)), ("B.jsx", .file (some component)),
      ("math.js", .file (some ""))])], []⟩

theorem sameBut : Disk.SameBut ["src", "B.jsx"] Broken.repaired disk where
  current := rfl
  root := by
    -- The directory is the only entry of the root.
    change FileTree.SameBut _ (.directory ([] ++ ("src", _) :: []))
      (.directory ([] ++ ("src", _) :: []))
    exact .inside (.here rfl (by simp) (by simp [FileTree.isDirectory]))
  source := ⟨"B.jsx", rfl, by decide⟩

end Looping

/-- A file that is put in takes the outcome away from the run, and with it the entry of the other
file and the status. -/
theorem document_looping :
    Disk.SameBut ["src", "B.jsx"] Broken.repaired Looping.disk ∧
    (∃ outcome, document false Broken.repaired .empty = some outcome ∧ outcome.status.code = 0) ∧
    (Options.empty.documented Broken.repaired .standard).files.map FileRecords.path =
      ["src/A.jsx"] ∧
    Settings.load Looping.disk Options.empty.root = .ok (.standard, none) ∧
    "./src/B.jsx" ∈ (Options.empty.scan Looping.disk .standard).files ∧
    (∀ result, ¬ Becomes Looping.disk Options.empty.root (Options.empty.modules .standard)
      "./src/B.jsx" result) ∧
    document false Looping.disk .empty = none := by
  -- The validator in the file is read inside of itself.
  have loaded : Settings.load Looping.disk Options.empty.root = .ok (.standard, none) := by decide
  have found : "./src/B.jsx" ∈ (Options.empty.scan Looping.disk .standard).files :=
    Scan.mem_files.2 ⟨Path.ofText "./src/B.jsx", by decide +kernel, by decide⟩
  have endless : DocumentedForEver Looping.disk (Options.empty.modules .standard)
      "./src/B.jsx" := by
    have text : Looping.disk.text? (Path.ofText "./src/B.jsx") = some Looping.component := rfl
    have given : Looping.component = String.ofList _ := ofList_append_eq rfl rfl
    rw [← fileFinishes_eq_false_iff, fileFinishes, text, Option.all_some, sourceFinishes,
      SourceFile.parse?_eq given]
    decide +kernel
  obtain ⟨ended, paths⟩ := Broken.ended_repaired
  exact ⟨Looping.sameBut, ended, paths, loaded, found, fun _ => not_becomes endless,
    (document_eq_none_iff false loaded).mpr ⟨_, found, endless⟩⟩

end Command

end PropCatalog
