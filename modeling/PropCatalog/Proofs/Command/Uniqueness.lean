import PropCatalog.Proofs.Command.Accounting
import PropCatalog.Proofs.Report.Lossless
import PropCatalog.Proofs.Scan.Uniqueness
import PropCatalog.Proofs.Settings.Reading

/-! Whether a run documents every file once and under a path of its own. -/

namespace PropCatalog.Command

section

variable {disk : Disk} {options : Options} {settings : Settings}

/-- Whether a run documents every file once and under a path of its own. -/
structure Distinct (disk : Disk) (options : Options) (settings : Settings) : Prop where
  /-- No file is found under two paths. -/
  once : ∀ file ∈ (options.scan disk settings).files, ∀ file' ∈ (options.scan disk settings).files,
    disk.location (Path.ofText file) = disk.location (Path.ofText file') → file = file'
  /-- No two files are reported under one path. -/
  own : ∀ file ∈ (options.scan disk settings).files, ∀ file' ∈ (options.scan disk settings).files,
    reportedPath options.root file = reportedPath options.root file' → file = file'
  paths : ((options.documented disk settings).files.map FileRecords.path ++
    (options.documented disk settings).failures.map Failure.path).Nodup
  /-- The report has one member for each file that is listed. -/
  members : (options.documented disk settings).json =
    .object ((options.documented disk settings).files.map FileRecords.member)

/-- Whether no file outside the directory, as it is spelled, has the path that a file within it is
shown under. -/
def Clear (disk : Disk) (options : Options) (settings : Settings) : Prop :=
  ∀ file ∈ (options.scan disk settings).files, ∀ file' ∈ (options.scan disk settings).files,
    (Path.ofText file).isWithin options.root = true →
    (Path.ofText file').isWithin options.root = false →
    shownPath options.root file ≠ Path.ofText file'

/-- Where files have paths of their own, so does all that is listed or reported. -/
theorem distinct_of_own
    (once : ∀ file ∈ (options.scan disk settings).files,
      ∀ file' ∈ (options.scan disk settings).files,
      disk.location (Path.ofText file) = disk.location (Path.ofText file') → file = file')
    (own : ∀ file ∈ (options.scan disk settings).files,
      ∀ file' ∈ (options.scan disk settings).files,
      reportedPath options.root file = reportedPath options.root file' → file = file') :
    Distinct disk options settings := by
  -- The paths in the catalog are some of those that are reported, in another order.
  have found : (options.scan disk settings).files.Nodup := (accounts disk options settings).distinct
  have reported : ((options.scan disk settings).files.map (reportedPath options.root)).Nodup :=
    found.map_on own
  obtain ⟨kept, within, perm⟩ := Catalog.exists_paths_gathered disk options.root
    (options.modules settings) (options.scan disk settings).files
  have gathered := perm.nodup_iff.2 (reported.sublist (within.map _))
  have paths : ((options.documented disk settings).files.map FileRecords.path ++
      (options.documented disk settings).failures.map Failure.path).Nodup := by
    refine (List.Perm.nodup_iff ?_).2 gathered
    rw [options.documented_eq]
    exact ((List.mergeSort_perm _ _).map _).append ((List.mergeSort_perm _ _).map _)
  refine ⟨once, own, paths, ?_⟩
  rw [Catalog.json_eq, Catalog.latest_eq_of_nodup (List.nodup_append.1 paths).1]

/-- A run documents every file once and under a path of its own exactly when the paths that its scan
starts at are spelled alike and no file outside the directory is in the way of one within it, as
long as no path has a backslash. So it does where includes are spelled straight. -/
theorem document_distinct_iff (proper : disk.root.Proper) (place : options.root.IsPlace)
    (plain : ∀ file ∈ (options.scan disk settings).files,
      '\\' ∉ (shownPath options.root file).text.toList) :
    (Distinct disk options settings ↔
      Scan.Aligned disk options.root settings ∧ Clear disk options settings) ∧
    (disk.hasDirectory options.root = true → settings.Straight options.root →
      Distinct disk options settings) := by
  -- Once every file is found once, what is left to be told apart are the paths that are reported.
  have aligned := @Scan.aligned_iff disk options.root settings proper options.legible_root
  constructor
  · constructor
    · intro distinct
      refine ⟨aligned.2 distinct.once, fun file member file' member' within outside shown => ?_⟩
      -- Both files would be reported under one path.
      rw [← shownPath_of_outside outside] at shown
      have same : reportedPath options.root file = reportedPath options.root file' :=
        congrArg (fun path : Path => String.ofList (path.text.toList.map fun c =>
          if c == '\\' then '/' else c)) shown
      rw [distinct.own file member file' member' same, outside] at within
      cases within
    · rintro ⟨spelled, clear⟩
      have once := aligned.1 spelled
      refine distinct_of_own once fun file member file' member' same => ?_
      have shown :=
        shownPath_eq_of_reportedPath place (plain file member) (plain file' member') same
      refine once file member file' member' (location_eq_of_shownPath disk place ?_ shown)
      -- Neither of them is in the way of the other one.
      cases within : (Path.ofText file).isWithin options.root <;>
        cases within' : (Path.ofText file').isWithin options.root
      · rfl
      · rw [shownPath_of_outside within] at shown
        exact absurd shown.symm (clear file' member' file member within' within)
      · rw [shownPath_of_outside within'] at shown
        exact absurd shown (clear file member file' member' within within')
      · rfl
  · intro has straight
    obtain ⟨start, -, continues⟩ := straight.exists_start proper place has
    have once := aligned.1 (Scan.aligned_of_continues proper options.legible_root continues)
    refine distinct_of_own once fun file member file' member' same => ?_
    have shown := shownPath_eq_of_reportedPath place (plain file member) (plain file' member') same
    refine once file member file' member' (location_eq_of_shownPath disk place ?_ shown)
    obtain ⟨found, walked, rfl⟩ := Scan.mem_files.1 member
    obtain ⟨found', walked', rfl⟩ := Scan.mem_files.1 member'
    rw [(Scan.legible_walked proper options.legible_root walked).ofText_text,
      (Scan.legible_walked proper options.legible_root walked').ofText_text]
    exact straight.isWithin_eq proper place has walked walked'

end

/-! ## One directory that is included twice -/

namespace Twice

/-- Settings that include a directory, and part of it once more. -/
def overlapping : Settings :=
  { Settings.standard with includes := ["src", "src/generated"] }

/-- Settings that include one directory under two paths. -/
def settings : Settings :=
  { Settings.standard with includes := ["src", "./src"] }

/-- A project with such settings and a file that has no text. -/
def disk : Disk :=
  ⟨.directory
    [(Settings.fileName, .file (some settings.fileText)),
      ("src", .directory [("Broken.jsx", .file none)])], []⟩

theorem straight : overlapping.Straight Options.empty.root := by
  -- None of the includes is a pattern, so that only their spelling is asked about.
  have plain : ∀ entry ∈ overlapping.includes, Glob.isPattern entry = false := by decide +kernel
  have noPattern {entry : String} (included : entry ∈ overlapping.includes)
      (pattern : Glob.isPattern entry = true) : False := by
    rw [plain entry included] at pattern
    cases pattern
  refine ⟨by decide +kernel, by decide +kernel, fun entry included pattern => ?_, ?_⟩
  · exact (noPattern included pattern).elim
  · rintro ⟨entry, included, pattern⟩
    exact (noPattern included pattern).elim

/-- The settings are accepted. -/
theorem load_eq : Settings.load disk Options.empty.root =
    .ok (settings, some (Path.ofText "./.propdocrc.json")) := by
  -- The file is found right at the root, and all it says is read back.
  have file : Settings.file? disk Options.empty.root = some (Path.ofText "./.propdocrc.json") := by
    decide +kernel
  rw [Settings.load, file]
  dsimp only
  rw [Settings.ofFile_fileText rfl (by decide +kernel)]
  rfl

end Twice

/-- Where a part of the project is included once more, every file is still documented once. -/
theorem document_distinct_iff_overlapping :
    Distinct Project.here .empty Twice.overlapping := by
  -- No path that is walked through has a backslash, and the includes are spelled straight.
  have plain : ∀ path ∈ Scan.walked Project.here Options.empty.root Twice.overlapping,
      '\\' ∉ (shownPath Options.empty.root path.text).text.toList := by decide +kernel
  obtain ⟨-, straight⟩ := @document_distinct_iff Project.here .empty Twice.overlapping
    Project.proper (Path.isPlace_ofText (by decide)) fun file member => by
      obtain ⟨path, found, rfl⟩ := Scan.mem_files.1 member
      exact plain path found
  exact straight (by decide +kernel) Twice.straight

/-- One file is found under two paths, and it is reported twice under one. -/
theorem document_twice :
    Settings.load Twice.disk Options.empty.root =
      .ok (Twice.settings, some (Path.ofText "./.propdocrc.json")) ∧
    (Options.empty.scan Twice.disk Twice.settings).files.Perm
      ["./src/Broken.jsx", "././src/Broken.jsx"] ∧
    Twice.disk.location (Path.ofText "./src/Broken.jsx") =
      Twice.disk.location (Path.ofText "././src/Broken.jsx") ∧
    (Options.empty.documented Twice.disk Twice.settings).failures.map Failure.path =
      ["src/Broken.jsx", "src/Broken.jsx"] := by
  -- The file is found once for each spelling of the directory.
  have ascending : ["././src/Broken.jsx", "./src/Broken.jsx"].Pairwise (· < ·) := by decide +kernel
  have found : (Options.empty.scan Twice.disk Twice.settings).files.Perm
      ["./src/Broken.jsx", "././src/Broken.jsx"] := by
    rw [Options.scan, Scan.files_eq ascending (by decide +kernel)]
    exact .swap _ _ _
  have failed := (accounts Twice.disk .empty Twice.settings).failed.trans (found.filterMap _)
  have paths : (["./src/Broken.jsx", "././src/Broken.jsx"].filterMap fun file =>
      (Options.empty.outcome Twice.disk Twice.settings file).failed?).map Failure.path =
        List.replicate 2 "src/Broken.jsx" := by decide +kernel
  exact ⟨Twice.load_eq, found, by decide +kernel,
    List.perm_replicate.1 (paths ▸ failed.map Failure.path)⟩

end PropCatalog.Command
