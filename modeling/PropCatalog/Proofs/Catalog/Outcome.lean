import Mathlib.Data.List.Nodup
import Mathlib.Data.String.Basic
import PropCatalog.Catalog.Building
import PropCatalog.Proofs.Occurrence
import PropCatalog.Proofs.Record.Finishing

/-! What becomes of each file of a catalog, whatever the order in which files are gone through. -/

namespace PropCatalog

open Syntax

/-- What becomes of a file: it is listed with its records, it is reported as a failure, or it leaves
nothing behind. -/
inductive FileOutcome where
  | listed (file : FileRecords)
  | failed (failure : Failure)
  | bare

namespace FileOutcome

/-- The records that are listed. -/
def listed? : FileOutcome → Option FileRecords
  | listed file => some file
  | _ => none

/-- The failure that is reported. -/
def failed? : FileOutcome → Option Failure
  | failed failure => some failure
  | _ => none

/-- What becomes of the file whose path a text spells, by what documenting it gives. -/
def ofFile (disk : Disk) (base : Path) (modules : List String) (path : String) : FileOutcome :=
  match documentFile disk modules path with
  | .error cause => failed ⟨reportedPath base path, cause.message⟩
  | .ok [] => bare
  | .ok records => listed ⟨reportedPath base path, records⟩

end FileOutcome

/-- What is to become of a file. It fails when it has no text or one that is no module, it is listed
when there are records of components in it, and it leaves nothing behind when there are none. A file
that is documented for ever has no outcome. -/
inductive Becomes (disk : Disk) (base : Path) (modules : List String) (path : String) :
    FileOutcome → Prop where
  | noText (unread : disk.text? (Path.ofText path) = none) :
      Becomes disk base modules path (.failed ⟨reportedPath base path, FileError.noText.message⟩)
  | noModule {source : String} (text : disk.text? (Path.ofText path) = some source)
      (unparsed : SourceFile.parse? path source = none) :
      Becomes disk base modules path
        (.failed ⟨reportedPath base path, (FileError.noModule path).message⟩)
  | bare {source : String} {file : SourceFile} (text : disk.text? (Path.ofText path) = some source)
      (parsed : SourceFile.parse? path source = some file)
      (documented : (Analysis.ofFile file modules).records? Facet.all = some []) :
      Becomes disk base modules path .bare
  | listed {source : String} {file : SourceFile} {records : List Record}
      (text : disk.text? (Path.ofText path) = some source)
      (parsed : SourceFile.parse? path source = some file)
      (documented : (Analysis.ofFile file modules).records? Facet.all = some records)
      (filled : records ≠ []) :
      Becomes disk base modules path (.listed ⟨reportedPath base path, records⟩)

/-- A file is documented for ever: a component in its text declares a validator that is read for
ever. -/
def DocumentedForEver (disk : Disk) (modules : List String) (path : String) : Prop :=
  ∃ source file component value, disk.text? (Path.ofText path) = some source ∧
    SourceFile.parse? path source = some file ∧
    component ∈ (Analysis.ofFile file modules).components ∧
    (Analysis.ofFile file modules).Declares component value ∧
    (Analysis.ofFile file modules).isValidator value = true ∧
    (Analysis.ofFile file modules).Endless value

open FileOutcome

variable {disk : Disk} {base : Path} {modules : List String} {path : String}

/-- Documenting a file has no end when it goes on for ever. -/
theorem fileFinishes_eq_false_iff :
    fileFinishes disk modules path = false ↔ DocumentedForEver disk modules path := by
  -- Without a text or a module there is nothing to be read.
  simp only [fileFinishes, sourceFinishes, Option.all_eq_false, Option.isSome_eq_false_iff,
    Option.isNone_iff_eq_none, Analysis.records?_eq_none_iff, DocumentedForEver]
  constructor
  · rintro ⟨source, text, file, parsed, -, component, member, value, endless⟩
    exact ⟨source, file, component, value, text, parsed, member, endless⟩
  · rintro ⟨source, file, component, value, text, parsed, member, endless⟩
    exact ⟨source, text, file, parsed, by decide, component, member, value, endless⟩

/-- A file whose documentation comes to an end has one outcome. -/
theorem becomes_iff (finished : ¬ DocumentedForEver disk modules path) {outcome : FileOutcome} :
    Becomes disk base modules path outcome ↔ ofFile disk base modules path = outcome := by
  -- Each way to document a file is one of the outcomes.
  rw [← fileFinishes_eq_false_iff, Bool.not_eq_false, fileFinishes] at finished
  rw [ofFile, documentFile]
  constructor
  · intro becomes
    cases becomes with
    | noText unread => rw [unread]
    | noModule text unparsed => simp only [text, document?, unparsed, Option.map_none]
    | bare text parsed documented =>
      simp only [text, document?, parsed, Option.map_some, ← Analysis.records?_eq_some documented]
    | listed text parsed documented filled =>
      simp only [text, document?, parsed, Option.map_some, ← Analysis.records?_eq_some documented]
  · rintro rfl
    cases text : disk.text? (Path.ofText path) with
    | none => exact .noText text
    | some source =>
      simp only [text, Option.all_some, sourceFinishes] at finished
      cases parsed : SourceFile.parse? path source with
      | none => simpa only [document?, parsed, Option.map_none] using .noModule text parsed
      | some file =>
        simp only [parsed, Option.all_some, Option.isSome_iff_exists] at finished
        obtain ⟨records, documented⟩ := finished
        obtain rfl := Analysis.records?_eq_some documented
        simp only [document?, parsed, Option.map_some]
        cases records : (Analysis.ofFile file modules).records Facet.all with
        | nil => exact .bare text parsed (records ▸ documented)
        | cons record others =>
          exact .listed text parsed (records ▸ documented) (List.cons_ne_nil _ _)

/-- A file that is documented for ever has no outcome. -/
theorem not_becomes (endless : DocumentedForEver disk modules path) {outcome : FileOutcome} :
    ¬ Becomes disk base modules path outcome := by
  -- In every other case the file has no module, or one that all records are made of.
  obtain ⟨source, file, component, value, text, parsed, member, validator⟩ := endless
  have unfinished : (Analysis.ofFile file modules).records? Facet.all = none :=
    Analysis.records?_eq_none_iff.mpr ⟨by decide, component, member, value, validator⟩
  intro becomes
  cases becomes <;> simp_all

/-- A file has no other outcome than the one that it becomes. -/
theorem ofFile_eq_of_becomes {outcome : FileOutcome}
    (becomes : Becomes disk base modules path outcome) :
    ofFile disk base modules path = outcome :=
  (becomes_iff fun endless => not_becomes endless becomes).mp becomes

/-- A file that is listed has records, and is listed under its own path. -/
theorem records_ne_nil_of_listed {file : FileRecords}
    (listed : (ofFile disk base modules path).listed? = some file) :
    file.records ≠ [] ∧ file.path = reportedPath base path := by
  -- Only records are listed of which there is one.
  unfold ofFile at listed
  split at listed
  · cases listed
  · cases listed
  · rename_i records some _
    cases listed
    exact ⟨some, rfl⟩

/-- A failure is reported under the path of its file. -/
theorem path_of_failed {failure : Failure}
    (failed : (ofFile disk base modules path).failed? = some failure) :
    failure.path = reportedPath base path := by
  -- Whatever the cause, the path is the one of the file.
  unfold ofFile at failed
  split at failed
  · cases failed
    rfl
  · cases failed
  · cases failed

namespace Catalog

/-- Before it is sorted, a catalog has what becomes of each file, one after the other. -/
def gathered (disk : Disk) (base : Path) (modules paths : List String) : Catalog where
  files := paths.filterMap fun path => (ofFile disk base modules path).listed?
  failures := paths.filterMap fun path => (ofFile disk base modules path).failed?

/-- A file is added as what becomes of it. -/
theorem add_documentFile (catalog : Catalog) (disk : Disk) (base : Path) (modules : List String)
    (path : String) :
    catalog.add (reportedPath base path) (documentFile disk modules path) =
      ⟨catalog.files ++ (ofFile disk base modules path).listed?.toList,
        catalog.failures ++ (ofFile disk base modules path).failed?.toList⟩ := by
  -- A catalog tells the results apart as the outcomes do.
  rw [ofFile]
  cases documentFile disk modules path with
  | error cause => simp [add, listed?, failed?]
  | ok records => cases records <;> simp [add, listed?, failed?]

/-- Files are added to a catalog behind those that it has. -/
theorem foldl_add_documentFile (catalog : Catalog) (disk : Disk) (base : Path)
    (modules paths : List String) :
    paths.foldl (fun catalog path =>
      catalog.add (reportedPath base path) (documentFile disk modules path)) catalog =
        ⟨catalog.files ++ (gathered disk base modules paths).files,
          catalog.failures ++ (gathered disk base modules paths).failures⟩ := by
  -- File by file, the catalog grows at its end by what becomes of the file.
  induction paths generalizing catalog with
  | nil => simp [gathered]
  | cons path rest ih =>
    rw [List.foldl_cons, ih, add_documentFile]
    simp only [gathered, List.filterMap_cons, List.append_assoc]
    -- A file is listed, or it fails, or neither.
    cases (ofFile disk base modules path).listed? <;>
      cases (ofFile disk base modules path).failed? <;> rfl

/-- A catalog is what is gathered from the files, sorted. -/
theorem ofFiles_eq (disk : Disk) (base : Path) (modules paths : List String) :
    ofFiles disk base modules paths = (gathered disk base modules paths).sorted := by
  -- The catalog starts empty, and it is sorted once all files have been added.
  rw [ofFiles, foldl_add_documentFile]
  rfl

/-- What is gathered has the paths of some of the files, each once. -/
theorem exists_paths_gathered (disk : Disk) (base : Path) (modules paths : List String) :
    ∃ kept : List String, kept.Sublist paths ∧
      ((gathered disk base modules paths).files.map FileRecords.path ++
        (gathered disk base modules paths).failures.map Failure.path).Perm
          (kept.map (reportedPath base)) := by
  -- From the last file to the first, the paths that are kept are those of files with an entry.
  induction paths with
  | nil => exact ⟨[], .slnil, .nil⟩
  | cons path rest ih =>
    obtain ⟨kept, within, perm⟩ := ih
    rw [gathered] at perm ⊢
    simp only [List.filterMap_cons]
    -- Only a file without components is left out.
    cases outcome : ofFile disk base modules path with
    | listed file =>
      have own := (records_ne_nil_of_listed (congrArg listed? outcome)).2
      refine ⟨path :: kept, within.cons_cons path, ?_⟩
      rw [List.map_cons, ← own]
      exact perm.cons file.path
    | failed failure =>
      have own := path_of_failed (congrArg failed? outcome)
      refine ⟨path :: kept, within.cons_cons path, ?_⟩
      rw [List.map_cons, ← own]
      exact List.perm_middle.trans (perm.cons failure.path)
    | bare => exact ⟨kept, within.cons path, perm⟩

/-! ## The order of a catalog -/

/-- Failures are compared by their paths first. -/
theorem inOrder_iff {a b : Failure} :
    inOrder a b = true ↔ a.path < b.path ∨ a.path = b.path ∧ a.message ≤ b.message := by
  simp [inOrder]

theorem inOrder_trans {a b c : Failure} (first : inOrder a b = true) (second : inOrder b c = true) :
    inOrder a c = true := by
  -- The texts are compared only where both steps stay at one path.
  rw [inOrder_iff] at first second ⊢
  rcases first with before | ⟨same, before⟩
  · rcases second with after | ⟨same', -⟩
    · exact .inl (before.trans after)
    · exact .inl (same' ▸ before)
  · rcases second with after | ⟨same', after⟩
    · exact .inl (same ▸ after)
    · exact .inr ⟨same.trans same', before.trans after⟩

theorem inOrder_total (a b : Failure) : (inOrder a b || inOrder b a) = true := by
  -- Of two paths one comes first, and of two failures at one path the texts decide.
  rw [Bool.or_eq_true, inOrder_iff, inOrder_iff]
  rcases lt_trichotomy a.path b.path with before | same | after
  · exact .inl (.inl before)
  · exact (le_total a.message b.message).imp (fun le => .inr ⟨same, le⟩) fun le =>
      .inr ⟨same.symm, le⟩
  · exact .inr (.inl after)

/-- No two failures are each before the other one. -/
theorem inOrder_antisymm {a b : Failure} (before : inOrder a b = true)
    (after : inOrder b a = true) : a = b := by
  -- If one path came before the other, it could not come behind it as well.
  rw [inOrder_iff] at before after
  rcases before with less | ⟨same, le⟩
  · rcases after with less' | ⟨same', -⟩
    · exact absurd (less.trans less') (lt_irrefl _)
    · exact absurd (same' ▸ less) (lt_irrefl _)
  · rcases after with less | ⟨-, le'⟩
    · exact absurd (same ▸ less) (lt_irrefl _)
    · cases a
      cases b
      obtain rfl := same
      obtain rfl := le_antisymm le le'
      rfl

/-- The files of a sorted catalog are in the order of their paths. -/
theorem pairwise_files_sorted (catalog : Catalog) :
    catalog.sorted.files.Pairwise fun a b => a.path ≤ b.path := by
  -- Sorting by a total order of the paths leaves no pair the wrong way round.
  have ordered := @List.pairwise_mergeSort FileRecords (fun a b => a.path ≤ b.path)
    (fun a b c => by simpa using le_trans) (fun a b => by simpa using le_total a.path b.path)
    catalog.files
  simpa only [sorted, decide_eq_true_eq] using ordered

/-- So are its failures, and those of one path in the order of their messages. -/
theorem pairwise_failures_sorted (catalog : Catalog) :
    catalog.sorted.failures.Pairwise fun a b => inOrder a b = true :=
  @List.pairwise_mergeSort Failure inOrder (fun _ _ _ => inOrder_trans) inOrder_total
    catalog.failures

theorem path_le_of_inOrder {a b : Failure} (before : inOrder a b = true) : a.path ≤ b.path := by
  -- The path decides first, and otherwise it is the same.
  rcases inOrder_iff.1 before with less | ⟨same, -⟩
  · exact less.le
  · exact same.le

/-- The failures of a catalog do not hang on the order in which files are gone through, and neither
do its files, as long as these have different paths. -/
theorem ofFiles_perm {paths paths' : List String} (perm : paths.Perm paths') :
    (ofFiles disk base modules paths).failures = (ofFiles disk base modules paths').failures ∧
    (ofFiles disk base modules paths).files.Perm (ofFiles disk base modules paths').files ∧
    (((ofFiles disk base modules paths).files.map FileRecords.path).Nodup →
      (ofFiles disk base modules paths).files = (ofFiles disk base modules paths').files) := by
  -- Both catalogs are gathered from the same files, and sorted by one order.
  simp only [ofFiles_eq]
  have files : (gathered disk base modules paths).sorted.files.Perm
      (gathered disk base modules paths').sorted.files :=
    (List.mergeSort_perm _ _).trans ((perm.filterMap _).trans (List.mergeSort_perm _ _).symm)
  have failures : (gathered disk base modules paths).sorted.failures.Perm
      (gathered disk base modules paths').sorted.failures :=
    (List.mergeSort_perm _ _).trans ((perm.filterMap _).trans (List.mergeSort_perm _ _).symm)
  refine ⟨?_, files, fun distinct => ?_⟩
  · exact failures.eq_of_pairwise (fun _ _ _ _ => inOrder_antisymm) (pairwise_failures_sorted _)
      (pairwise_failures_sorted _)
  · refine files.eq_of_pairwise (fun a b here there before after => ?_) (pairwise_files_sorted _)
      (pairwise_files_sorted _)
    exact List.inj_on_of_nodup_map distinct here (files.mem_iff.2 there) (le_antisymm before after)

/-! ## Files that are documented at once -/

/-- The catalog of some files, each of which has been documented at some time: what has become of it
is looked up among what is finished. -/
def ofFinished (base : Path) (finished : List (String × Except FileError (List Record)))
    (paths : List String) : Catalog :=
  (paths.foldl
    (fun catalog path =>
      match finished.lookup path with
      | some outcome => catalog.add (reportedPath base path) outcome
      | none => catalog)
    empty).sorted

/-- It makes no difference which of the files is finished first. -/
theorem ofFinished_eq {paths : List String} (distinct : paths.Nodup)
    {finished : List (String × Except FileError (List Record))}
    (perm : finished.Perm (paths.map fun path => (path, documentFile disk modules path))) :
    ofFinished base finished paths = ofFiles disk base modules paths := by
  -- Each file is finished once, so that the outcome that is looked up is its own.
  have names : (paths.map fun path => (path, documentFile disk modules path)).map Prod.fst =
      paths := by
    rw [List.map_map]
    exact List.map_id _
  have known : ∀ path ∈ paths, finished.lookup path = some (documentFile disk modules path) := by
    intro path member
    rw [← lookup_perm perm.symm (names.symm ▸ distinct), List.lookup_graph _ member]
  have added := List.foldl_ext _ _ empty fun catalog path member =>
    show (match finished.lookup path with
      | some outcome => catalog.add (reportedPath base path) outcome
      | none => catalog) = catalog.add (reportedPath base path) (documentFile disk modules path) by
      rw [known path member]
  rw [ofFinished, ofFiles, added]

end Catalog

end PropCatalog
