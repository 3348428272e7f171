import PropCatalog.Proofs.Disk.Placement
import PropCatalog.Proofs.Glob.Pattern
import PropCatalog.Scan.Walk

/-! Walks through one directory at two places: what is left out at one of them is left out at the
other one, and the files that are found correspond. -/

namespace PropCatalog

open Path (Below Beside)

namespace IgnoreSet

/-- The paths that entries spell behind a base. -/
def basesOf (base : Path) (entries : List String) : List Path :=
  (entries.filter (! Glob.isPattern ·)).map fun entry => base.join (Path.ofText entry)

/-- The patterns among entries. -/
def patternsOf (entries : List String) : List Glob.Pattern :=
  (entries.filter Glob.isPattern).filterMap fun entry => (Glob.Pattern.ofText entry).toOption

/-- Entries are added one after the other, each to the paths or to the patterns. -/
theorem foldl_add (base : Path) (entries : List String) (set : IgnoreSet) :
    entries.foldl (add base) set =
      ⟨set.bases ++ basesOf base entries, set.patterns ++ patternsOf entries⟩ := by
  -- Each entry adds to one of the two lists, after what has been added before.
  induction entries generalizing set with
  | nil => simp [basesOf, patternsOf]
  | cons entry rest ih =>
    rw [List.foldl_cons, ih, add]
    cases pattern : Glob.isPattern entry with
    | false => simp [basesOf, patternsOf, pattern]
    | true =>
      cases known : Glob.Pattern.ofText entry <;>
        simp [basesOf, patternsOf, pattern, known, Except.toOption]

/-- What a set leaves out. -/
theorem ofEntries_eq (base : Path) (entries : List String) (tests : Bool) :
    ofEntries base entries tests =
      ⟨basesOf base entries, patternsOf (entries ++ if tests then testPatterns else [])⟩ := by
  -- The patterns for tests come last, and none of them is a literal path.
  have testBases : basesOf base (if tests then testPatterns else []) = [] := by
    cases tests <;> rfl
  rw [ofEntries, foldl_add, empty, List.nil_append, List.nil_append, basesOf, List.filter_append,
    List.map_append, ← basesOf, ← basesOf, testBases, List.append_nil]

end IgnoreSet

namespace FileTree

/-- The source files of a directory are those of its entries. -/
theorem sourcesIn_eq (ignored : IgnoreSet) (path : Path) (entries : List (String × FileTree)) :
    sourcesIn ignored path entries = entries.flatMap fun entry =>
      sources ignored (path.entry entry.1) entry.2 := by
  -- The entries are walked one after the other.
  induction entries with
  | nil => rfl
  | cons entry rest ih => rw [sourcesIn, ih, List.flatMap_cons]

end FileTree

/-- Whether files are found in the same way behind two bases, at paths that are there and that a set
does not leave out. -/
inductive Path.Filed (disk : Disk) (ignored : IgnoreSet) (base base' : Path) :
    Path → Path → Prop where
  | intro {rel : Path} (stays : rel.Stays) (ends : rel.Ends)
    (present : disk.contains (base.join rel) = true)
    (kept : ignored.contains (base.join rel) = false) :
    Filed disk ignored base base' (base.join rel) (base'.join rel)

section

variable {disk disk' : Disk} {base base' path path' : Path} {tree : FileTree}

/-- What is found at a path below a directory and is a file has a name. -/
theorem SamePlaces.filed (same : SamePlaces disk disk' base base' tree)
    (beside : Beside base base' path path') {text : Option String}
    (found : disk.find path = .ok (.file text)) {ignored : IgnoreSet}
    (kept : ignored.contains path = false) : Path.Filed disk ignored base base' path path' := by
  -- The tree at the places is a directory, so that the file is below them.
  cases beside with
  | root =>
    have directory := same.directory
    rw [Except.ok.inj (same.found.symm.trans found)] at directory
    cases directory
  | below below =>
    obtain ⟨stays⟩ := below
    have leads := (Disk.find_join same.place same.found same.directory stays).symm.trans found
    exact .intro stays (FileTree.last_of_follow leads same.directory)
      (Disk.contains_of_find found) kept

/-- Files that are found in the same way are source files in the same cases. -/
theorem SamePlaces.isSource_eq (same : SamePlaces disk disk' base base' tree)
    {ignored : IgnoreSet} (filed : Path.Filed disk ignored base base' path path') :
    path.isSource = path'.isSource := by
  -- The extension is that of the last name.
  obtain ⟨stays, ends, -, -⟩ := filed
  rename_i rel
  -- Both paths end with the last name of what follows the bases.
  have last : rel.names ≠ [] := by
    obtain ⟨name, last, noisy⟩ := ends
    exact List.ne_nil_of_mem (List.mem_filter.2 ⟨List.mem_of_getLast? last, by simp [noisy]⟩)
  have same : (base.join rel).fileName? = (base'.join rel).fileName? := by
    rw [Path.fileName?, Path.fileName?, same.place.components_join stays.relative,
      same.place'.components_join stays.relative, List.getLast?_append_of_ne_nil _ last,
      List.getLast?_append_of_ne_nil _ last]
  rw [Path.isSource, Path.isSource, Path.extension?, Path.extension?, same]

/-- Walks find corresponding files where corresponding paths are left out. -/
theorem SamePlaces.sources (same : SamePlaces disk disk' base base' tree)
    {ignored ignored' : IgnoreSet}
    (alike : ∀ path path', Beside base base' path path' → disk.contains path = true →
      ignored.contains path = ignored'.contains path')
    {inner : FileTree} (proper : inner.Proper) (beside : Beside base base' path path')
    (found : disk.find path = .ok inner) :
    List.Forall₂ (Path.Filed disk ignored base base') (inner.sources ignored path)
      (inner.sources ignored' path') := by
  -- Corresponding paths are left out both or none, and then with all that is below them.
  induction proper generalizing path path' with
  | file text =>
    have ignoring := alike path path' beside (Disk.contains_of_find found)
    rw [FileTree.sources, FileTree.sources, ← ignoring]
    split
    · exact .nil
    · rename_i kept
      have filed := same.filed beside found (Bool.not_eq_true _ ▸ kept)
      rw [same.isSource_eq filed]
      split
      · exact .cons filed .nil
      · exact .nil
  | directory names distinct proper ih =>
    have ignoring := alike path path' beside (Disk.contains_of_find found)
    rw [FileTree.sources, FileTree.sources, ← ignoring]
    split
    · exact .nil
    · rw [FileTree.sourcesIn_eq, FileTree.sourcesIn_eq]
      refine forall₂_flatMap_self fun entry member => ?_
      exact ih entry member (.below (beside.entry (names entry member)))
        (Disk.find_entry found (.directory names distinct proper) member)

end

end PropCatalog
