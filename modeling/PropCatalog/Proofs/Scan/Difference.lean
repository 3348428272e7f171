import Mathlib.Data.List.Sort
import PropCatalog.Proofs.Glob.Finding
import PropCatalog.Proofs.Scan.Roots
import PropCatalog.Settings.Loading

/-! Scans of two disks that are the same but for one source file: the settings are the same, and so
is all that is found elsewhere. -/

namespace PropCatalog

variable {disk disk' : Disk} {place names : List String} {path found base : Path}
  {settings : Settings} {ignored : IgnoreSet}

namespace FileTree

variable {tree tree' : FileTree}

/-- A file is a source file at its own path or none. -/
theorem eq_of_mem_sources (file : tree.isDirectory = false)
    (member : found ∈ tree.sources ignored path) : found = path := by
  -- A file has no entries to look into.
  cases tree with
  | directory => cases file
  | file =>
    rw [sources] at member
    split at member
    · cases member
    · split at member
      · exact List.mem_singleton.1 member
      · cases member

/-- A source file of a tree is the tree, or it is below it. -/
theorem Proper.of_mem_sources (proper : tree.Proper)
    (member : found ∈ tree.sources ignored path) :
    tree.isDirectory = false ∧ found = path ∨
      ∃ inner, (found, inner) ∈ tree.descendants path := by
  -- The sources of a directory are those of its entries, further down by induction.
  induction proper generalizing path with
  | file => exact .inl ⟨rfl, eq_of_mem_sources rfl member⟩
  | directory names distinct proper ih =>
    rw [sources] at member
    split at member
    · cases member
    · rw [sourcesIn_eq, List.mem_flatMap] at member
      obtain ⟨entry, known, member⟩ := member
      rw [FileTree.descendants, descendantsIn_eq]
      -- Below an entry, it is the entry or something further down.
      rcases ih entry known member with ⟨-, rfl⟩ | ⟨inner, below⟩
      · exact .inr ⟨entry.2, List.mem_flatMap.2 ⟨entry, known, List.mem_cons_self⟩⟩
      · exact .inr ⟨inner, List.mem_flatMap.2 ⟨entry, known, List.mem_cons_of_mem _ below⟩⟩

/-- What is found below a path that some text spells has such a path, too. -/
theorem Proper.legible_sources (proper : tree.Proper) (legible : path.Legible)
    (member : found ∈ tree.sources ignored path) : found.Legible := by
  -- The source file is at the path, or it is below it.
  rcases proper.of_mem_sources member with ⟨-, rfl⟩ | ⟨inner, below⟩
  · exact legible
  · exact proper.legible_descendant legible below

/-- A source file of the one tree is one of the other tree, unless it is the file. -/
theorem SameBut.mem_sources (same : SameBut names tree tree') (proper : tree.Proper)
    (member : found ∈ tree.sources ignored path) :
    disk.location found = disk.location path ++ names ∨ found ∈ tree'.sources ignored path := by
  -- The induction is on the way to the file; beside the way, everything is the same.
  induction same generalizing path with
  | same => exact .inr member
  | @here name entries entries' others file file' =>
    cases proper with
    | directory named distinct proper =>
      rw [sources] at member ⊢
      split at member
      · cases member
      · rename_i kept
        rw [if_neg kept]
        rw [sourcesIn_eq, List.mem_flatMap] at member ⊢
        obtain ⟨⟨other, inner⟩, known, member⟩ := member
        by_cases own : other = name
        · subst own
          rw [eq_of_mem_sources (file inner known) member]
          exact .inl (disk.location_entry path (named _ known))
        · have among : (other, inner) ∈ entries.filter (·.1 != name) :=
            List.mem_filter.2 ⟨known, bne_iff_ne.2 own⟩
          exact .inr ⟨_, List.mem_of_mem_filter (others ▸ among), member⟩
  | @inside name names inner inner' before after same ih =>
    cases proper with
    | directory named distinct proper =>
      rw [sources] at member ⊢
      split at member
      · cases member
      · rename_i kept
        rw [if_neg kept]
        rw [sourcesIn_eq, List.mem_flatMap] at member ⊢
        obtain ⟨⟨other, tree⟩, known, member⟩ := member
        rcases List.mem_append.1 known with first | later
        · exact .inr ⟨_, List.mem_append_left _ first, member⟩
        · rcases List.mem_cons.1 later with own | last
          · obtain ⟨rfl, rfl⟩ := Prod.mk.inj own
            have location := disk.location_entry path (named _ known)
            refine (ih (proper _ known) member).imp (fun here => ?_) fun member => ?_
            · rw [here, location, List.append_assoc]
              rfl
            · exact ⟨(other, inner'), by simp, member⟩
          · exact .inr ⟨(other, tree), by simp [last], member⟩

end FileTree

open FileTree (Proper)

namespace Scan

/-! ## What scans start at and find -/

/-- A scan starts at what its entries lead to, or at the directory of the project. -/
theorem mem_roots_iff {includes : List String} :
    path ∈ (roots disk base includes).1 ↔
      includes = [] ∧ path = base ∨ ∃ entry ∈ includes, path ∈ (rootsOf disk base entry).1 := by
  -- Without any entry, the scan starts at the directory of the project.
  rw [roots]
  cases includes with
  | nil => simp
  | cons first rest =>
    rw [if_neg (by simp)]
    dsimp only
    rw [List.flatMap_map, List.mem_flatMap]
    simp

/-- A pattern leads to the directories that it finds. -/
theorem mem_rootsOf_pattern {entry : String} (pattern : Glob.isPattern entry = true) :
    path ∈ (rootsOf disk base entry).1 ↔ ∃ paths,
      Glob.directories disk (base.join (Path.ofText entry)).text = .ok paths ∧ path ∈ paths := by
  -- The search succeeds, or it leads nowhere.
  rw [rootsOf, if_pos pattern]
  cases Glob.directories disk (base.join (Path.ofText entry)).text <;> simp

/-- Any other entry leads to its path, if something is there. -/
theorem mem_rootsOf_literal {entry : String} (literal : Glob.isPattern entry = false) :
    path ∈ (rootsOf disk base entry).1 ↔
      disk.contains path = true ∧ path = base.join (Path.ofText entry) := by
  -- The disk is asked about the one path.
  rw [rootsOf, if_neg (by simp [literal])]
  split
  · rename_i present
    rw [List.mem_singleton]
    exact ⟨fun same => ⟨same ▸ present, same⟩, fun found => found.2⟩
  · rename_i missing
    constructor
    · intro member
      cases member
    · rintro ⟨present, rfl⟩
      exact absurd present missing

/-- A walk finds the source files of what is at its path. -/
theorem mem_walk_iff :
    found ∈ (walk disk ignored path).1 ↔
      ∃ tree, disk.find path = .ok tree ∧ found ∈ tree.sources ignored path := by
  -- The walk looks for the path first.
  rw [walk]
  cases disk.find path <;> simp

/-- The paths that an entry leads to are spelled by texts. -/
theorem legible_rootsOf (proper : disk.root.Proper) (legible : base.Legible) {entry : String}
    (member : path ∈ (rootsOf disk base entry).1) : path.Legible := by
  -- A search keeps paths spelled by texts, and joining two of them does so, too.
  cases pattern : Glob.isPattern entry with
  | true =>
    obtain ⟨paths, known, member⟩ := (mem_rootsOf_pattern pattern).1 member
    obtain ⟨patterns, -, search⟩ := Glob.exists_of_directories known
    rw [search] at known
    cases known
    have finds := Glob.mem_searchFrom_iff.1 (List.mem_of_mem_filter member)
    exact finds.legible proper (Glob.legible_startOf _)
  | false =>
    obtain ⟨-, rfl⟩ := (mem_rootsOf_literal pattern).1 member
    exact legible.join (Path.legible_ofText entry)

/-- So are the paths of all files that are found. -/
theorem legible_walked (proper : disk.root.Proper) (legible : base.Legible)
    (member : path ∈ walked disk base settings) : path.Legible := by
  -- A walk goes down from the paths that entries lead to.
  obtain ⟨root, started, member⟩ := List.mem_flatMap.1 member
  obtain ⟨tree, known, member⟩ := mem_walk_iff.1 member
  refine (Glob.proper_find proper known).legible_sources ?_ member
  rcases mem_roots_iff.1 started with ⟨-, rfl⟩ | ⟨entry, -, started⟩
  · exact legible
  · exact legible_rootsOf proper legible started

/-- What an entry leads to on the one disk it leads to on the other one, unless that is the file. -/
theorem mem_rootsOf_of_same (same : Disk.SameBut place disk disk') (proper : disk.root.Proper)
    {entry : String} (member : path ∈ (rootsOf disk base entry).1) :
    (∃ tree, disk.find path = .ok tree ∧ disk.location path = place ∧ tree.isDirectory = false) ∨
      path ∈ (rootsOf disk' base entry).1 := by
  -- A pattern finds directories only, and any other entry is one path.
  cases pattern : Glob.isPattern entry with
  | true =>
    obtain ⟨paths, known, member⟩ := (mem_rootsOf_pattern pattern).1 member
    obtain ⟨patterns, read, search⟩ := Glob.exists_of_directories known
    rw [search] at known
    cases known
    -- Directories are found all the same.
    obtain ⟨among, has⟩ := List.mem_filter.1 member
    have finds := (Glob.mem_searchFrom_iff.1 among).of_same same proper
      (Glob.single_of_searchedTexts read) (Glob.starts_startOf _) has
    rw [same.hasDirectory_eq] at has
    exact .inr ((mem_rootsOf_pattern pattern).2
      ⟨_, search disk', List.mem_filter.2 ⟨Glob.mem_searchFrom_iff.2 finds, has⟩⟩)
  | false =>
    obtain ⟨present, rfl⟩ := (mem_rootsOf_literal pattern).1 member
    obtain ⟨tree, known⟩ := Disk.contains_iff.1 present
    rcases same.exists_find known with ⟨here, file⟩ | ⟨tree', known', -⟩
    · exact .inl ⟨tree, known, here, file⟩
    · exact .inr ((mem_rootsOf_literal pattern).2 ⟨Disk.contains_of_find known', rfl⟩)

/-- So does a scan start at the same paths. -/
theorem mem_roots_of_same (same : Disk.SameBut place disk disk') (proper : disk.root.Proper)
    {includes : List String} (member : path ∈ (roots disk base includes).1) :
    (∃ tree, disk.find path = .ok tree ∧ disk.location path = place ∧ tree.isDirectory = false) ∨
      path ∈ (roots disk' base includes).1 := by
  -- A path that is no start any more is one that an entry has led to.
  rcases mem_roots_iff.1 member with here | ⟨entry, included, member⟩
  · exact .inr (mem_roots_iff.2 (.inl here))
  · exact (mem_rootsOf_of_same same proper member).imp_right fun found =>
      mem_roots_iff.2 (.inr ⟨entry, included, found⟩)

/-- What is found below a path on the one disk is found there on the other one, unless it is the
file. -/
theorem mem_walk_of_same (same : Disk.SameBut place disk disk') (proper : disk.root.Proper)
    (member : found ∈ (walk disk ignored path).1) :
    disk.location found = place ∨ found ∈ (walk disk' ignored path).1 := by
  -- Both walks go down trees that are the same but for the file.
  obtain ⟨tree, known, member⟩ := mem_walk_iff.1 member
  rcases same.exists_find known with ⟨here, file⟩ | ⟨tree', known', alike⟩
  · -- The path is that of the file, and nothing else is found there.
    exact .inl (FileTree.eq_of_mem_sources file member ▸ here)
  · rcases alike with rfl | ⟨rest, rfl, inside⟩
    · exact .inr (mem_walk_iff.2 ⟨tree, known', member⟩)
    · exact (inside.mem_sources (Glob.proper_find proper known) member).imp_right fun member =>
        mem_walk_iff.2 ⟨tree', known', member⟩

/-- A file that is found on the one disk is found on the other one, unless it is the one in which
they differ. -/
theorem mem_walked_of_same (same : Disk.SameBut place disk disk') (proper : disk.root.Proper)
    (member : found ∈ walked disk base settings) :
    disk.location found = place ∨ found ∈ walked disk' base settings := by
  -- The scan starts at the path of the file, or both scans start at the same one.
  rw [walked, List.mem_flatMap] at member ⊢
  obtain ⟨root, started, member⟩ := member
  rcases mem_roots_of_same same proper started with ⟨tree, known, here, file⟩ | started'
  · -- The walk starts at the file and finds nothing else.
    rw [walk, known] at member
    exact .inl (FileTree.eq_of_mem_sources file member ▸ here)
  · exact (mem_walk_of_same same proper member).imp_right fun member => ⟨root, started', member⟩

/-- A scan finds the files at the ends of its walks, in ascending order. -/
theorem files_eq {texts : List String} (ascending : texts.Pairwise (· < ·))
    (found : ((walked disk base settings).map Path.text).Perm texts) :
    (ofProject disk base settings).files = texts := by
  -- Both lists are in strictly ascending order, so that the members decide.
  refine List.Pairwise.eq_of_mem_iff (pairwise_sorted _) ascending fun file => ?_
  rw [mem_files, ← found.mem_iff, List.mem_map]

/-- The files that a scan finds elsewhere than at a place. -/
def elsewhere (scan : Scan) (disk : Disk) (place : List String) : List String :=
  scan.files.filter fun file => disk.location (Path.ofText file) ≠ place

/-- Scans find the same files on disks that are the same but for one, elsewhere than at its
place. -/
theorem elsewhere_eq (same : Disk.SameBut place disk disk') (proper : disk.root.Proper)
    (proper' : disk'.root.Proper) (legible : base.Legible) (settings : Settings) :
    (ofProject disk base settings).elsewhere disk place =
      (ofProject disk' base settings).elsewhere disk' place := by
  -- Both lists are in strictly ascending order, so that the members decide.
  have implies {disk disk' : Disk} (same : Disk.SameBut place disk disk')
      (proper : disk.root.Proper) {file : String}
      (member : file ∈ (ofProject disk base settings).elsewhere disk place) :
      file ∈ (ofProject disk' base settings).elsewhere disk' place := by
    obtain ⟨scanned, apart⟩ := List.mem_filter.1 member
    obtain ⟨path, found, rfl⟩ := mem_files.1 scanned
    have apart' := apart
    rw [(legible_walked proper legible found).ofText_text] at apart'
    have found' := (mem_walked_of_same same proper found).resolve_left (by simpa using apart')
    refine List.mem_filter.2 ⟨mem_files.2 ⟨path, found', rfl⟩, ?_⟩
    rw [← same.location_eq]
    exact apart
  refine List.Pairwise.eq_of_mem_iff ((pairwise_sorted _).filter _) ((pairwise_sorted _).filter _)
    fun file => ⟨implies same proper, implies same.symm proper'⟩

end Scan

/-- Only a source file is at a place in which disks differ. -/
theorem Disk.SameBut.location_entry_ne (same : Disk.SameBut place disk disk') (path : Path)
    {name : String} (named : IsName name) (other : Path.isSource ⟨false, [name]⟩ = false) :
    disk.location (path.entry name) ≠ place := by
  -- The path ends with the name of the entry, which is no name of a source file.
  obtain ⟨last, ends, source⟩ := same.source
  rw [disk.location_entry path named]
  rintro rfl
  rw [List.getLast?_concat] at ends
  obtain rfl := Option.some.inj ends
  rw [other] at source
  cases source

namespace Settings

/-- The file of settings is not the one in which disks differ. -/
theorem location_file_ne (same : Disk.SameBut place disk disk') (path : Path) :
    disk.location (path.entry fileName) ≠ place :=
  same.location_entry_ne path (by decide +kernel) (by decide +kernel)

/-- The first file of settings is the same one on both disks. -/
theorem firstFile?_of_same (same : Disk.SameBut place disk disk') (paths : List Path) :
    firstFile? disk paths = firstFile? disk' paths := by
  -- Neither the file of settings nor the mark of a repository is at the place.
  induction paths with
  | nil => rfl
  | cons path rest ih =>
    have repository : disk.location (path.entry ".git") ≠ place :=
      same.location_entry_ne path (by decide +kernel) (by decide +kernel)
    rw [firstFile?, firstFile?, same.contains_eq (location_file_ne same path),
      same.contains_eq repository, ih]

/-- It is in another place. -/
theorem location_ne_of_firstFile? (same : Disk.SameBut place disk disk') {paths : List Path}
    (known : firstFile? disk paths = some path) : disk.location path ≠ place := by
  -- The file that is found is one of those that are looked for.
  induction paths with
  | nil => cases known
  | cons other rest ih =>
    rw [firstFile?] at known
    split at known
    · exact Option.some.inj known ▸ location_file_ne same other
    · split at known
      · cases known
      · exact ih known

/-- The settings that hold for a directory do not hang on source files. -/
theorem load_of_same (same : Disk.SameBut place disk disk') (start : Path) :
    load disk start = load disk' start := by
  -- Both disks have the same first file, or none.
  rw [load, load, file?, file?, ← firstFile?_of_same same]
  cases known : firstFile? disk (ancestors start) with
  | none => rfl
  | some path =>
    -- The text of the file is the same, since it lies elsewhere.
    dsimp only
    rw [ofFile, ofFile, same.text?_eq (location_ne_of_firstFile? same known)]

end Settings

end PropCatalog
