import PropCatalog.Proofs.Scan.Difference

/-! Which files a scan finds: those that some way from where it starts leads to, with nothing on it
that is to be left out. A walk turns back at what is left out and never sees what is below that, so
that all of the way counts. -/

namespace PropCatalog

section

variable {disk : Disk} {base path found : Path} {settings : Settings} {ignored : IgnoreSet}
  {tree inner : FileTree} {names : List String}

/-! ## Ways down -/

/-- The path of what names lead down to from a path, which is kept as it is spelled. -/
def Path.onward (path : Path) (names : List String) : Path :=
  names.foldl Path.entry path

@[simp]
theorem Path.onward_nil (path : Path) : path.onward [] = path := rfl

@[simp]
theorem Path.onward_cons (path : Path) (name : String) (names : List String) :
    path.onward (name :: names) = (path.entry name).onward names := rfl

namespace FileTree

/-! ## Walks -/

/-- A walk finds a file at its own path, unless that is left out or names no source file. -/
theorem mem_sources_file {text : Option String} :
    found ∈ (file text).sources ignored path ↔
      ignored.contains path = false ∧ path.isSource = true ∧ found = path := by
  -- The path is left out or not, and it names a source file or not.
  rw [sources]
  cases ignored.contains path <;> cases path.isSource <;> simp

/-- Below a directory, a walk finds what is found below its entries, unless the directory is left
out. -/
theorem mem_sources_directory {entries : List (String × FileTree)} :
    found ∈ (directory entries).sources ignored path ↔
      ignored.contains path = false ∧
        ∃ entry ∈ entries, found ∈ entry.2.sources ignored (path.entry entry.1) := by
  -- The directory is left out or not.
  rw [sources, sourcesIn_eq]
  cases ignored.contains path <;> simp

/-- From a directory, a name leads on to the entry of that name only. -/
theorem follow_cons_iff {entries : List (String × FileTree)}
    (proper : (directory entries).Proper) {name : String} (named : IsName name) :
    (directory entries).follow (name :: names) = .ok inner ↔
      ∃ entry ∈ entries, entry.1 = name ∧ entry.2.follow names = .ok inner := by
  -- The entry that the name leads to is the first one of that name.
  rw [follow, if_neg (by simp [isDirectory]), if_neg (by simp [named.noisy])]
  constructor
  · intro leads
    split at leads
    · rename_i child known
      exact ⟨(name, child), mem_of_lookup known, rfl, leads⟩
    · cases leads
  · -- No other entry can come first, as each has a name of its own.
    rintro ⟨⟨_, child⟩, member, rfl, leads⟩
    rw [proper.child?_eq member]
    exact leads

/-- Whether names lead down from a tree to a source file, and nothing on the way from its path is
left out, the path and the file included. -/
structure Clear (ignored : IgnoreSet) (path : Path) (tree : FileTree) (names : List String) :
    Prop where
  named : ∀ name ∈ names, IsName name
  file : ∃ text, tree.follow names = .ok (.file text)
  source : (path.onward names).isSource = true
  kept : ∀ above, above <+: names → ignored.contains (path.onward above) = false

/-- From a file, the only way is the one that ends there. -/
theorem clear_file_iff {text : Option String} :
    Clear ignored path (file text) names ↔
      names = [] ∧ ignored.contains path = false ∧ path.isSource = true := by
  -- A file has no entries, so that no name leads on from it.
  constructor
  · rintro ⟨-, ⟨_, leads⟩, source, kept⟩
    cases names with
    | nil => exact ⟨rfl, kept [] (List.nil_prefix), source⟩
    | cons => simp [follow, isDirectory] at leads
  · rintro ⟨rfl, kept, source⟩
    refine ⟨by simp, ⟨text, rfl⟩, source, fun above first => ?_⟩
    rw [List.prefix_nil.1 first]
    exact kept

/-- From a directory, a way is clear when the directory is not left out and the way goes on from
an entry. -/
theorem clear_directory_iff {entries : List (String × FileTree)}
    (proper : (directory entries).Proper) :
    Clear ignored path (directory entries) names ↔
      ignored.contains path = false ∧ ∃ entry ∈ entries, ∃ rest, names = entry.1 :: rest ∧
        Clear ignored (path.entry entry.1) entry.2 rest := by
  -- The first name of the way is that of an entry, and the rest goes on from there.
  constructor
  · rintro ⟨named, ⟨text, leads⟩, source, kept⟩
    cases names with
    | nil =>
      -- A directory is no file itself.
      cases leads
    | cons name rest =>
      obtain ⟨isName, others⟩ := List.forall_mem_cons.1 named
      obtain ⟨entry, member, rfl, onward⟩ := (follow_cons_iff proper isName).1 leads
      exact ⟨kept [] List.nil_prefix, entry, member, rest, rfl, others, ⟨text, onward⟩, source,
        fun above first => kept _ (List.cons_prefix_cons.2 ⟨rfl, first⟩)⟩
  · rintro ⟨here, entry, member, rest, rfl, ⟨named, ⟨text, leads⟩, source, kept⟩⟩
    have isName : IsName entry.1 := by
      cases proper with
      | directory names => exact names entry member
    refine ⟨List.forall_mem_cons.2 ⟨isName, named⟩,
      ⟨text, (follow_cons_iff proper isName).2 ⟨entry, member, rfl, leads⟩⟩, source,
      fun above first => ?_⟩
    -- What is on the way is the directory, or it is on the way from the entry.
    rcases List.prefix_cons_iff.1 first with rfl | ⟨others, rfl, later⟩
    · exact here
    · exact kept others later

/-- A walk finds what clear ways lead to, and nothing else. -/
theorem Proper.mem_sources_iff (proper : tree.Proper) :
    found ∈ tree.sources ignored path ↔
      ∃ names, Clear ignored path tree names ∧ found = path.onward names := by
  -- The ways from a directory are those from its entries, with a name in front.
  induction proper generalizing path with
  | file text =>
    rw [mem_sources_file]
    constructor
    · rintro ⟨kept, source, rfl⟩
      exact ⟨[], clear_file_iff.2 ⟨rfl, kept, source⟩, rfl⟩
    · rintro ⟨names, clear, rfl⟩
      obtain ⟨rfl, kept, source⟩ := clear_file_iff.1 clear
      exact ⟨kept, source, rfl⟩
  | directory named distinct proper ih =>
    have whole := Proper.directory named distinct proper
    rw [mem_sources_directory]
    constructor
    · rintro ⟨kept, entry, member, below⟩
      obtain ⟨rest, clear, rfl⟩ := (ih entry member).1 below
      exact ⟨entry.1 :: rest,
        (clear_directory_iff whole).2 ⟨kept, entry, member, rest, rfl, clear⟩, rfl⟩
    · rintro ⟨names, clear, rfl⟩
      obtain ⟨kept, entry, member, rest, rfl, later⟩ := (clear_directory_iff whole).1 clear
      exact ⟨kept, entry, member, (ih entry member).2 ⟨rest, later, rfl⟩⟩

end FileTree

namespace Disk

/-! ## Ways on a disk -/

/-- Names add to where a path leads. -/
theorem location_onward (disk : Disk) (path : Path) (named : ∀ name ∈ names, IsName name) :
    disk.location (path.onward names) = disk.location path ++ names := by
  -- The names are entered one after the other.
  induction names generalizing path with
  | nil => rw [Path.onward_nil, List.append_nil]
  | cons name rest ih =>
    obtain ⟨isName, others⟩ := List.forall_mem_cons.1 named
    rw [Path.onward_cons, ih _ others, disk.location_entry path isName, List.append_assoc]
    rfl

/-- What is found further down is what names lead to from the tree at a path. -/
theorem find_onward_iff (proper : disk.root.Proper) (found : disk.find path = .ok tree)
    (named : ∀ name ∈ names, IsName name) :
    disk.find (path.onward names) = .ok inner ↔ tree.follow names = .ok inner := by
  -- Downwards, each name leads to an entry of the tree that has been reached.
  constructor
  · -- From the root, the names of the path come first, and they lead to the tree.
    intro further
    have leads := follow_location further
    rw [disk.location_onward path named, FileTree.follow_append (follow_location found)] at leads
    exact leads
  · intro leads
    induction names generalizing path tree with
    | nil => exact Except.ok.inj leads ▸ found
    | cons name rest ih =>
      obtain ⟨isName, others⟩ := List.forall_mem_cons.1 named
      cases tree with
      | file => simp [FileTree.follow, FileTree.isDirectory] at leads
      | directory entries =>
        have inside := Glob.proper_find proper found
        obtain ⟨entry, member, rfl, onward⟩ := (FileTree.follow_cons_iff inside isName).1 leads
        exact ih (find_entry found inside member) others onward

end Disk

/-! ## What is left out -/

/-- Whether settings leave a path out: when it names what an ignored path names or something below
that, or when an ignored pattern matches it as it is spelled. -/
def Settings.LeavesOut (settings : Settings) (base path : Path) : Prop :=
  (∃ entry ∈ settings.ignores, Glob.isPattern entry = false ∧
    (base.join (Path.ofText entry)).components <+: path.components) ∨
  ∃ entry ∈ settings.ignores ++ if settings.ignoreTestFiles then testPatterns else [],
    Glob.isPattern entry = true ∧
      ∃ pattern, Glob.Pattern.ofText entry = .ok pattern ∧ pattern.isMatch path.text = true

/-- The paths to leave out are spelled behind the base by the entries that are no patterns. -/
theorem IgnoreSet.mem_basesOf {entries : List String} :
    path ∈ basesOf base entries ↔
      ∃ entry ∈ entries, Glob.isPattern entry = false ∧ base.join (Path.ofText entry) = path := by
  simp [basesOf, and_assoc]

/-- The patterns to leave out are those of the entries that can be read as patterns. -/
theorem IgnoreSet.mem_patternsOf {entries : List String} {pattern : Glob.Pattern} :
    pattern ∈ patternsOf entries ↔
      ∃ entry ∈ entries, Glob.isPattern entry = true ∧
        Glob.Pattern.ofText entry = .ok pattern := by
  -- An entry that cannot be read as a pattern is dropped.
  have read (entry : String) : (Glob.Pattern.ofText entry).toOption = some pattern ↔
      Glob.Pattern.ofText entry = .ok pattern := by
    cases Glob.Pattern.ofText entry <;> simp [Except.toOption]
  simp [patternsOf, and_assoc, read]

/-- The set of what is ignored contains what the settings leave out. -/
theorem Settings.leavesOut_iff :
    settings.LeavesOut base path ↔
      (IgnoreSet.ofEntries base settings.ignores settings.ignoreTestFiles).contains path =
        true := by
  -- The literal entries stand for the first part, the patterns for the second one.
  rw [IgnoreSet.ofEntries_eq, IgnoreSet.contains, Bool.or_eq_true, List.any_eq_true,
    List.any_eq_true]
  simp only [IgnoreSet.mem_basesOf, IgnoreSet.mem_patternsOf, LeavesOut, Path.isWithin,
    List.isPrefixOf_iff_prefix]
  constructor
  · rintro (⟨entry, ignored, literal, within⟩ | ⟨entry, ignored, wild, pattern, read, known⟩)
    · exact .inl ⟨_, ⟨entry, ignored, literal, rfl⟩, within⟩
    · exact .inr ⟨pattern, ⟨entry, ignored, wild, read⟩, known⟩
  · rintro (⟨_, ⟨entry, ignored, literal, rfl⟩, within⟩ |
      ⟨pattern, ⟨entry, ignored, wild, read⟩, known⟩)
    · exact .inl ⟨entry, ignored, literal, within⟩
    · exact .inr ⟨entry, ignored, wild, pattern, read, known⟩

namespace Scan

/-! ## What a scan finds -/

/-- Whether a scan starts at a path: at the directory of the project when nothing is included by
name, and else at each included path that is there and at each directory that an included pattern
finds. -/
def StartsAt (disk : Disk) (base : Path) (settings : Settings) (root : Path) : Prop :=
  settings.includes = [] ∧ root = base ∨
  ∃ entry ∈ settings.includes,
    Glob.isPattern entry = false ∧ disk.contains root = true ∧
      root = base.join (Path.ofText entry) ∨
    Glob.isPattern entry = true ∧ ∃ paths,
      Glob.directories disk (base.join (Path.ofText entry)).text = .ok paths ∧ root ∈ paths

/-- The paths that a scan looks below are those where it starts. -/
theorem mem_roots_iff_startsAt :
    path ∈ (roots disk base settings.includes).1 ↔ StartsAt disk base settings path := by
  -- An entry is a name or a pattern.
  rw [mem_roots_iff, StartsAt]
  refine or_congr_right (exists_congr fun entry => and_congr_right fun _ => ?_)
  cases pattern : Glob.isPattern entry with
  | false => simp [mem_rootsOf_literal pattern]
  | true => simp [mem_rootsOf_pattern pattern]

/-- Whether names lead down to a source file from a path where a scan starts, and nothing on the way
is to be left out, the path and the file included. -/
structure Reaches (disk : Disk) (base : Path) (settings : Settings) (root : Path)
    (names : List String) : Prop where
  starts : StartsAt disk base settings root
  present : disk.contains root = true
  named : ∀ name ∈ names, IsName name
  file : ∃ text, disk.find (root.onward names) = .ok (.file text)
  source : (root.onward names).isSource = true
  kept : ∀ above, above <+: names → ¬ settings.LeavesOut base (root.onward above)

/-- What a scan reaches is at the end of a clear way from the tree where it starts. -/
theorem reaches_iff (proper : disk.root.Proper) {root : Path} :
    Reaches disk base settings root names ↔
      StartsAt disk base settings root ∧ ∃ tree, disk.find root = .ok tree ∧
        FileTree.Clear (IgnoreSet.ofEntries base settings.ignores settings.ignoreTestFiles) root
          tree names := by
  -- The tree is what the disk has at the start, and what is left out is the same in both terms.
  constructor
  · rintro ⟨starts, present, named, ⟨text, leads⟩, source, kept⟩
    obtain ⟨tree, known⟩ := Disk.contains_iff.1 present
    refine ⟨starts, tree, known, named, ⟨text, (Disk.find_onward_iff proper known named).1 leads⟩,
      source, fun above first => ?_⟩
    exact Bool.eq_false_iff.2 fun left => kept above first (Settings.leavesOut_iff.2 left)
  · rintro ⟨starts, tree, known, named, ⟨text, leads⟩, source, kept⟩
    refine ⟨starts, Disk.contains_of_find known, named,
      ⟨text, (Disk.find_onward_iff proper known named).2 leads⟩, source, fun above first left => ?_⟩
    exact Bool.eq_false_iff.1 (kept above first) (Settings.leavesOut_iff.1 left)

/-- A walk that starts at a path finds what names reach from there. -/
theorem mem_walked_iff (proper : disk.root.Proper) :
    found ∈ walked disk base settings ↔
      ∃ root names, Reaches disk base settings root names ∧ found = root.onward names := by
  -- Each start has its own walk, which finds what clear ways lead to.
  simp only [walked, List.mem_flatMap, mem_roots_iff_startsAt, mem_walk_iff, reaches_iff proper]
  constructor
  · rintro ⟨root, starts, tree, known, member⟩
    obtain ⟨names, clear, rfl⟩ := (Glob.proper_find proper known).mem_sources_iff.1 member
    exact ⟨root, names, ⟨starts, tree, known, clear⟩, rfl⟩
  · rintro ⟨root, names, ⟨starts, tree, known, clear⟩, rfl⟩
    exact ⟨root, starts, tree, known,
      (Glob.proper_find proper known).mem_sources_iff.2 ⟨names, clear, rfl⟩⟩

/-- A scan lists, each once and in order, the source files that names reach from some path where it
starts, and no others. -/
theorem files_reached (proper : disk.root.Proper) :
    (ofProject disk base settings).files.Pairwise (· < ·) ∧
      ∀ file, file ∈ (ofProject disk base settings).files ↔
        ∃ root names, Reaches disk base settings root names ∧
          file = (root.onward names).text := by
  -- Sorting keeps the members of the walks, and the members of a walk are known.
  refine ⟨pairwise_sorted _, fun file => ?_⟩
  simp only [mem_files, mem_walked_iff proper]
  constructor
  · rintro ⟨_, ⟨root, names, reached, rfl⟩, rfl⟩
    exact ⟨root, names, reached, rfl⟩
  · rintro ⟨root, names, reached, rfl⟩
    exact ⟨_, ⟨root, names, reached, rfl⟩, rfl⟩

end Scan

end

/-! ## Starts below each other -/

namespace Overlapping

/-- A library with a part of its own and with an old file. -/
def library : FileTree :=
  .directory
    [("ui", .directory [("Button.tsx", .file (some "")), ("Button.test.tsx", .file (some ""))]),
      ("old", .directory [("Link.jsx", .file (some ""))])]

def disk : Disk := ⟨.directory [("lib", library)], []⟩

/-- Settings that include the library and its part, by name and by a pattern, and leave out the
library by a pattern. -/
def settings : Settings :=
  { Settings.standard with
    includes := ["lib", "lib/ui", "lib/*"]
    ignores := ["./li?", "lib/old"] }

theorem proper : disk.root.Proper := by
  -- The directories are gone through from the root on.
  refine .directory (by decide +kernel) (by decide) (List.forall_mem_singleton.2 ?_)
  refine .directory (by decide +kernel) (by decide) (List.forall_mem_cons.2 ⟨?_, ?_⟩)
  · exact .directory (by decide +kernel) (by decide)
      (List.forall_mem_cons.2 ⟨.file _, List.forall_mem_singleton.2 (.file _)⟩)
  · refine List.forall_mem_singleton.2 (.directory (by decide +kernel) (by decide) ?_)
    exact List.forall_mem_singleton.2 (.file _)

/-- The part of the library is not left out, and neither is the file in it. -/
theorem reaches : Scan.Reaches disk (Path.ofText ".") settings (Path.ofText "./lib/ui")
    ["Button.tsx"] where
  starts := .inr ⟨"lib/ui", by decide, .inl (by decide +kernel)⟩
  present := by decide +kernel
  named := by decide +kernel
  file := ⟨some "", by rfl⟩
  source := by decide +kernel
  kept above first := by
    -- There is nothing above the file but the start itself.
    rw [Settings.leavesOut_iff]
    rcases List.prefix_cons_iff.1 first with rfl | ⟨rest, rfl, later⟩
    · decide +kernel
    · obtain rfl := List.prefix_nil.1 later
      decide +kernel

end Overlapping

/-- What is left out below one start is found below another one that comes after what is left
out. -/
theorem Scan.files_reached_overlapping :
    Overlapping.settings.LeavesOut (Path.ofText ".") (Path.ofText "./lib") ∧
      "./lib/ui/Button.tsx" ∈
        (Scan.ofProject Overlapping.disk (Path.ofText ".") Overlapping.settings).files := by
  -- The file is reached from the second start.
  refine ⟨Settings.leavesOut_iff.2 (by decide +kernel), ?_⟩
  rw [(Scan.files_reached Overlapping.proper).2]
  exact ⟨_, _, Overlapping.reaches, by decide +kernel⟩

end PropCatalog
