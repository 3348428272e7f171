import PropCatalog.Proofs.Glob.Matching
import PropCatalog.Proofs.Scan.Finding

/-! Files of tests. A scan that leaves them out finds nothing below a directory of tests and no test
with an extension that the patterns know. Tests with another extension of source files are found as
any other file is. -/

namespace PropCatalog

section

variable {disk : Disk} {base path root : Path} {settings : Settings} {names : List String}

/-! ## Tests -/

/-- Whether a text ends as the name of a test does: with `test` or `spec`, between dots, and one of
some extensions. -/
def EndsAsTest (extensions : List String) (text : String) : Prop :=
  ∃ kind ∈ ["test", "spec"], ∃ extension ∈ extensions, ∃ stem,
    text = stem ++ ("." ++ kind ++ "." ++ extension)

/-- The extensions that the patterns of tests know. -/
def knownExtensions : List String := ["tsx", "ts", "jsx", "js"]

/-- The other extensions of source files. -/
def unknownExtensions : List String := ["mjs", "cjs", "mts", "cts"]

theorem mem_sourceExtensions_iff {extension : String} :
    extension ∈ sourceExtensions ↔
      extension ∈ knownExtensions ∨ extension ∈ unknownExtensions := by
  -- The two lists share out the extensions among them.
  simp only [sourceExtensions, knownExtensions, unknownExtensions, List.mem_cons, List.not_mem_nil,
    or_false]
  tauto

/-- Whether a file at a path is a test: it is below a directory of tests, or it is named as one. -/
def Path.IsTest (path : Path) : Prop :=
  "__tests__" ∈ path.segments.dropLast ∨
    ∃ name, path.fileName? = some name ∧ EndsAsTest sourceExtensions name

/-- Whether the patterns of tests know a path. -/
def Path.IsKnownTest (path : Path) : Prop :=
  "__tests__" ∈ path.segments.dropLast ∨ EndsAsTest knownExtensions path.text

/-! ## What the patterns match -/

/-- What a text ends with has its characters at the end. -/
theorem exists_stem_iff {text ending : String} :
    (∃ stem, text = stem ++ ending) ↔ ending.toList <:+ text.toList := by
  -- The stem has the characters that come before the ending.
  constructor
  · rintro ⟨stem, rfl⟩
    rw [String.toList_append]
    exact List.suffix_append _ _
  · rintro ⟨stem, known⟩
    refine ⟨String.ofList stem, String.toList_inj.1 ?_⟩
    rw [String.toList_append, String.toList_ofList, known]

instance (extensions : List String) (text : String) : Decidable (EndsAsTest extensions text) :=
  decidable_of_iff
    (∃ kind ∈ ["test", "spec"], ∃ extension ∈ extensions,
      ("." ++ kind ++ "." ++ extension).toList <:+ text.toList)
    (by simp only [EndsAsTest, exists_stem_iff])

/-- The segments of a path are the pieces of its text, apart from an empty one in front. -/
theorem Path.mem_dropLast_segments_iff {text name : String} (some : name ≠ "") :
    name ∈ (Path.ofText text).segments.dropLast ↔
      name.toList ∈ (splitSlashes text.toList).dropLast := by
  -- Only an empty text has no pieces, and only a leading empty piece is no segment.
  have pieces : name.toList ∈ (splitSlashes text.toList).dropLast ↔
      name ∈ ((splitSlashes text.toList).map String.ofList).dropLast := by
    rw [← List.map_dropLast, List.mem_map]
    constructor
    · exact fun member => ⟨_, member, String.ofList_toList⟩
    · rintro ⟨piece, member, rfl⟩
      rwa [String.toList_ofList]
  rw [pieces, Path.ofText]
  split
  · rename_i single
    simp [single, Path.empty]
  · rename_i root
    simp [root, some]
  · rename_i segments more _ known
    cases segments with
    | nil => simp [known]
    | cons segment rest => simp [known, some]
  · rfl

/-- The patterns of tests, as they are read. -/
theorem IgnoreSet.patternsOf_testPatterns :
    patternsOf testPatterns =
      (["test", "spec"].flatMap fun kind => knownExtensions.map fun extension =>
        ⟨.anyComponents :: .anyText :: ("." ++ kind ++ "." ++ extension).toList.map .char⟩) ++
      [⟨.anyComponents ::
        (("__tests__".toList ++ ['/']).map .char ++ [.anyComponents])⟩] := by
  decide +kernel

/-- Some pattern of tests matches the text of a path exactly when the patterns know it. -/
theorem Path.isKnownTest_iff (legible : path.Legible) :
    path.IsKnownTest ↔
      ∃ pattern ∈ IgnoreSet.patternsOf testPatterns, pattern.isMatch path.text = true := by
  -- The last pattern is for directories, the others are one for each kind and extension.
  have passing : "__tests__" ∈ path.segments.dropLast ↔
      "__tests__".toList ∈ (splitSlashes path.text.toList).dropLast := by
    rw [← mem_dropLast_segments_iff (by decide), legible.ofText_text]
  rw [IsKnownTest, passing, IgnoreSet.patternsOf_testPatterns]
  constructor
  · rintro (through | ⟨kind, tests, extension, known, ends⟩)
    · refine ⟨_, List.mem_append_right _ (List.mem_singleton_self _), ?_⟩
      exact (Glob.matchTokens_passing_iff (by decide)).2 through
    · refine ⟨_, List.mem_append_left _ (List.mem_flatMap.2 ⟨kind, tests, List.mem_map.2
        ⟨extension, known, rfl⟩⟩), ?_⟩
      exact Glob.matchTokens_ending_iff.2 (exists_stem_iff.1 ends)
  · rintro ⟨pattern, among, matched⟩
    rcases List.mem_append.1 among with ending | through
    · obtain ⟨kind, tests, ending⟩ := List.mem_flatMap.1 ending
      obtain ⟨extension, known, rfl⟩ := List.mem_map.1 ending
      exact .inr ⟨kind, tests, extension, known,
        exists_stem_iff.2 (Glob.matchTokens_ending_iff.1 matched)⟩
    · obtain rfl := List.mem_singleton.1 through
      exact .inl ((Glob.matchTokens_passing_iff (by decide)).1 matched)

/-! ## What is left out -/

/-- The settings with which tests are scanned, too. -/
def Settings.withTests (settings : Settings) : Settings :=
  { settings with ignoreTestFiles := false }

/-- Where tests are left out, what the patterns know as tests is left out besides all that is left
out else. -/
theorem Settings.leavesOut_withTests_iff (out : settings.ignoreTestFiles = true)
    (legible : path.Legible) :
    settings.LeavesOut base path ↔ settings.withTests.LeavesOut base path ∨ path.IsKnownTest := by
  -- An entry is one of the settings' own or one of those for tests.
  rw [Path.isKnownTest_iff legible]
  simp only [LeavesOut, withTests, out, if_true, Bool.false_eq_true, if_false, List.append_nil,
    IgnoreSet.mem_patternsOf]
  constructor
  · rintro (literal | ⟨entry, among, wild, pattern, read, matched⟩)
    · exact .inl (.inl literal)
    · rcases List.mem_append.1 among with own | test
      · exact .inl (.inr ⟨entry, own, wild, pattern, read, matched⟩)
      · exact .inr ⟨pattern, ⟨entry, test, wild, read⟩, matched⟩
  · rintro ((literal | ⟨entry, own, matched⟩) | ⟨pattern, ⟨entry, test, wild, read⟩, matched⟩)
    · exact .inl literal
    · exact .inr ⟨entry, List.mem_append_left _ own, matched⟩
    · exact .inr ⟨entry, List.mem_append_right _ test, wild, pattern, read, matched⟩

namespace Scan

/-- The paths where a scan starts are spelled by texts. -/
theorem legible_of_startsAt (proper : disk.root.Proper) (legible : base.Legible)
    (starts : StartsAt disk base settings root) : root.Legible := by
  -- A scan starts at the directory or where an entry leads.
  rcases mem_roots_iff.1 (mem_roots_iff_startsAt.2 starts) with ⟨-, rfl⟩ | ⟨entry, -, started⟩
  · exact legible
  · exact legible_rootsOf proper legible started

theorem legible_onward (legible : root.Legible) (named : ∀ name ∈ names, IsName name) :
    (root.onward names).Legible := by
  -- The names are entered one after the other.
  induction names generalizing root with
  | nil => exact legible
  | cons name rest ih =>
    obtain ⟨isName, others⟩ := List.forall_mem_cons.1 named
    exact ih (legible.entry isName) others

/-- A scan that leaves tests out reaches what it reaches with tests, as long as the patterns know
nothing on the way as a test. -/
theorem reaches_withTests_iff (proper : disk.root.Proper) (legible : base.Legible)
    (out : settings.ignoreTestFiles = true) :
    Reaches disk base settings root names ↔ Reaches disk base settings.withTests root names ∧
      ∀ above, above <+: names → ¬ (root.onward above).IsKnownTest := by
  -- What is left out on the way is left out by the other settings or known as a test.
  have way (starts : StartsAt disk base settings root) (named : ∀ name ∈ names, IsName name)
      {above : List String} (first : above <+: names) :
      settings.LeavesOut base (root.onward above) ↔
        settings.withTests.LeavesOut base (root.onward above) ∨
          (root.onward above).IsKnownTest :=
    Settings.leavesOut_withTests_iff out (legible_onward (legible_of_startsAt proper legible starts)
      fun name member => named name (first.subset member))
  constructor
  · rintro ⟨starts, present, named, file, source, kept⟩
    refine ⟨⟨starts, present, named, file, source, fun above first left => ?_⟩,
      fun above first known => ?_⟩
    · exact kept above first ((way starts named first).2 (.inl left))
    · exact kept above first ((way starts named first).2 (.inr known))
  · rintro ⟨⟨starts, present, named, file, source, kept⟩, unknown⟩
    refine ⟨starts, present, named, file, source, fun above first left => ?_⟩
    exact ((way starts named first).1 left).elim (kept above first) (unknown above first)

end Scan

/-! ## Names of files -/

/-- The path of a file does not end with a segment that names nothing. -/
theorem Disk.noisy_of_find {tree : FileTree} (known : disk.find path = .ok tree)
    (file : tree.isDirectory = false) {last : String} (ends : path.segments.getLast? = some last) :
    Path.isSilent last = false := by
  -- The last segment is entered from the tree that the ones before it lead to.
  obtain ⟨before, whole⟩ := List.getLast?_eq_some_iff.1 ends
  obtain ⟨above, leads⟩ := Disk.find_eq_ok known
  rw [whole, ← List.append_assoc, List.foldlM_append] at leads
  by_contra silent
  rw [Bool.not_eq_false] at silent
  cases first : ((if path.rooted then [] else disk.current) ++ before).foldlM enter [disk.root] with
  | error cause => simp [first, bind, Except.bind] at leads
  | ok trees =>
    -- Such a segment can only be passed in a directory, and stays there.
    cases trees with
    | nil => simp [first, enter, bind, Except.bind] at leads
    | cons here above' =>
      cases directory : here.isDirectory with
      | false => simp [first, enter, directory, bind, Except.bind] at leads
      | true =>
        simp [first, enter, directory, silent, bind, Except.bind, pure, Except.pure] at leads
        rw [leads.1, file] at directory
        cases directory

/-- The name of a file is the last segment of its path. -/
theorem Disk.getLast?_of_find {tree : FileTree} (known : disk.find path = .ok tree)
    (file : tree.isDirectory = false) {name : String} (ends : path.fileName? = some name) :
    path.segments.getLast? = some name := by
  -- A name that is not the last segment would have a silent segment behind it.
  have component : path.components.getLast? = some name ∧ name ≠ "/" ∧ name ≠ "." := by
    unfold Path.fileName? at ends
    split at ends <;> simp_all
  rw [Path.components_eq] at component
  cases last : path.segments.getLast? with
  | none =>
    -- Nothing but the root is named then.
    have none : path.segments = [] := List.getLast?_eq_none_iff.1 last
    cases rooted : path.rooted <;>
      simp [Path.names, Path.lead, Path.splitDot, none, rooted] at component
    exact absurd component.1.symm component.2.1
  | some segment =>
    obtain ⟨before, whole⟩ := List.getLast?_eq_some_iff.1 last
    have noisy := Disk.noisy_of_find known file last
    rw [Path.names, whole, List.filter_append, List.filter_singleton, noisy] at component
    simpa using component.1

/-- A path ends with its last segment. -/
theorem Path.exists_text_eq {last : String} (ends : path.segments.getLast? = some last) :
    ∃ before, path.text = before ++ last := by
  -- The segments are joined by slashes, with nothing behind the last one.
  obtain ⟨segments, whole⟩ := List.getLast?_eq_some_iff.1 ends
  have joined (segments : List String) :
      ∃ before, "/".intercalate (segments ++ [last]) = before ++ last := by
    induction segments with
    | nil => exact ⟨"", by simp⟩
    | cons first rest ih =>
      obtain ⟨before, known⟩ := ih
      obtain ⟨next, others, more⟩ := List.exists_cons_of_ne_nil
        (List.append_ne_nil_of_right_ne_nil rest (List.cons_ne_nil last []))
      refine ⟨first ++ "/" ++ before, ?_⟩
      rw [List.cons_append, more, String.intercalate_cons_cons, ← more, known]
      simp only [String.append_assoc]
  obtain ⟨before, known⟩ := joined segments
  exact ⟨_, by rw [Path.text, whole, known, ← String.append_assoc]⟩

/-- A file whose name ends as that of a test is at a path that ends so. -/
theorem Path.endsAsTest_text {extensions : List String} {name : String}
    (last : path.segments.getLast? = some name) (test : EndsAsTest extensions name) :
    EndsAsTest extensions path.text := by
  -- The name comes at the end of the path, with its own ending there.
  obtain ⟨before, whole⟩ := Path.exists_text_eq last
  obtain ⟨kind, tests, extension, known, stem, rfl⟩ := test
  exact ⟨kind, tests, extension, known, before ++ stem, whole.trans (String.append_assoc).symm⟩

/-! ## Places of files -/

/-- The names that a way adds are among its segments, in their order. -/
theorem drop_climb_sublist (segments names : List String) :
    ((segments.foldl climb names).reverse.drop names.length).Sublist segments := by
  -- The segments are climbed from the left, so that the induction takes them off at the end.
  induction segments using List.reverseRecOn with
  | nil => simp
  | append_singleton segments last ih =>
    rw [List.foldl_append, List.foldl_cons, List.foldl_nil, climb]
    split
    · exact ih.trans (List.sublist_append_left _ _)
    · split
      · -- Two dots take the last name away.
        exact ((List.tail_sublist _).reverse.drop _).trans
          (ih.trans (List.sublist_append_left _ _))
      · rw [List.reverse_cons, List.drop_append]
        exact ih.append (List.drop_sublist _ _)

/-- What comes before something else comes before the end. -/
theorem mem_dropLast_of_sublist {first next : String} {segments : List String}
    (ordered : [first, next].Sublist segments) : first ∈ segments.dropLast := by
  -- Taken apart at the last segment, the first of the two cannot be in the end alone.
  have some : segments ≠ [] := by
    rintro rfl
    cases ordered
  rw [← List.dropLast_append_getLast some] at ordered
  obtain ⟨front, back, whole, within, last⟩ := List.sublist_append_iff.1 ordered
  cases front with
  | nil =>
    -- Both of them would be the end.
    have length := last.length_le
    rw [← List.nil_append back, ← whole] at length
    simp at length
  | cons head front =>
    rw [(List.cons.inj whole).1]
    exact within.subset List.mem_cons_self

/-- Whether a path starts at the root or is spelled behind another one. -/
def Path.Follows (path base : Path) : Prop :=
  path.rooted = true ∨ path.rooted = base.rooted ∧ ∃ more, path.names = base.names ++ more

theorem Path.Follows.onward (follows : path.Follows base) (names : List String) :
    (path.onward names).Follows base := by
  -- Each name that is entered adds to what comes behind the base.
  induction names generalizing path with
  | nil => exact follows
  | cons name rest ih =>
    have rooted : (path.entry name).rooted = path.rooted := by rw [Path.entry_eq]
    refine ih ?_
    rcases follows with root | ⟨same, more, known⟩
    · exact .inl (rooted.trans root)
    · refine .inr ⟨rooted.trans same, more ++ Path.names ⟨false, [name]⟩, ?_⟩
      rw [Path.entry, Path.names_join path rfl, known, List.append_assoc]

/-- A path that is included by name starts at the root or is spelled behind the base. -/
theorem Scan.follows_of_startsAt (starts : StartsAt disk base settings root)
    (literal : ∀ entry ∈ settings.includes, Glob.isPattern entry = false) : root.Follows base := by
  -- Entries are joined to the base, unless they start at the root.
  rcases starts with ⟨-, rfl⟩ | ⟨entry, included, ⟨-, -, rfl⟩ | ⟨pattern, -⟩⟩
  · exact .inr ⟨rfl, [], (List.append_nil _).symm⟩
  · cases rooted : (Path.ofText entry).rooted with
    | true =>
      refine .inl ?_
      rw [Path.join, if_pos rooted]
      exact rooted
    | false =>
      refine .inr ⟨?_, _, Path.names_join base rooted⟩
      rw [Path.join_eq base rooted]
  · rw [literal entry included] at pattern
    cases pattern

/-- A directory below the base is on the way of a path when it is not on the way to where the path
starts. -/
theorem Disk.mem_dropLast_of_location {name next : String} {above rest : List String}
    (away : name ∉ disk.current ∨ path.Follows base)
    (located : disk.location path = disk.location base ++ (above ++ name :: next :: rest)) :
    name ∈ path.segments.dropLast := by
  -- From a start without the name, both names are those of segments.
  have ordered : [name, next].Sublist (above ++ name :: next :: rest) :=
    (List.prefix_append [name, next] rest).sublist.trans (List.sublist_append_right _ _)
  have absent {start : List String} (none : name ∉ start)
      (whole : disk.location path = ((start ++ path.segments).foldl climb []).reverse) :
      name ∈ path.segments.dropLast := by
    have inside := drop_climb_sublist (start ++ path.segments) []
    rw [← whole, located] at inside
    obtain ⟨front, back, both, first, last⟩ :=
      List.sublist_append_iff.1 (ordered.trans ((List.sublist_append_right _ _).trans inside))
    cases front with
    | nil =>
      rw [List.nil_append] at both
      exact mem_dropLast_of_sublist (both ▸ last)
    | cons head front =>
      rw [← (List.cons.inj both).1] at first
      exact absurd (first.subset List.mem_cons_self) none
  cases rooted : path.rooted with
  | true => exact @absent [] (by simp) (by rw [location, rooted, if_pos rfl])
  | false =>
    rcases away with current | root | ⟨same, more, known⟩
    · exact absent current (by rw [location, rooted, if_neg Bool.false_ne_true])
    · rw [rooted] at root
      cases root
    · -- Behind the base, the names are added to those of the base.
      have behind :
          disk.location path = (more.foldl climb (disk.location base).reverse).reverse := by
        rw [location, location, List.reverse_reverse, ← same, rooted, if_neg Bool.false_ne_true,
          List.foldl_append, List.foldl_append, foldl_climb_filter path.segments,
          foldl_climb_filter base.segments, ← Path.names, ← Path.names, known, List.foldl_append]
      have inside := drop_climb_sublist more (disk.location base).reverse
      rw [← behind, located, List.length_reverse, List.drop_left] at inside
      have among : more.Sublist path.names := known ▸ List.sublist_append_right _ _
      exact mem_dropLast_of_sublist
        (ordered.trans (inside.trans (among.trans List.filter_sublist)))

/-! ## Tests that are found -/

namespace Scan

/-- A file that is reached has no directory of tests above it and is no test with an extension that
the patterns know. -/
theorem Reaches.isTest_iff (reached : Reaches disk base settings root names)
    (unknown : ¬ (root.onward names).IsKnownTest) :
    (root.onward names).IsTest ↔ ∃ name, (root.onward names).fileName? = some name ∧
      EndsAsTest unknownExtensions name := by
  -- It is a test by its name, and with an extension that the patterns do not know.
  obtain ⟨text, found⟩ := reached.file
  constructor
  · rintro (below | ⟨name, ends, kind, tests, extension, source, stem⟩)
    · exact absurd (.inl below) unknown
    · -- The path of a file ends with its name, so that the patterns see how that ends.
      refine ⟨name, ends, kind, tests, extension, ?_, stem⟩
      refine (mem_sourceExtensions_iff.1 source).resolve_left fun known => unknown (.inr ?_)
      exact Path.endsAsTest_text (Disk.getLast?_of_find found rfl ends)
        ⟨kind, tests, extension, known, stem⟩
  · rintro ⟨name, ends, kind, tests, extension, other, stem⟩
    exact .inr ⟨name, ends, kind, tests, extension, mem_sourceExtensions_iff.2 (.inr other), stem⟩

/-- A scan that leaves tests out finds no test exactly when it finds none with an extension that
the patterns do not know. It finds what a scan with tests finds on ways without known tests, so
that nothing is below a directory of tests, neither as it is spelled nor, unless a pattern is
searched for from within such a directory, by its place. -/
theorem files_testless_iff (proper : disk.root.Proper) (legible : base.Legible)
    (out : settings.ignoreTestFiles = true) :
    ((∀ file ∈ (ofProject disk base settings).files, ¬ (Path.ofText file).IsTest) ↔
      ∀ file ∈ (ofProject disk base settings).files, ∀ name,
        (Path.ofText file).fileName? = some name → ¬ EndsAsTest unknownExtensions name) ∧
    (∀ file, file ∈ (ofProject disk base settings).files ↔
      ∃ root names, Reaches disk base settings.withTests root names ∧
        (∀ above, above <+: names → ¬ (root.onward above).IsKnownTest) ∧
        file = (root.onward names).text) ∧
    (∀ file ∈ (ofProject disk base settings).files,
      "__tests__" ∉ (Path.ofText file).segments.dropLast) ∧
    (("__tests__" ∉ disk.current ∨ ∀ entry ∈ settings.includes, Glob.isPattern entry = false) →
      ∀ file ∈ (ofProject disk base settings).files, ∀ above below,
        disk.location (Path.ofText file) = disk.location base ++ (above ++ "__tests__" :: below) →
          below = []) := by
  -- What is found is at the end of a way that the patterns know nothing on.
  have found (file : String) : file ∈ (ofProject disk base settings).files ↔
      ∃ root names, Reaches disk base settings.withTests root names ∧
        (∀ above, above <+: names → ¬ (root.onward above).IsKnownTest) ∧
        file = (root.onward names).text := by
    simp only [(files_reached proper).2, reaches_withTests_iff proper legible out, and_assoc]
  have spelled {root : Path} {names : List String}
      (reached : Reaches disk base settings.withTests root names) :
      Path.ofText (root.onward names).text = root.onward names :=
    (legible_onward (legible_of_startsAt proper legible reached.starts) reached.named).ofText_text
  have above (file : String) (member : file ∈ (ofProject disk base settings).files) :
      "__tests__" ∉ (Path.ofText file).segments.dropLast := by
    obtain ⟨root, names, reached, unknown, rfl⟩ := (found file).1 member
    rw [spelled reached]
    exact fun below => unknown names (List.prefix_refl _) (.inl below)
  refine ⟨?_, found, above, fun away file member front below located => ?_⟩
  · -- File by file, being a test comes down to the extension.
    refine forall₂_congr fun file member => ?_
    obtain ⟨root, names, reached, unknown, rfl⟩ := (found file).1 member
    rw [spelled reached, reached.isTest_iff (unknown names (List.prefix_refl _))]
    simp only [not_exists, not_and]
  · cases below with
    | nil => rfl
    | cons next rest =>
      -- The path would be spelled with the directory in it.
      refine absurd (Disk.mem_dropLast_of_location (away.imp_right fun literal => ?_) located)
        (above file member)
      obtain ⟨root, names, reached, -, rfl⟩ := (found file).1 member
      rw [spelled reached]
      exact (follows_of_startsAt reached.starts literal).onward names

end Scan

end

namespace Tested

/-- A project with a component, tests of it and what they share. -/
def tree : FileTree :=
  .directory
    [("Button.mjs", .file (some "")), ("Button.test.js", .file (some "")),
      ("__tests__", .directory [("render.js", .file (some ""))])]

/-- The project in the current directory. -/
def disk : Disk := ⟨tree, []⟩

theorem proper : tree.Proper := by
  -- The directories are gone through from the root on.
  refine .directory (by decide +kernel) (by decide) (List.forall_mem_cons.2 ⟨.file _, ?_⟩)
  refine List.forall_mem_cons.2 ⟨.file _, List.forall_mem_singleton.2 ?_⟩
  exact .directory (by decide +kernel) (by decide) (List.forall_mem_singleton.2 (.file _))

theorem walked : Scan.walked disk (Path.ofText ".") .standard = [Path.ofText "./Button.mjs"] := by
  decide +kernel

end Tested

/-- Of the project, the component is found and no test. -/
theorem Scan.files_testless_iff_known :
    "./Button.mjs" ∈ (Scan.ofProject Tested.disk (Path.ofText ".") .standard).files ∧
      ∀ file ∈ (Scan.ofProject Tested.disk (Path.ofText ".") .standard).files,
        ¬ (Path.ofText file).IsTest ∧
          ∀ above below, Tested.disk.location (Path.ofText file) =
            Tested.disk.location (Path.ofText ".") ++ (above ++ "__tests__" :: below) →
              below = [] := by
  -- One file is found, the component.
  have testless := @Scan.files_testless_iff Tested.disk (Path.ofText ".") .standard Tested.proper
    (Path.legible_ofText ".") rfl
  have component : "./Button.mjs" ∈
      (Scan.ofProject Tested.disk (Path.ofText ".") .standard).files := by
    refine Scan.mem_files.2 ⟨Path.ofText "./Button.mjs", ?_, by decide +kernel⟩
    rw [Tested.walked]
    exact List.mem_singleton_self _
  refine ⟨component, fun file found => ⟨testless.1.2 (fun file found => ?_) file found,
    testless.2.2.2 (.inl (by decide)) file found⟩⟩
  -- The component is all that is found, and it is no test.
  obtain ⟨path, member, rfl⟩ := Scan.mem_files.1 found
  rw [Tested.walked, List.mem_singleton] at member
  subst member
  have name : (Path.ofText (Path.ofText "./Button.mjs").text).fileName? = some "Button.mjs" := by
    decide +kernel
  rw [name]
  rintro _ ⟨⟩
  decide +kernel

/-- Where the files of a project have an extension that the patterns do not know, its tests are
found. -/
theorem Scan.files_testless_iff_modules :
    "./Button.test.mjs" ∈
      (Scan.ofProject ⟨.directory
        [("Button.mjs", .file (some "")), ("Button.test.mjs", .file (some ""))], []⟩
        (Path.ofText ".") .standard).files ∧
      (Path.ofText "./Button.test.mjs").IsTest :=
  ⟨Scan.mem_files.2 ⟨Path.ofText "./Button.test.mjs", by decide +kernel, by decide +kernel⟩,
    .inr ⟨"Button.test.mjs", by decide +kernel, "test", by decide, "mjs", by decide, "Button",
      by decide⟩⟩

end PropCatalog
