import PropCatalog.Proofs.Glob.Search
import PropCatalog.Proofs.Scan.Walk
import PropCatalog.Scan.Basic

/-! Scans of one directory at two places: they find the same files, as they are named from there,
and leave out all that is ignored there, as long as ignored patterns match there what they match
behind the places. -/

namespace PropCatalog

open Path (Below Beside Filed)

/-! ## Settings -/

namespace Settings

/-- The patterns of paths to leave out. -/
def ignoredPatterns (settings : Settings) : List Glob.Pattern :=
  IgnoreSet.patternsOf
    (settings.ignores ++ if settings.ignoreTestFiles then testPatterns else [])

/-- Whether settings name paths below a directory only: nothing starts at the root, and what is
included leads nowhere up. -/
structure Inside (settings : Settings) : Prop where
  ignores : ∀ entry ∈ settings.ignores, (Path.ofText entry).rooted = false
  includes : ∀ entry ∈ settings.includes, (Path.ofText entry).rooted = false
  down : ∀ entry ∈ settings.includes, ".." ∉ (Path.ofText entry).segments
  downward : ∀ entry ∈ settings.includes, Glob.isPattern entry = true →
    ∀ segment ∈ (Path.ofText entry).segments, ∀ pattern,
      Glob.Pattern.ofText segment = .ok pattern → ".." ∉ Glob.specialNames pattern

/-- Whether the patterns of paths to leave out take no account of where a directory is: at two
places of it, they match the same, and what they match as it is named from there. -/
structure IgnoresPast (settings : Settings) (disk : Disk) (base base' : Path) : Prop where
  alike : ∀ pattern ∈ settings.ignoredPatterns, ∀ path path', Beside base base' path path' →
    disk.contains path = true → pattern.isMatch path.text = pattern.isMatch path'.text
  behind : ∀ pattern ∈ settings.ignoredPatterns, pattern.tokens.head? = some .anyComponents ∨
    ∀ path rel, disk.contains path = true → path.relativeTo? base = some rel →
      pattern.isMatch rel.text = true → pattern.isMatch path.text = true

end Settings

section

variable {disk disk' : Disk} {base base' path path' : Path} {tree : FileTree}
  {settings : Settings}

/-! ## What is left out -/

/-- The same is left out at corresponding paths. -/
theorem SamePlaces.ignored_eq (same : SamePlaces disk disk' base base' tree)
    (inside : settings.Inside) (past : settings.IgnoresPast disk base base')
    (beside : Beside base base' path path') (present : disk.contains path = true) :
    (IgnoreSet.ofEntries base settings.ignores settings.ignoreTestFiles).contains path =
      (IgnoreSet.ofEntries base' settings.ignores settings.ignoreTestFiles).contains path' := by
  -- What is left out by name is behind the place, and patterns are taken to match alike.
  obtain ⟨names, components, components'⟩ := same.components_eq beside
  rw [IgnoreSet.ofEntries_eq, IgnoreSet.ofEntries_eq, IgnoreSet.contains, IgnoreSet.contains]
  congr 1
  · refine any_eq_of_forall₂ (r := fun other other' => path.isWithin other = path'.isWithin other')
      (forall₂_map_self fun entry member => ?_) fun _ _ within => within
    have relative := inside.ignores entry (List.mem_of_mem_filter member)
    rw [same.place.isWithin_join relative components,
      same.place'.isWithin_join relative components']
  · exact any_eq_of_forall₂ (r := fun pattern pattern' =>
        pattern.isMatch path.text = pattern'.isMatch path'.text)
      (List.forall₂_same.2 fun pattern member => past.alike pattern member _ _ beside present)
      fun _ _ equal => equal

/-! ## Where scans start -/

/-- Entries lead from two places to corresponding paths. -/
theorem SamePlaces.rootsOf (same : SamePlaces disk disk' base base' tree) (inside : settings.Inside)
    {entry : String} (included : entry ∈ settings.includes)
    (plain : Glob.isPattern entry = true → Glob.Plain base ∧ Glob.Plain base') :
    List.Forall₂ (Beside base base') (Scan.rootsOf disk base entry).1
      (Scan.rootsOf disk' base' entry).1 := by
  -- A pattern finds corresponding directories behind plain places, and a name is one path.
  have relative := inside.includes entry included
  rw [Scan.rootsOf, Scan.rootsOf]
  by_cases pattern : Glob.isPattern entry = true
  · obtain ⟨plain, plain'⟩ := plain pattern
    have some : entry ≠ "" := by
      rintro rfl
      cases pattern
    have found := Glob.directories_below same plain plain' relative (Path.isPlace_ofText some)
      (inside.downward entry included pattern)
    rw [if_pos pattern, if_pos pattern]
    cases first : Glob.directories disk (base.join (Path.ofText entry)).text <;>
      cases second : Glob.directories disk' (base'.join (Path.ofText entry)).text <;>
      rw [first, second] at found <;> cases found
    · exact .nil
    · rename_i related
      exact related.imp fun _ _ => .below
  · have below : Beside base base' (base.join (Path.ofText entry))
        (base'.join (Path.ofText entry)) :=
      .below (.intro ⟨relative, inside.down entry included, Path.spelled_ofText entry⟩)
    rw [if_neg pattern, if_neg pattern]
    simp only [same.contains_eq below]
    split
    · exact .cons below .nil
    · exact .nil

/-- Scans of two places start at corresponding paths. -/
theorem SamePlaces.roots (same : SamePlaces disk disk' base base' tree) (inside : settings.Inside)
    (plain : ∀ entry ∈ settings.includes, Glob.isPattern entry = true →
      Glob.Plain base ∧ Glob.Plain base') :
    List.Forall₂ (Beside base base') (Scan.roots disk base settings.includes).1
      (Scan.roots disk' base' settings.includes).1 := by
  -- Without entries the places themselves are the roots; otherwise each entry has its own.
  rw [Scan.roots, Scan.roots]
  split
  · exact .cons .root .nil
  · dsimp only
    rw [List.flatMap_map, List.flatMap_map]
    exact forall₂_flatMap_self fun entry included =>
      same.rootsOf inside included (plain entry included)

/-! ## What is found -/

/-- Nothing gets lost when what follows itself is left out, and nothing is added. -/
theorem Scan.mem_eraseReps {text : String} {texts : List String} :
    text ∈ texts.eraseReps ↔ text ∈ texts := by
  -- The loop drops a text only where it has just kept the same one.
  have each (first : String) (rest earlier : List String) :
      text ∈ List.eraseRepsBy.loop (· == ·) first rest earlier ↔
        text ∈ earlier ∨ text = first ∨ text ∈ rest := by
    induction rest generalizing first earlier with
    | nil => simp [List.eraseRepsBy.loop, or_comm]
    | cons second rest ih =>
      rw [List.eraseRepsBy.loop]
      cases same : first == second with
      | true =>
        obtain rfl := eq_of_beq same
        rw [ih]
        simp
      | false =>
        rw [ih]
        simp only [List.mem_cons]
        grind
  cases texts with
  | nil => rfl
  | cons first rest => simp [List.eraseReps, List.eraseRepsBy, each]

/-- Sorting texts keeps them. -/
theorem Scan.mem_sorted {text : String} {texts : List String} :
    text ∈ Scan.sorted texts ↔ text ∈ texts := by
  rw [Scan.sorted, Scan.mem_eraseReps, List.mem_mergeSort]

/-- What is in ascending order is strictly so when what follows itself is left out. -/
theorem Scan.pairwise_eraseReps {texts : List String} (ascending : texts.Pairwise (· ≤ ·)) :
    texts.eraseReps.Pairwise (· < ·) := by
  -- The texts before are all below the one that is looked at.
  have each (first : String) (rest earlier : List String) (below : ∀ text ∈ earlier, text < first)
      (ordered : earlier.reverse.Pairwise (· < ·)) (ascending : (first :: rest).Pairwise (· ≤ ·)) :
      (List.eraseRepsBy.loop (· == ·) first rest earlier).Pairwise (· < ·) := by
    induction rest generalizing first earlier with
    | nil =>
      rw [List.eraseRepsBy.loop, List.reverse_cons, List.pairwise_append]
      exact ⟨ordered, List.pairwise_singleton _ _, by simpa using below⟩
    | cons second rest ih =>
      obtain ⟨least, later⟩ := List.pairwise_cons.1 ascending
      rw [List.eraseRepsBy.loop]
      cases same : first == second with
      | true =>
        obtain rfl := eq_of_beq same
        exact ih first earlier below ordered later
      | false =>
        have next : first < second :=
          lt_of_le_of_ne (least second List.mem_cons_self) (beq_eq_false_iff_ne.1 same)
        refine ih second (first :: earlier) (List.forall_mem_cons.2 ⟨next, fun text member => ?_⟩)
          ?_ later
        · exact (below text member).trans next
        · rw [List.reverse_cons, List.pairwise_append]
          exact ⟨ordered, List.pairwise_singleton _ _, by simpa using below⟩
  cases texts with
  | nil => exact List.Pairwise.nil
  | cons first rest => exact each first rest [] (by simp) .nil ascending

/-- Texts that are sorted are in ascending order, none of them twice. -/
theorem Scan.pairwise_sorted (texts : List String) : (Scan.sorted texts).Pairwise (· < ·) := by
  -- Repetitions in a sorted list follow each other, so that leaving these out is enough.
  refine Scan.pairwise_eraseReps ?_
  simpa using @List.pairwise_mergeSort String (fun a b => a ≤ b)
    (fun a b c => by simpa using le_trans) (fun a b => by simpa using le_total a b) texts

/-- The paths of files that a scan finds, in the order of their walks. -/
def Scan.walked (disk : Disk) (base : Path) (settings : Settings) : List Path :=
  (Scan.roots disk base settings.includes).1.flatMap fun path =>
    (Scan.walk disk (IgnoreSet.ofEntries base settings.ignores settings.ignoreTestFiles) path).1

/-- Scans of two places find corresponding files. -/
theorem SamePlaces.walked (same : SamePlaces disk disk' base base' tree) (inside : settings.Inside)
    (past : settings.IgnoresPast disk base base')
    (plain : ∀ entry ∈ settings.includes, Glob.isPattern entry = true →
      Glob.Plain base ∧ Glob.Plain base') :
    List.Forall₂
      (Filed disk (IgnoreSet.ofEntries base settings.ignores settings.ignoreTestFiles) base base')
      (Scan.walked disk base settings) (Scan.walked disk' base' settings) := by
  -- Corresponding roots lead to the same tree, and the walks of that correspond.
  refine List.rel_flatMap (same.roots inside plain) fun path path' beside => ?_
  rw [Scan.walk, Scan.walk, ← same.find_eq beside]
  cases found : disk.find path with
  | error cause => exact .nil
  | ok inner =>
    exact same.sources (fun _ _ => same.ignored_eq inside past) (same.proper_find beside found)
      beside found

/-- The paths of the files that a scan finds, as they are named from a directory. -/
def Scan.pathsFrom (scan : Scan) (base : Path) : List Path :=
  scan.files.filterMap fun file => (Path.ofText file).relativeTo? base

theorem Scan.mem_files {file : String} :
    file ∈ (Scan.ofProject disk base settings).files ↔
      ∃ path ∈ Scan.walked disk base settings, path.text = file := by
  -- Sorting neither adds nor loses files.
  rw [Scan.ofProject, Scan.mem_sorted, List.mem_map, List.flatMap_map]
  rfl

theorem Scan.mem_pathsFrom {rel : Path} :
    rel ∈ (Scan.ofProject disk base settings).pathsFrom base ↔
      ∃ path ∈ Scan.walked disk base settings,
        (Path.ofText path.text).relativeTo? base = some rel := by
  -- A file is found at a path and then named from the place.
  simp only [Scan.pathsFrom, List.mem_filterMap, Scan.mem_files]
  constructor
  · rintro ⟨_, ⟨path, walked, rfl⟩, named⟩
    exact ⟨path, walked, named⟩
  · rintro ⟨path, walked, named⟩
    exact ⟨_, ⟨path, walked, rfl⟩, named⟩

/-- Files that are found in the same way are named in the same way, and what they are named is not
to be left out. -/
theorem SamePlaces.named (same : SamePlaces disk disk' base base' tree) (inside : settings.Inside)
    (past : settings.IgnoresPast disk base base')
    (filed : Filed disk (IgnoreSet.ofEntries base settings.ignores settings.ignoreTestFiles)
      base base' path path') :
    ∃ rel, (Path.ofText path.text).relativeTo? base = some rel ∧
      (Path.ofText path'.text).relativeTo? base' = some rel ∧
      (∀ entry ∈ settings.ignores, Glob.isPattern entry = false →
        ¬ (Path.ofText entry).names <+: rel.names) ∧
      ∀ pattern ∈ settings.ignoredPatterns, pattern.isMatch rel.text = false := by
  -- The file is behind the place, and what is left out behind it leaves the name out.
  obtain ⟨stays, ends, present, kept⟩ := filed
  rename_i rel
  have named := same.place.relativeTo?_join stays.relative
  rw [IgnoreSet.ofEntries_eq, IgnoreSet.contains, Bool.or_eq_false_iff, List.any_eq_false,
    List.any_eq_false] at kept
  refine ⟨rel.trimmed, ?_, ?_, fun entry ignored literal within => ?_, fun pattern ignored => ?_⟩
  · rw [same.place.ofText_text_join stays ends, named]
  · rw [same.place'.ofText_text_join stays ends, same.place'.relativeTo?_join stays.relative]
  · -- The entry is a path behind the place, and the file would lie within that.
    refine kept.1 (base.join (Path.ofText entry)) ?_ ?_
    · exact List.mem_map_of_mem (List.mem_filter.2 ⟨ignored, by simp [literal]⟩)
    · rw [same.place.isWithin_join (inside.ignores entry ignored)
        (same.place.components_join stays.relative), List.isPrefixOf_iff_prefix,
        ← Path.names_trimmed rel]
      exact within
  · by_contra known
    rw [Bool.not_eq_false] at known
    -- What is matched behind a slash is matched with anything in front, if two stars come first.
    refine kept.2 pattern ignored ?_
    rcases past.behind pattern ignored with any | behind
    · obtain ⟨before, text⟩ : ∃ before, (base.join rel).text =
          before ++ "/" ++ rel.trimmed.text := by
        rw [same.place.text_join stays.relative]
        rcases ends.text_eq stays.relative with text | ⟨before, text⟩
        · exact ⟨_, by rw [text]⟩
        · exact ⟨base.before ++ "/" ++ before, by rw [text]; simp only [String.append_assoc]⟩
      rw [Glob.Pattern.isMatch, text, String.toList_append, String.toList_append,
        List.append_assoc]
      exact Glob.matchTokens_behind any known _
    · exact behind _ _ present named known

/-- Scans of one directory at two places find the same files, as they are named from there, and
none that is to be left out, as long as ignored patterns take no account of the place. -/
theorem Scan.pathsFrom_places (same : SamePlaces disk disk' base base' tree)
    (inside : settings.Inside) (past : settings.IgnoresPast disk base base')
    (plain : ∀ entry ∈ settings.includes, Glob.isPattern entry = true →
      Glob.Plain base ∧ Glob.Plain base') :
    (∀ rel, rel ∈ (Scan.ofProject disk base settings).pathsFrom base ↔
      rel ∈ (Scan.ofProject disk' base' settings).pathsFrom base') ∧
    (∀ file ∈ (Scan.ofProject disk base settings).files,
      ((Path.ofText file).relativeTo? base).isSome = true) ∧
    (∀ file ∈ (Scan.ofProject disk' base' settings).files,
      ((Path.ofText file).relativeTo? base').isSome = true) ∧
    ∀ rel ∈ (Scan.ofProject disk base settings).pathsFrom base,
      (∀ entry ∈ settings.ignores, Glob.isPattern entry = false →
        ¬ (Path.ofText entry).names <+: rel.names) ∧
      ∀ pattern ∈ settings.ignoredPatterns, pattern.isMatch rel.text = false := by
  -- Both scans walk to corresponding files, one after the other, and name them the same.
  have walked := (same.walked inside past plain).imp fun _ _ => same.named inside past
  simp only [Scan.mem_pathsFrom, Scan.mem_files]
  refine ⟨fun rel => ⟨?_, ?_⟩, ?_, ?_, ?_⟩
  · rintro ⟨path, found, named⟩
    obtain ⟨path', found', _, known, known', -⟩ := exists_mem_of_forall₂ walked found
    exact ⟨path', found', known'.trans (known.symm.trans named)⟩
  · rintro ⟨path', found', named⟩
    obtain ⟨path, found, _, known, known', -⟩ := exists_mem_of_forall₂ walked.flip found'
    exact ⟨path, found, known.trans (known'.symm.trans named)⟩
  · rintro _ ⟨path, found, rfl⟩
    obtain ⟨_, _, rel, known, -⟩ := exists_mem_of_forall₂ walked found
    rw [known]
    rfl
  · rintro _ ⟨path', found', rfl⟩
    obtain ⟨_, _, rel, -, known', -⟩ := exists_mem_of_forall₂ walked.flip found'
    rw [known']
    rfl
  · rintro rel ⟨path, found, named⟩
    obtain ⟨_, _, rel', known, -, literal, patterns⟩ := exists_mem_of_forall₂ walked found
    obtain rfl : rel' = rel := Option.some.inj (known.symm.trans named)
    exact ⟨literal, patterns⟩

end

/-! ## A project at two places -/

namespace Project

/-- A project with a generated file. -/
def tree : FileTree :=
  .directory
    [("src", .directory
      [("Button.jsx", .file (some "")), ("generated", .directory [("Icon.jsx", .file (some ""))])])]

/-- The project at two places. -/
def disk : Disk :=
  ⟨.directory [("app", tree), ("web", .directory [("app", tree)])], []⟩

/-- Settings with a path and patterns to leave out, and with a pattern of what is included. -/
def settings : Settings :=
  { Settings.standard with
    includes := ["s*"]
    ignores := ["src/generated", "**/node_modules/**"] }

theorem proper_generated : (FileTree.directory [("Icon.jsx", .file (some ""))]).Proper :=
  .directory (by decide +kernel) (by decide) (List.forall_mem_singleton.2 (.file _))

theorem proper : tree.Proper := by
  -- The directories are gone through from the root on.
  refine .directory (by decide +kernel) (by decide) (List.forall_mem_singleton.2 ?_)
  refine .directory (by decide +kernel) (by decide) (List.forall_mem_cons.2 ⟨.file _, ?_⟩)
  exact List.forall_mem_singleton.2 proper_generated

theorem samePlaces :
    SamePlaces disk disk (Path.ofText "app") (Path.ofText "web/app") tree where
  place := Path.isPlace_ofText (by decide)
  place' := Path.isPlace_ofText (by decide)
  found := rfl
  found' := rfl
  directory := rfl
  proper := proper

theorem inside : settings.Inside where
  ignores := by decide +kernel
  includes := by decide +kernel
  down := by decide +kernel
  downward := by
    have read : Glob.Pattern.ofText "s*" = .ok ⟨[.char 's', .anyText]⟩ := by decide +kernel
    have segments : (Path.ofText "s*").segments = ["s*"] := by decide +kernel
    intro entry included _ segment member pattern known
    obtain rfl := List.mem_singleton.1 included
    obtain rfl := List.mem_singleton.1 (segments ▸ member)
    obtain rfl := Except.ok.inj (read.symm.trans known)
    decide

theorem ignoredPatterns_eq : settings.ignoredPatterns =
    ⟨.anyComponents :: "node_modules/".toList.map .char ++ [.anyComponents]⟩ ::
      [".test.tsx", ".test.ts", ".test.jsx", ".test.js",
        ".spec.tsx", ".spec.ts", ".spec.jsx", ".spec.js"].map
        (fun ending => ⟨.anyComponents :: .anyText :: ending.toList.map .char⟩) ++
      [⟨.anyComponents :: "__tests__/".toList.map .char ++ [.anyComponents]⟩] := by
  decide +kernel

/-- The patterns match behind both places what they match alone. -/
theorem isMatch_behind : ∀ pattern ∈ settings.ignoredPatterns, ∀ text : String,
    pattern.isMatch ("app" ++ "/" ++ text) = pattern.isMatch text ∧
      pattern.isMatch ("web/app" ++ "/" ++ text) = pattern.isMatch text := by
  -- Each pattern starts with any components, so that what comes before the text is passed.
  rw [ignoredPatterns_eq]
  simp [Glob.Pattern.isMatch, Glob.matchTokens, Glob.afterSlashes, Glob.ends]

theorem ignoresPast :
    settings.IgnoresPast disk (Path.ofText "app") (Path.ofText "web/app") where
  alike := by
    -- A path is one of the places or behind it.
    rintro pattern ignored _ _ (_ | ⟨⟨stays⟩⟩) -
    · have alone : ∀ pattern ∈ settings.ignoredPatterns,
          pattern.isMatch (Path.ofText "app").text =
            pattern.isMatch (Path.ofText "web/app").text := by decide +kernel
      exact alone pattern ignored
    · have before : (Path.ofText "app").before = "app" := by decide +kernel
      have before' : (Path.ofText "web/app").before = "web/app" := by decide +kernel
      rw [samePlaces.place.text_join stays.relative, samePlaces.place'.text_join stays.relative,
        before, before']
      obtain ⟨behind, behind'⟩ := isMatch_behind pattern ignored _
      exact behind.trans behind'.symm
  behind := by
    have any : ∀ pattern ∈ settings.ignoredPatterns,
        pattern.tokens.head? = some .anyComponents := by decide +kernel
    exact fun pattern ignored => .inl (any pattern ignored)

end Project

/-- What is found at one place of the project is found at the other one. -/
theorem Scan.pathsFrom_places_app :
    Path.ofText "src/Button.jsx" ∈
      (Scan.ofProject Project.disk (Path.ofText "web/app") Project.settings).pathsFrom
        (Path.ofText "web/app") := by
  -- What is found at the one place is evaluated, and the other one is alike.
  have plain : Glob.Plain (Path.ofText "app") ∧ Glob.Plain (Path.ofText "web/app") :=
    ⟨⟨by decide +kernel, by decide +kernel, by decide +kernel⟩,
      ⟨by decide +kernel, by decide +kernel, by decide +kernel⟩⟩
  obtain ⟨alike, -⟩ := Scan.pathsFrom_places Project.samePlaces Project.inside Project.ignoresPast
    fun _ _ _ => plain
  exact (alike _).1 (by decide +kernel)

namespace Project

/-- The project in the current directory. -/
def here : Disk := ⟨tree, []⟩

/-- Settings that leave out generated files by a pattern without two stars in front. -/
def patternSettings : Settings :=
  { Settings.standard with ignores := ["src/generated/**"] }

theorem samePlaces_generated :
    SamePlaces here here (Path.ofText "src/generated") (Path.ofText "./src/generated")
      (.directory [("Icon.jsx", .file (some ""))]) where
  place := Path.isPlace_ofText (by decide)
  place' := Path.isPlace_ofText (by decide)
  found := rfl
  found' := rfl
  directory := rfl
  proper := proper_generated

end Project

/-- A pattern is matched with the place in front: what it matches in the current directory is found
all the same, and what is found in a directory hangs on how that is spelled. -/
theorem Scan.pathsFrom_generated :
    (∃ pattern ∈ Project.patternSettings.ignoredPatterns,
      pattern.isMatch "src/generated/Icon.jsx" = true) ∧
    Path.ofText "src/generated/Icon.jsx" ∈
      (Scan.ofProject Project.here (Path.ofText ".") Project.patternSettings).pathsFrom
        (Path.ofText ".") ∧
    SamePlaces Project.here Project.here (Path.ofText "src/generated")
      (Path.ofText "./src/generated") (.directory [("Icon.jsx", .file (some ""))]) ∧
    (Scan.ofProject Project.here (Path.ofText "src/generated") Project.patternSettings).pathsFrom
      (Path.ofText "src/generated") = [] ∧
    (Scan.ofProject Project.here (Path.ofText "./src/generated") Project.patternSettings).pathsFrom
      (Path.ofText "./src/generated") = [Path.ofText "Icon.jsx"] :=
  ⟨by decide +kernel,
    Scan.mem_pathsFrom.2
      ⟨Path.ofText "./src/generated/Icon.jsx", by decide +kernel, by decide +kernel⟩,
    Project.samePlaces_generated, by decide +kernel, by decide +kernel⟩

end PropCatalog
