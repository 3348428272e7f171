import PropCatalog.Catalog.Building
import PropCatalog.Proofs.Scan.Difference

/-! Whether a scan finds a file under one path only, and whether files are reported under paths of
their own: the paths that a scan starts at decide, as they are spelled. -/

namespace PropCatalog

variable {disk : Disk} {base path found : Path} {settings : Settings} {ignored : IgnoreSet}

namespace Scan

/-- What is found below a path is so under names. -/
theorem down_of_mem_walk (proper : disk.root.Proper)
    (member : found ∈ (walk disk ignored path).1) :
    ∃ names, (∀ name ∈ names, IsName name) ∧ found = path.down names := by
  -- The path is that of the file itself, or names lead down to it.
  obtain ⟨tree, known, member⟩ := mem_walk_iff.1 member
  have inside := Glob.proper_find proper known
  rcases inside.of_mem_sources member with ⟨file, rfl⟩ | ⟨inner, below⟩
  · exact ⟨[], by simp, (Disk.down_nil_of_find known file).symm⟩
  · obtain ⟨names, -, named, same⟩ := Glob.down_of_descendants inside below
    exact ⟨names, named, same⟩

/-! ## Files that are found once -/

/-- Whether the paths that a scan starts at are spelled alike: where one file is found below two of
them, one path continues the other. -/
def Aligned (disk : Disk) (base : Path) (settings : Settings) : Prop :=
  ∀ root ∈ (roots disk base settings.includes).1, ∀ root' ∈ (roots disk base settings.includes).1,
    ∀ found ∈ (walk disk (IgnoreSet.ofEntries base settings.ignores settings.ignoreTestFiles)
      root).1,
    ∀ found' ∈ (walk disk (IgnoreSet.ofEntries base settings.ignores settings.ignoreTestFiles)
      root').1,
    disk.location found = disk.location found' → root.Continues root' ∨ root'.Continues root

/-- A scan finds each file once exactly when the paths that it starts at are spelled alike. -/
theorem aligned_iff (proper : disk.root.Proper) (legible : base.Legible) :
    Aligned disk base settings ↔
      ∀ file ∈ (ofProject disk base settings).files, ∀ file' ∈ (ofProject disk base settings).files,
        disk.location (Path.ofText file) = disk.location (Path.ofText file') → file = file' := by
  -- A file is read back from its text, so that paths and texts can be exchanged.
  have read {path : Path} (member : path ∈ walked disk base settings) :
      Path.ofText path.text = path := (legible_walked proper legible member).ofText_text
  constructor
  · -- Below one path, the place of a file tells the names that lead to it.
    intro aligned file scanned file' scanned' same
    obtain ⟨found, member, rfl⟩ := mem_files.1 scanned
    obtain ⟨found', member', rfl⟩ := mem_files.1 scanned'
    rw [read member, read member'] at same
    obtain ⟨root, started, member⟩ := List.mem_flatMap.1 member
    obtain ⟨root', started', member'⟩ := List.mem_flatMap.1 member'
    have continued := aligned root started root' started' found member found' member' same
    obtain ⟨names, named, rfl⟩ := down_of_mem_walk proper member
    obtain ⟨names', named', rfl⟩ := down_of_mem_walk proper member'
    rcases continued with first | second
    · rw [disk.down_eq_of_continues first named named' same]
    · rw [disk.down_eq_of_continues second named' named same.symm]
  · -- The file has one path, that names both of the starts.
    intro once root started root' started' found member found' member' same
    have walked : found ∈ walked disk base settings := List.mem_flatMap.2 ⟨root, started, member⟩
    have walked' : found' ∈ Scan.walked disk base settings :=
      List.mem_flatMap.2 ⟨root', started', member'⟩
    have texts := once _ (mem_files.2 ⟨found, walked, rfl⟩) _ (mem_files.2 ⟨found', walked', rfl⟩)
      (by rw [read walked, read walked', same])
    have paths : found = found' := by rw [← read walked, texts, read walked']
    obtain ⟨names, named, rfl⟩ := down_of_mem_walk proper member
    obtain ⟨names', named', known⟩ := down_of_mem_walk proper member'
    exact Path.continues_of_down named named' (paths.trans known)

end Scan

/-! ## Paths that are reported -/

/-- A path as it lies below the directory of the project, or as it is. -/
def shownPath (base : Path) (text : String) : Path :=
  ((Path.ofText text).relativeTo? base).getD (Path.ofText text)

/-- Without backslashes, the path of a file is reported as it is. -/
theorem reportedPath_eq {text : String} (plain : '\\' ∉ (shownPath base text).text.toList) :
    reportedPath base text = (shownPath base text).text := by
  -- No character is replaced.
  have kept : (shownPath base text).text.toList.map (fun c => if c == '\\' then '/' else c) =
      (shownPath base text).text.toList := by
    refine (List.map_congr_left fun c member => ?_).trans (List.map_id _)
    have differs : c ≠ '\\' := fun same => plain (same ▸ member)
    simp [differs]
  exact (congrArg String.ofList kept).trans String.ofList_toList

theorem legible_shownPath (place : base.IsPlace) (text : String) :
    (shownPath base text).Legible := by
  -- The path is what is left of the file's own, or that itself.
  rw [shownPath]
  cases known : (Path.ofText text).relativeTo? base with
  | none => exact Path.legible_ofText text
  | some rel => exact (Path.legible_ofText text).relativeTo? place.components_ne_nil known

/-- So files that are reported under one path are shown under one. -/
theorem shownPath_eq_of_reportedPath (place : base.IsPlace) {text text' : String}
    (plain : '\\' ∉ (shownPath base text).text.toList)
    (plain' : '\\' ∉ (shownPath base text').text.toList)
    (same : reportedPath base text = reportedPath base text') :
    shownPath base text = shownPath base text' := by
  -- Both texts are read back as the paths that are shown.
  rw [reportedPath_eq plain, reportedPath_eq plain'] at same
  rw [← (legible_shownPath place text).ofText_text, same,
    (legible_shownPath place text').ofText_text]

/-- What is shown of a file outside the directory is its whole path. -/
theorem shownPath_of_outside {text : String} (outside : (Path.ofText text).isWithin base = false) :
    shownPath base text = Path.ofText text := by
  rw [shownPath, Path.relativeTo?, if_neg (by simp [outside]), Option.getD_none]

/-- What is shown of a file within the directory follows the components of that. -/
theorem components_of_within (place : base.IsPlace) {text : String}
    (within : (Path.ofText text).isWithin base = true) :
    (Path.ofText text).components = base.components ++ (shownPath base text).names := by
  -- Within the directory, the path is relative to that.
  cases known : (Path.ofText text).relativeTo? base with
  | none =>
    rw [Path.relativeTo?, if_pos within] at known
    split at known <;> cases known
  | some rel =>
    rw [shownPath, known, Option.getD_some]
    exact Path.components_of_relativeTo? place.components_ne_nil known

/-- Files that are shown under one path are in one place, unless one of them is within the directory
of the project as it is spelled and the other one is not. -/
theorem location_eq_of_shownPath (disk : Disk) (place : base.IsPlace) {text text' : String}
    (alike : (Path.ofText text).isWithin base = (Path.ofText text').isWithin base)
    (same : shownPath base text = shownPath base text') :
    disk.location (Path.ofText text) = disk.location (Path.ofText text') := by
  -- Outside, the path itself is shown; within, it follows the directory.
  cases within : (Path.ofText text).isWithin base with
  | false =>
    rw [shownPath_of_outside within, shownPath_of_outside (alike ▸ within)] at same
    rw [same]
  | true =>
    refine disk.location_eq_of_components (Path.legible_ofText text) (Path.legible_ofText text') ?_
    rw [components_of_within place within, components_of_within place (alike ▸ within), same]

/-! ## Settings that are spelled straight -/

/-- Whether what is included is spelled by names only, behind a directory that a search keeps as it
is spelled. A search of the current directory drops the dot, so that nothing else may keep it. -/
structure Settings.Straight (settings : Settings) (base : Path) : Prop where
  relative : ∀ entry ∈ settings.includes, (Path.ofText entry).rooted = false
  named : ∀ entry ∈ settings.includes, Glob.isPattern entry = false →
    ∀ segment ∈ (Path.ofText entry).front, IsName segment
  wild : ∀ entry ∈ settings.includes, Glob.isPattern entry = true →
    ∀ segment ∈ (Path.ofText entry).front, ∀ pattern,
      Glob.Pattern.ofText segment = .ok pattern → pattern.Named
  plain : (∃ entry ∈ settings.includes, Glob.isPattern entry = true) → Glob.Plain base ∨
    base = Glob.here ∧ ∀ entry ∈ settings.includes, Glob.isPattern entry = true

namespace Glob

/-- Patterns that are read from components lead down when each of them does. -/
theorem named_of_texts {texts : List String} {patterns : List Pattern}
    (read : List.Forall₂ (fun segment pattern => Pattern.ofText segment = .ok pattern)
      texts patterns)
    (named : ∀ segment ∈ texts, ∀ pattern, Pattern.ofText segment = .ok pattern → pattern.Named) :
    ∀ pattern ∈ patterns, pattern.Named := by
  -- Each pattern has been read from one of the texts.
  intro pattern among
  obtain ⟨segment, present, here⟩ := exists_mem_of_forall₂ read.flip among
  exact named segment present pattern here

/-- What patterns behind a plain directory find continues the directory. -/
theorem continues_of_plain {tree : FileTree} (proper : disk.root.Proper)
    (known : disk.find base = .ok tree) (directory : tree.isDirectory = true)
    (place : base.IsPlace) (plain : Plain base) {rel : Path} (relative : rel.rooted = false)
    (spelled : ∀ segment ∈ rel.segments, '/' ∉ segment.toList)
    (named : ∀ segment ∈ rel.front, ∀ pattern, Pattern.ofText segment = .ok pattern →
      pattern.Named) {paths : List Path}
    (searched : directories disk (base.join rel).text = .ok paths) (member : found ∈ paths) :
    base.Continues found := by
  -- Behind the plain directory, the search is that of the patterns alone.
  have away := @components_ne_here_of_head? (bare base)
    (plain.passed_starts (List.append_nil _).symm)
  have front : (bare base).front = base.front := plain.front_passed (List.append_nil _).symm _
  rw [directories_join known directory place plain relative spelled] at searched
  cases whole : Pattern.ofText (base.join rel).text with
  | error cause => simp [whole, bind, Except.bind] at searched
  | ok pattern =>
    cases components : rel.front.mapM Pattern.ofText with
    | error cause => simp [whole, components, bind, Except.bind] at searched
    | ok patterns =>
      -- Each pattern takes the search down by one name at least.
      simp only [whole, components, bind, Except.bind, pure, Except.pure] at searched
      cases searched
      have finds := mem_searchFrom_iff.1 (List.mem_of_mem_filter member)
      rcases finds.down proper (named_of_texts (forall₂_of_mapM_ok components) named) with
        ⟨-, rfl⟩ | ⟨names, some, isName, rfl⟩
      · exact ⟨[], by simp, rfl, by rw [front, List.append_nil]⟩
      · rw [baseOf_eq away]
        exact ⟨names, isName, rfl, by rw [Path.front_down _ isName some, front]⟩

/-- What patterns behind the dot find is spelled by names alone. -/
theorem continues_of_here (proper : disk.root.Proper) {rel : Path} (relative : rel.rooted = false)
    (place : rel.IsPlace)
    (named : ∀ segment ∈ rel.front, ∀ pattern, Pattern.ofText segment = .ok pattern →
      pattern.Named) {paths : List Path}
    (searched : directories disk (here.join rel).text = .ok paths) (member : found ∈ paths) :
    Path.empty.Continues found := by
  -- The pattern starts with the dot, which the search passes without spelling it.
  have rooted : (here.join rel).rooted = false := by rw [Path.join_eq here relative, here]
  have front : (here.join rel).front = "." :: rel.front := Path.front_join here relative
  have texts : componentTexts (here.join rel).text = "." :: rel.front := by
    rw [componentTexts_text ?_ ?_, rooted, front]
    · rfl
    · intro segment member
      rcases Path.mem_join relative member with first | second | rfl
      · obtain rfl := List.mem_singleton.1 first
        decide
      · exact place.spelled segment second
      · simp
    · refine .inr fun none => ?_
      simp [Path.front, none] at front
  obtain ⟨patterns, read, search⟩ := exists_of_directories searched
  have other : ¬ (componentTexts (here.join rel).text).head? = some "" := by simp [texts]
  rw [searchedTexts, if_neg other, texts] at read
  obtain ⟨dot, rest, known, behind, rfl⟩ := List.forall₂_cons_left_iff.1 read
  obtain rfl : dot = ⟨[.char '.']⟩ := Except.ok.inj (known.symm.trans (by decide +kernel))
  obtain rfl := Except.ok.inj (searched.symm.trans (search disk))
  rw [startOf, if_neg other] at member
  -- The dot leads to the current directory, which is then spelled without it.
  have current : entryOf here "." = here := by decide +kernel
  have some : rest ≠ [] := by
    rintro rfl
    obtain ⟨first, others, known, -⟩ := place.front_cons relative
    rw [List.forall₂_nil_right_iff.1 behind] at known
    cases known
  cases mem_searchFrom_iff.1 (List.mem_of_mem_filter member) with
  | name stands present later =>
    obtain rfl := Option.some.inj (stands.symm.trans (by decide +kernel : _ = Option.some "."))
    rw [current] at later
    rcases later.down proper (named_of_texts behind named) with
      ⟨none, -⟩ | ⟨names, some, isName, rfl⟩
    · exact absurd none some
    · exact ⟨names, isName, rfl, Path.front_down _ isName some⟩
  | entry wild => cases wild
  | special wild => cases wild
  | all wild => cases wild
  | again wild => cases wild
  | behind wild => cases wild

end Glob

namespace Scan

/-- What is found below paths that continue one path is below that. -/
theorem down_of_mem_walked (proper : disk.root.Proper) {start : Path}
    (continues : ∀ root ∈ (roots disk base settings.includes).1, start.Continues root)
    (member : found ∈ walked disk base settings) :
    ∃ names, (∀ name ∈ names, IsName name) ∧ found = start.down names := by
  -- The path is below a root, and the root continues the start.
  obtain ⟨root, started, member⟩ := List.mem_flatMap.1 member
  obtain ⟨more, named, rfl⟩ := down_of_mem_walk proper member
  exact (continues root started).exists_down named

/-- Paths that continue one path are spelled alike. -/
theorem aligned_of_continues (proper : disk.root.Proper) (legible : base.Legible) {start : Path}
    (continues : ∀ root ∈ (roots disk base settings.includes).1, start.Continues root) :
    Aligned disk base settings := by
  -- It is enough that files in one place are one file.
  refine (aligned_iff proper legible).2 fun file scanned file' scanned' same => ?_
  obtain ⟨found, member, rfl⟩ := mem_files.1 scanned
  obtain ⟨found', member', rfl⟩ := mem_files.1 scanned'
  rw [(legible_walked proper legible member).ofText_text,
    (legible_walked proper legible member').ofText_text] at same
  -- Both files are below the one path, and their place tells the names.
  obtain ⟨names, named, rfl⟩ := down_of_mem_walked proper continues member
  obtain ⟨names', named', rfl⟩ := down_of_mem_walked proper continues member'
  rw [disk.location_down start named, disk.location_down start named'] at same
  rw [List.append_cancel_left same]

end Scan

namespace Settings.Straight

/-- What is included by a name continues the directory. -/
theorem continues_of_literal (straight : settings.Straight base) {entry : String}
    (included : entry ∈ settings.includes) (literal : Glob.isPattern entry = false)
    (member : path ∈ (Scan.rootsOf disk base entry).1) : base.Continues path := by
  -- The root is the entry joined to the directory.
  have relative := straight.relative entry included
  obtain ⟨-, rfl⟩ := (Scan.mem_rootsOf_literal literal).1 member
  refine ⟨(Path.ofText entry).front, straight.named entry included literal, ?_,
    Path.front_join base relative⟩
  rw [Path.join_eq base relative]

/-- What is included by a pattern continues a plain directory, or nothing where the search starts at
the dot. -/
theorem continues_of_pattern (straight : settings.Straight base) (proper : disk.root.Proper)
    (place : base.IsPlace) (has : disk.hasDirectory base = true) {entry : String}
    (included : entry ∈ settings.includes) (pattern : Glob.isPattern entry = true)
    (member : path ∈ (Scan.rootsOf disk base entry).1) :
    (Glob.Plain base → base.Continues path) ∧ (base = Glob.here → Path.empty.Continues path) := by
  -- The entry has found the root among the directories that its pattern matches.
  obtain ⟨tree, known, directory⟩ := Disk.hasDirectory_iff.1 has
  have relative := straight.relative entry included
  have named := straight.wild entry included pattern
  obtain ⟨paths, searched, found⟩ := (Scan.mem_rootsOf_pattern pattern).1 member
  constructor
  · intro plain
    exact Glob.continues_of_plain proper known directory place plain relative
      (Path.spelled_ofText entry) named searched found
  · rintro rfl
    have some : entry ≠ "" := by
      rintro rfl
      cases pattern
    exact Glob.continues_of_here proper relative (Path.isPlace_ofText some) named searched found

/-- What is included by names only is spelled like one path with names behind it: the directory, or
nothing where a search has dropped the dot. -/
theorem exists_start (straight : settings.Straight base) (proper : disk.root.Proper)
    (place : base.IsPlace) (has : disk.hasDirectory base = true) :
    ∃ start, (start = base ∨ base = Glob.here ∧ start = .empty) ∧
      ∀ root ∈ (Scan.roots disk base settings.includes).1, start.Continues root := by
  -- Only patterns behind a directory that is not plain can drop the dot.
  by_cases plain : (∃ entry ∈ settings.includes, Glob.isPattern entry = true) → Glob.Plain base
  · refine ⟨base, .inl rfl, fun root started => ?_⟩
    rcases Scan.mem_roots_iff.1 started with ⟨-, rfl⟩ | ⟨entry, included, member⟩
    · exact ⟨[], by simp, rfl, (List.append_nil _).symm⟩
    · cases pattern : Glob.isPattern entry with
      | false => exact straight.continues_of_literal included pattern member
      | true =>
        exact (straight.continues_of_pattern proper place has included pattern member).1
          (plain ⟨entry, included, pattern⟩)
  · -- All entries are patterns then, and each search drops the dot.
    obtain ⟨some, rough⟩ := Classical.not_imp.1 plain
    obtain ⟨here, all⟩ := (straight.plain some).resolve_left rough
    refine ⟨.empty, .inr ⟨here, rfl⟩, fun root started => ?_⟩
    rcases Scan.mem_roots_iff.1 started with ⟨none, -⟩ | ⟨entry, included, member⟩
    · obtain ⟨entry, included, -⟩ := some
      simp [none] at included
    · exact (straight.continues_of_pattern proper place has included (all entry included)
        member).2 here

end Settings.Straight

/-- Below a place, paths name the place and then the names. -/
theorem Path.IsPlace.isWithin_down {names : List String} (place : base.IsPlace) :
    (base.down names).isWithin base = true := by
  -- Names behind the directory leave its lead as it is, and follow its own names.
  have lead : (base.down names).lead = base.lead := by
    cases rooted : base.rooted with
    | true => simp [Path.lead, Path.splitDot, Path.down, rooted]
    | false =>
      obtain ⟨first, rest, front, head, -⟩ := place.front_cons rooted
      rw [Path.lead_of_relative rooted, @Path.lead_of_relative (base.down names) rooted,
        Path.down, front, head]
      rfl
  rw [Path.isWithin, List.isPrefixOf_iff_prefix, Path.components_eq, Path.components_eq, lead,
    Path.down, Path.names, Path.names, List.filter_append, base.names_front]
  exact ⟨_, List.append_assoc _ _ _⟩

/-- The files of such a scan are all within the directory as it is spelled, or none is. -/
theorem Settings.Straight.isWithin_eq (straight : settings.Straight base)
    (proper : disk.root.Proper) (place : base.IsPlace) (has : disk.hasDirectory base = true)
    {path' : Path} (found : path ∈ Scan.walked disk base settings)
    (found' : path' ∈ Scan.walked disk base settings) :
    path.isWithin base = path'.isWithin base := by
  -- Both files are below one start, which is the directory or has dropped the dot.
  obtain ⟨start, known, continues⟩ := straight.exists_start proper place has
  obtain ⟨names, named, rfl⟩ := Scan.down_of_mem_walked proper continues found
  obtain ⟨names', named', rfl⟩ := Scan.down_of_mem_walked proper continues found'
  rcases known with rfl | ⟨rfl, rfl⟩
  · rw [place.isWithin_down, place.isWithin_down]
  · -- Without the dot in front, nothing is within the dot.
    have outside {names : List String} (named : ∀ name ∈ names, IsName name) :
        (Path.empty.down names).isWithin Glob.here = false := by
      have noDot : "." ∉ names := fun member => absurd (named "." member).noisy (by decide)
      have kept : (Path.empty.down names).names = names :=
        List.filter_eq_self.2 fun name member => by simp [(named name member).noisy]
      have noLead : (Path.empty.down names).lead = [] := by
        rw [@Path.lead_of_relative (Path.empty.down names) rfl, if_neg]
        exact fun dot => noDot (List.mem_of_head? dot)
      by_contra within
      rw [Bool.not_eq_false, Path.isWithin, List.isPrefixOf_iff_prefix,
        (Path.empty.down names).components_eq, noLead, kept] at within
      exact noDot (within.subset (by decide))
    rw [outside named, outside named']

end PropCatalog
