import PropCatalog.Proofs.Disk.Ancestors
import PropCatalog.Settings.Loading

/-! Which settings file holds for a directory: the one in the nearest directory above it that has
one, unless the root of a repository is nearer. -/

namespace PropCatalog

namespace Settings

/-- The directories that are searched in a number of steps are those above the first one, in their
order. -/
theorem getElem?_ancestorsWithin (steps : Nat) (path : Path) (count : Nat) :
    (ancestorsWithin steps path)[count]? = if count ≤ steps then path.above? count else none := by
  -- A step takes the last component of the path away, and the others start from what is left.
  induction steps generalizing path count with
  | zero => cases count <;> simp [ancestorsWithin, Path.above?]
  | succ steps ih =>
    rw [ancestorsWithin]
    cases count with
    | zero => split <;> simp [Path.above?]
    | succ count =>
      rw [Path.above?_succ]
      split
      · rename_i parent known
        rw [List.getElem?_cons_succ, ih, known]
        simp
      · rename_i last
        simp [last]

/-- All directories above a path are searched, and no others. -/
theorem getElem?_ancestors (path : Path) (count : Nat) :
    (ancestors path)[count]? = path.above? count := by
  -- The search stops when nothing can be taken away any more.
  rw [ancestors, getElem?_ancestorsWithin]
  split
  · rfl
  · -- A path has no more components than segments.
    have dot : path.splitDot.1.length ≤ 1 := by
      rw [Path.splitDot_fst]
      split <;> simp
    have names : path.names.length ≤ path.segments.length := List.length_filter_le _ _
    have removable : path.removable.length < count := by
      rw [Path.removable, List.length_append]
      omega
    exact (path.above?_eq_none count removable).symm

/-- The search ends at a settings file or at the root of a repository, and goes on otherwise. -/
theorem firstFile?_cons (disk : Disk) (path : Path) (rest : List Path) :
    firstFile? disk (path :: rest) =
      if fileName ∈ disk.listing path then some (path.entry fileName)
      else if ".git" ∈ disk.listing path then none
      else firstFile? disk rest := by
  -- Both are names of entries, so the disk has them where they are listed.
  have file : IsName fileName := by decide
  have git : IsName ".git" := by decide
  rw [firstFile?]
  simp only [disk.contains_entry_iff path file, disk.contains_entry_iff path git]

/-- Whether a directory has a settings file and is the first of some directories that has one, with
no root of a repository in front of it. -/
structure IsFirst (disk : Disk) (paths : Nat → Option Path) (count : Nat) (directory : Path) :
    Prop where
  known : paths count = some directory
  has : fileName ∈ disk.listing directory
  first : ∀ fewer < count, ∀ nearer, paths fewer = some nearer →
    fileName ∉ disk.listing nearer ∧ ".git" ∉ disk.listing nearer

/-- What is searched first decides, unless it has neither a settings file nor a repository. -/
theorem isFirst_cons_iff {disk : Disk} {path : Path} {rest : List Path} {count : Nat}
    {directory : Path} :
    IsFirst disk ((path :: rest)[·]?) count directory ↔
      (count = 0 ∧ directory = path ∧ fileName ∈ disk.listing path) ∨
      (fileName ∉ disk.listing path ∧ ".git" ∉ disk.listing path ∧
        ∃ fewer, count = fewer + 1 ∧ IsFirst disk (rest[·]?) fewer directory) := by
  -- The directory is the path itself, or it comes after the path and the path has nothing.
  constructor
  · rintro ⟨known, has, first⟩
    cases count with
    | zero =>
      obtain rfl : path = directory := by simpa using known
      exact .inl ⟨rfl, rfl, has⟩
    | succ count =>
      obtain ⟨file, git⟩ := first 0 (Nat.succ_pos count) path rfl
      refine .inr ⟨file, git, count, rfl, by simpa using known, has, ?_⟩
      intro fewer less nearer searched
      exact first (fewer + 1) (Nat.succ_lt_succ less) nearer (by simpa using searched)
  · rintro (⟨rfl, rfl, has⟩ | ⟨file, git, fewer, rfl, known, has, first⟩)
    · exact ⟨rfl, has, fun fewer less => absurd less (Nat.not_lt_zero fewer)⟩
    · refine ⟨by simpa using known, has, ?_⟩
      intro before less nearer searched
      -- What comes before it is the path or comes before it in the rest.
      cases before with
      | zero =>
        obtain rfl : path = nearer := by simpa using searched
        exact ⟨file, git⟩
      | succ before =>
        exact first before (Nat.lt_of_succ_lt_succ less) nearer (by simpa using searched)

/-- The search through some directories finds the file in the first one, and nothing if there is
none. -/
theorem firstFile?_eq_some_iff {disk : Disk} {paths : List Path} {file : Path} :
    firstFile? disk paths = some file ↔
      ∃ count directory, IsFirst disk (paths[·]?) count directory ∧
        file = directory.entry fileName := by
  -- The directories are searched one after the other.
  induction paths with
  | nil =>
    refine iff_of_false nofun ?_
    rintro ⟨count, directory, found, -⟩
    exact nomatch found.known
  | cons path rest ih =>
    rw [firstFile?_cons]
    by_cases has : fileName ∈ disk.listing path
    · -- The file is here, so no later directory is the first one.
      simp [isFirst_cons_iff, has, eq_comm]
    · by_cases git : ".git" ∈ disk.listing path
      · -- The repository is here, so no directory is the first one.
        simp [isFirst_cons_iff, has, git]
      · rw [if_neg has, if_neg git, ih]
        constructor
        · rintro ⟨count, directory, found, rfl⟩
          exact ⟨count + 1, directory, isFirst_cons_iff.2 (.inr ⟨has, git, count, rfl, found⟩), rfl⟩
        · rintro ⟨count, directory, found, rfl⟩
          rcases isFirst_cons_iff.1 found with ⟨-, rfl, here⟩ | ⟨-, -, fewer, -, below⟩
          · exact absurd here has
          · exact ⟨fewer, directory, below, rfl⟩

namespace IsFirst

variable {disk : Disk} {paths : Nat → Option Path} {count count' : Nat} {directory root : Path}

/-- The first directory does not lie above the root of a repository. -/
theorem le_of_root (found : IsFirst disk paths count directory) (known : paths count' = some root)
    (git : ".git" ∈ disk.listing root) : count ≤ count' := by
  -- A directory further up would have the root of the repository in front of it.
  by_contra more
  exact (found.first count' (Nat.lt_of_not_le more) root known).2 git

end IsFirst

/-- The settings file that holds for a directory is the one in the first directory that has one, on
the way up to the root of a repository. -/
theorem file?_eq_some_iff {disk : Disk} {start file : Path} :
    file? disk start = some file ↔
      ∃ count directory, IsFirst disk start.above? count directory ∧
        file = directory.entry fileName := by
  -- The directories that are searched are those above the start, at the same heights.
  have searched : ((ancestors start)[·]?) = start.above? := funext (getElem?_ancestors start)
  rw [file?, firstFile?_eq_some_iff, searched]

/-- The file of a directory above the start is found exactly when that directory is the first one,
as the file tells which directory it is in. -/
theorem file?_eq_entry_iff {disk : Disk} {start directory : Path} {count : Nat}
    (known : start.above? count = some directory) :
    file? disk start = some (directory.entry fileName) ↔
      IsFirst disk start.above? count directory := by
  -- Directories at different heights have different numbers of components.
  rw [file?_eq_some_iff]
  constructor
  · rintro ⟨count', directory', found, same⟩
    obtain ⟨enough, -, left⟩ := Path.removable_of_above? known
    obtain ⟨enough', -, left'⟩ := Path.removable_of_above? found.known
    have length := congrArg List.length (Path.removable_eq_of_entry same)
    rw [left, left', List.length_take, List.length_take] at length
    obtain rfl : count = count' := by omega
    obtain rfl : directory = directory' := Option.some.inj (known.symm.trans found.known)
    exact found
  · exact fun found => ⟨count, directory, found, rfl⟩

/-- No file is found exactly when no directory above the start is the first one. -/
theorem file?_eq_none_iff {disk : Disk} {start : Path} :
    file? disk start = none ↔ ∀ count directory, ¬ IsFirst disk start.above? count directory := by
  -- A file is found in a first directory only.
  rw [Option.eq_none_iff_forall_ne_some]
  constructor
  · intro nothing count directory found
    exact nothing _ (file?_eq_some_iff.2 ⟨count, directory, found, rfl⟩)
  · intro nothing file found
    obtain ⟨count, directory, found, -⟩ := file?_eq_some_iff.1 found
    exact nothing count directory found

/-- The directories above a path are those that are left when components are taken away from it at
the end, up to the root or to the path without components. A search that starts at the path gives
the settings file of such a directory exactly when that has one and neither a settings file nor a
repository is in any directory before it; it gives no other file, and none exactly when there is no
such directory. So it finds the settings file beside the repository that comes first, and nothing
above that. -/
theorem file?_nearest (disk : Disk) (start : Path) :
    (∀ count, (start.above? count).isSome ↔ count ≤ start.removable.length) ∧
    (∀ count directory, start.above? count = some directory → directory.rooted = start.rooted ∧
      directory.components = start.components.take (start.components.length - count)) ∧
    (∀ count directory, start.above? count = some directory →
      (file? disk start = some (directory.entry fileName) ↔
        IsFirst disk start.above? count directory)) ∧
    (∀ file, file? disk start = some file → ∃ count directory,
      start.above? count = some directory ∧ file = directory.entry fileName) ∧
    (file? disk start = none ↔ ∀ count directory, ¬ IsFirst disk start.above? count directory) ∧
    ∀ count root, start.above? count = some root → ".git" ∈ disk.listing root →
      (fileName ∈ disk.listing root →
        (∀ fewer < count, ∀ nearer, start.above? fewer = some nearer →
          fileName ∉ disk.listing nearer ∧ ".git" ∉ disk.listing nearer) →
        file? disk start = some (root.entry fileName)) ∧
      ∀ further directory, count < further → start.above? further = some directory →
        file? disk start ≠ some (directory.entry fileName) := by
  -- The file tells its directory, and that is the first one that is not passed.
  refine ⟨start.isSome_above?_iff, fun count directory known => ?_,
    fun count directory => file?_eq_entry_iff, fun file found => ?_, file?_eq_none_iff,
    fun count root known git => ⟨?_, ?_⟩⟩
  · exact ⟨(Path.removable_of_above? known).2.1, Path.components_of_above? known⟩
  · obtain ⟨count, directory, found, same⟩ := file?_eq_some_iff.1 found
    exact ⟨count, directory, found.known, same⟩
  · -- The repository itself is searched for a file before the search ends there.
    intro has first
    exact (file?_eq_entry_iff known).2 ⟨known, has, first⟩
  · -- A directory above it has the repository in front of it.
    intro further directory more known' found
    exact absurd (((file?_eq_entry_iff known').1 found).le_of_root known git)
      (Nat.not_le_of_lt more)

-- The root of a repository without a settings file hides the one above it.
example :
    file? ⟨.directory [(fileName, .file ""), ("a", .directory [(".git", .file "")])], []⟩
      ⟨true, ["a", "b"]⟩ = none := by
  decide

end Settings

end PropCatalog
