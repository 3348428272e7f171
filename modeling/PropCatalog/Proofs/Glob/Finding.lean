import PropCatalog.Proofs.Disk.Difference
import PropCatalog.Proofs.Glob.Search

/-! Searches step by step: what each pattern takes a search to. Directories that are found are found
all the same when a file is put in, taken out or changed. -/

namespace PropCatalog.Glob

/-- Whether patterns take a search from a path to another one. -/
inductive Finds (disk : Disk) : List Pattern → Path → Path → Prop where
  | done {path : Path} : Finds disk [] path path
  | name {pattern : Pattern} {rest : List Pattern} {path found : Path} {name : String}
      (stands : pattern.literal? = some name)
      (present : (if name = "." || name = ".." then disk.hasDirectory path
        else disk.contains (entryOf path name)) = true)
      (later : Finds disk rest (entryOf path name) found) : Finds disk (pattern :: rest) path found
  | entry {pattern : Pattern} {rest : List Pattern} {path found : Path} {name : String}
      {tree : FileTree} {entries : List (String × FileTree)} (wild : pattern.literal? = none)
      (single : pattern.isRecursive = false) (here : disk.find path = .ok (.directory entries))
      (member : (name, tree) ∈ entries) (matched : pattern.isMatch name = true)
      (later : Finds disk rest ((baseOf path).entry name) found) :
      Finds disk (pattern :: rest) path found
  | special {pattern : Pattern} {rest : List Pattern} {path found : Path} {name : String}
      {entries : List (String × FileTree)} (wild : pattern.literal? = none)
      (single : pattern.isRecursive = false) (here : disk.find path = .ok (.directory entries))
      (member : name ∈ specialNames pattern) (later : Finds disk rest (path.entry name) found) :
      Finds disk (pattern :: rest) path found
  -- Two stars at the end find all directories.
  | all {pattern : Pattern} {path found : Path} {tree : FileTree}
      {entries : List (String × FileTree)} (wild : pattern.literal? = none)
      (recursive : pattern.isRecursive = true) (here : disk.find path = .ok (.directory entries))
      (member : (found, tree) ∈ FileTree.descendantsIn (baseOf path) entries)
      (directory : tree.isDirectory = true) : Finds disk [pattern] path found
  -- Behind two stars, two more of them add nothing.
  | again {pattern next : Pattern} {rest : List Pattern} {path found : Path}
      {entries : List (String × FileTree)} (wild : pattern.literal? = none)
      (recursive : pattern.isRecursive = true) (here : disk.find path = .ok (.directory entries))
      (recursive' : next.isRecursive = true) (later : Finds disk (next :: rest) path found) :
      Finds disk (pattern :: next :: rest) path found
  | behind {pattern next : Pattern} {rest : List Pattern} {path between found : Path}
      {tree : FileTree} {entries : List (String × FileTree)} (wild : pattern.literal? = none)
      (recursive : pattern.isRecursive = true) (here : disk.find path = .ok (.directory entries))
      (single : next.isRecursive = false)
      (member : (between, tree) ∈ FileTree.descendantsIn (baseOf path) entries)
      (matched : between.fileName?.any next.isMatch = true)
      (later : Finds disk rest between found) :
      Finds disk (pattern :: next :: rest) path found

/-- A search finds what its steps lead to. -/
theorem mem_searchFrom_iff {disk : Disk} {patterns : List Pattern} {path found : Path} :
    found ∈ searchFrom disk patterns path ↔ Finds disk patterns path found := by
  -- Each branch of the search is one way to take a step, and each step one branch.
  constructor
  · -- Some steps take two patterns, so that the induction is on how many there are.
    induction length : patterns.length using Nat.strong_induction_on generalizing patterns path with
    | h count ih =>
      subst length
      fun_cases searchFrom disk patterns path with
      | case1 path =>
        intro member
        exact List.mem_singleton.1 member ▸ .done
      | case2 pattern rest path name stands next present held =>
        intro member
        exact .name stands held (ih _ (Nat.lt_succ_self _) rfl member)
      | case3 | case8 =>
        intro member
        cases member
      | case4 pattern path wild entries here recursive among =>
        intro member
        obtain ⟨⟨place, tree⟩, kept, rfl⟩ := List.mem_map.1 member
        obtain ⟨known, directory⟩ := List.mem_filter.1 kept
        exact .all wild recursive here known directory
      | case5 pattern path wild entries here recursive next rest recursive' =>
        intro member
        exact .again wild recursive here recursive' (ih _ (Nat.lt_succ_self _) rfl member)
      | case6 pattern path wild entries here recursive among next rest single =>
        intro member
        obtain ⟨⟨between, tree⟩, kept, member⟩ := List.mem_flatMap.1 member
        obtain ⟨known, matched⟩ := List.mem_filter.1 kept
        have single : next.isRecursive = false := by simpa using single
        have shorter : rest.length < (pattern :: next :: rest).length :=
          (Nat.lt_succ_self _).trans (Nat.lt_succ_self _)
        exact .behind wild recursive here single known matched (ih _ shorter rfl member)
      | case7 pattern rest path wild entries here single among =>
        intro member
        obtain ⟨next, known, member⟩ := List.mem_flatMap.1 member
        have single : pattern.isRecursive = false := by simpa using single
        have later := ih _ (Nat.lt_succ_self _) rfl member
        rcases List.mem_append.1 known with entry | special
        · obtain ⟨⟨name, tree⟩, kept, rfl⟩ := List.mem_map.1 entry
          obtain ⟨among, matched⟩ := List.mem_filter.1 kept
          exact .entry wild single here among matched later
        · obtain ⟨name, among, rfl⟩ := List.mem_map.1 special
          exact .special wild single here among later
  · intro finds
    induction finds with
    | done => simp [searchFrom]
    | name stands present later ih =>
      rw [searchFrom]
      simp only [stands, present, if_true]
      exact ih
    | @entry pattern rest path found name tree entries wild single here member matched later ih =>
      rw [searchFrom]
      simp only [wild, here, single, Bool.false_eq_true, if_false]
      refine List.mem_flatMap.2 ⟨(baseOf path).entry name, List.mem_append_left _ ?_, ih⟩
      exact List.mem_map.2 ⟨(name, tree), List.mem_filter.2 ⟨member, matched⟩, rfl⟩
    | @special pattern rest path found name entries wild single here member later ih =>
      rw [searchFrom]
      simp only [wild, here, single, Bool.false_eq_true, if_false]
      exact List.mem_flatMap.2 ⟨path.entry name,
        List.mem_append_right _ (List.mem_map.2 ⟨name, member, rfl⟩), ih⟩
    | @all pattern path found tree entries wild recursive here member directory =>
      rw [searchFrom]
      simp only [wild, here, recursive, if_true]
      exact List.mem_map.2 ⟨(found, tree), List.mem_filter.2 ⟨member, directory⟩, rfl⟩
    | again wild recursive here recursive' later ih =>
      rw [searchFrom]
      simp only [wild, here, recursive, recursive', if_true]
      exact ih
    | @behind pattern next rest path between found tree entries wild recursive here single member
        matched later ih =>
      rw [searchFrom]
      simp only [wild, here, recursive, single, Bool.false_eq_true, if_true, if_false]
      exact List.mem_flatMap.2 ⟨(between, tree), List.mem_filter.2 ⟨member, matched⟩, ih⟩

variable {disk disk' : Disk} {patterns : List Pattern} {path found : Path}

/-- What is in a tree on a disk is proper when all of the disk is. -/
theorem proper_find {tree : FileTree} (proper : disk.root.Proper)
    (found : disk.find path = .ok tree) : tree.Proper :=
  proper.follow (Disk.follow_location found)

/-- A search that starts at a path that some text spells ends at one. -/
theorem Finds.legible (proper : disk.root.Proper) (finds : Finds disk patterns path found)
    (legible : path.Legible) : found.Legible := by
  -- Each step goes to an entry with a name, or stays, maybe without the dot in front.
  have legible_baseOf {path : Path} (legible : path.Legible) : (baseOf path).Legible := by
    unfold baseOf
    split
    · exact Path.legible_ofText ""
    · exact legible
  induction finds with
  | done => exact legible
  | @name pattern rest path found name stands present later ih =>
    refine ih ?_
    unfold entryOf
    split
    · exact Path.legible_ofText name
    · exact legible.join (Path.legible_ofText name)
  | @entry pattern rest path found name tree entries wild single here member matched later ih =>
    have named : IsName name := by
      cases proper_find proper here with
      | directory names => exact names _ member
    exact ih ((legible_baseOf legible).entry named)
  | special wild single here member later ih =>
    refine ih (legible.join ?_)
    rcases eq_of_mem_specialNames member with rfl | rfl <;>
      exact Path.legible_name (by decide) (by decide)
  | all wild recursive here member directory =>
    exact (proper_find proper here).legible_descendant (legible_baseOf legible) member
  | again wild recursive here recursive' later ih => exact ih legible
  | behind wild recursive here single member matched later ih =>
    exact ih ((proper_find proper here).legible_descendant (legible_baseOf legible) member)

/-! ## Where searches start -/

/-- A path that names a dot only leads nowhere else. -/
theorem silent_of_components (dot : path.components = here.components) :
    path.rooted = false ∧ ∀ segment ∈ path.segments, Path.isSilent segment = true := by
  -- A name among the segments would be a component besides the dot.
  have dot : path.lead ++ path.names = ["."] := path.components_eq.symm.trans dot
  have relative : path.rooted = false := by
    by_contra rooted
    rw [Bool.not_eq_false] at rooted
    simp [Path.lead, rooted] at dot
  refine ⟨relative, ?_⟩
  have none : path.names = [] := by
    by_contra some
    -- No name is a dot.
    have noisy : ∀ name ∈ path.names, name ≠ "." := by
      rintro name member rfl
      simp [Path.names, Path.isSilent] at member
    rw [Path.lead_of_relative relative] at dot
    split at dot
    · exact some (List.cons.inj dot).2
    · rw [List.nil_append] at dot
      exact noisy "." (dot ▸ List.mem_singleton_self _) rfl
  simpa [Path.names] using none

/-- The current directory is at a path that names a dot only. -/
theorem foldlM_current {tree : FileTree} (dot : path.components = here.components)
    (found : disk.find path = .ok tree) (directory : tree.isDirectory = true) :
    ∃ above, disk.current.foldlM Disk.enter [disk.root] = .ok (tree :: above) := by
  -- The segments of the path name nothing, so that the current directory is all of the way.
  obtain ⟨relative, silent⟩ := silent_of_components dot
  obtain ⟨above, leads⟩ := Disk.find_eq_ok found
  rw [relative, if_neg Bool.false_ne_true] at leads
  obtain ⟨inner, above', first, inside⟩ := Disk.foldlM_prefix leads directory
  rw [List.foldlM_append, first] at leads
  have last := (Disk.foldlM_silent silent inside).symm.trans leads
  obtain ⟨rfl, rfl⟩ := List.cons.inj (Except.ok.inj last)
  exact ⟨above', first⟩

/-- An entry of a directory is found at the path that a search gives it. -/
theorem find_entry_baseOf {entries : List (String × FileTree)}
    (here : disk.find path = .ok (.directory entries))
    (proper : (FileTree.directory entries).Proper) {name : String} {tree : FileTree}
    (member : (name, tree) ∈ entries) : disk.find ((baseOf path).entry name) = .ok tree := by
  -- Only at the current directory the base leaves the dot out.
  by_cases dot : path.components = Glob.here.components
  · -- The entry is named without the dot in front.
    have named : IsName name := by
      cases proper with
      | directory names => exact names _ member
    obtain ⟨above, leads⟩ := foldlM_current dot here rfl
    have entered : Disk.enter (.directory entries :: above) name =
        .ok (tree :: .directory entries :: above) := by
      simp [Disk.enter, FileTree.isDirectory, named.noisy, named.down, proper.child?_eq member]
    have base : baseOf path = .empty := if_pos dot
    rw [base, Path.entry_eq]
    refine Disk.find_of_foldlM (.inr (by simp)) (.directory entries :: above) ?_
    simp only [Path.empty, Path.front, Bool.false_eq_true, if_false, List.getLast?_nil,
      reduceCtorEq, List.nil_append]
    rw [List.foldlM_append, leads]
    simp only [List.foldlM_cons, List.foldlM_nil, bind, Except.bind, pure, Except.pure, entered]
  · rw [baseOf_eq dot]
    exact Disk.find_entry here proper member

/-- What is below a directory is found at the path that a search gives it. -/
theorem find_of_descendantsIn {entries : List (String × FileTree)} {tree : FileTree}
    (here : disk.find path = .ok (.directory entries))
    (proper : (FileTree.directory entries).Proper)
    (member : (found, tree) ∈ FileTree.descendantsIn (baseOf path) entries) :
    disk.find found = .ok tree := by
  -- The descendant is an entry, or it is below one that is found.
  rw [FileTree.descendantsIn_eq, List.mem_flatMap] at member
  obtain ⟨⟨name, inner⟩, known, member⟩ := member
  have first := find_entry_baseOf here proper known
  rcases List.mem_cons.1 member with same | further
  · obtain ⟨rfl, rfl⟩ := Prod.mk.inj same
    exact first
  · cases proper with
    | directory _ _ proper => exact (proper _ known).find_descendant first further

/-- A directory that is an entry is in a directory. -/
theorem hasDirectory_of_entryOf {name : String} (some : path.rooted = true ∨ path.segments ≠ [])
    (spelled : '/' ∉ name.toList) (has : disk.hasDirectory (entryOf path name) = true) :
    disk.hasDirectory path = true := by
  -- The way to the entry goes through the directory, however that is named.
  obtain ⟨tree, found, directory⟩ := Disk.hasDirectory_iff.1 has
  obtain ⟨above, leads⟩ := Disk.find_eq_ok found
  have relative : (Path.ofText name).rooted = false := by rw [Path.ofText_of_notMem spelled]
  by_cases dot : path.components = Glob.here.components
  · -- The way to the entry starts with the way to the current directory.
    have entry : entryOf path name = Path.ofText name := if_pos dot
    rw [entry, relative, if_neg Bool.false_ne_true] at leads
    obtain ⟨inner, above', first, inside⟩ := Disk.foldlM_prefix leads directory
    obtain ⟨unrooted, silent⟩ := silent_of_components dot
    refine Disk.hasDirectory_iff.2 ⟨inner, Disk.find_of_foldlM some above' ?_, inside⟩
    rw [unrooted, if_neg Bool.false_ne_true, List.foldlM_append, first]
    exact Disk.foldlM_silent silent inside
  · rw [entryOf_eq dot, Path.join_eq path relative] at leads
    dsimp only at leads
    rw [← List.append_assoc] at leads
    obtain ⟨inner, above', first, inside⟩ := Disk.foldlM_prefix leads directory
    refine Disk.hasDirectory_iff.2 ⟨inner, Disk.find_of_foldlM some above' ?_, inside⟩
    rcases path.segments_eq_front with whole | more
    · rw [whole]
      exact first
    · rw [more, ← List.append_assoc, List.foldlM_append, first]
      exact Disk.foldlM_silent (by simp [Path.isSilent]) inside

/-! ## Directories that are found -/

/-- No pattern stands for a text with a slash. -/
def Single (patterns : List Pattern) : Prop :=
  ∀ pattern ∈ patterns, ∀ name, pattern.literal? = some name → '/' ∉ name.toList

/-- A search that ends at a directory goes through directories all along. -/
theorem Finds.hasDirectory (finds : Finds disk patterns path found) (single : Single patterns)
    (some : path.rooted = true ∨ path.segments ≠ []) (has : disk.hasDirectory found = true) :
    disk.hasDirectory path = true := by
  -- From the end to the start, each step is taken from a directory.
  induction finds with
  | done => exact has
  | @name pattern rest path found name stands present later ih =>
    obtain ⟨here, behind⟩ := List.forall_mem_cons.1 single
    split at present
    · exact present
    · -- What contains the entry is a directory, as the rest of the way is one.
      obtain ⟨tree, next⟩ := Disk.contains_iff.1 present
      have inside := ih behind (Disk.starts_of_find next) has
      exact hasDirectory_of_entryOf some (here name stands) inside
  | entry _ _ here | special _ _ here | all _ _ here | again _ _ here | behind _ _ here =>
    exact Disk.hasDirectory_iff.2 ⟨_, here, rfl⟩

/-- A name makes a path with a segment. -/
theorem starts_entryOf (path : Path) {name : String} (some : name ≠ "")
    (spelled : '/' ∉ name.toList) :
    (entryOf path name).rooted = true ∨ (entryOf path name).segments ≠ [] := by
  -- The name is a segment, alone or behind the path.
  have alone : Path.ofText name = ⟨false, [name]⟩ := by
    rw [Path.ofText_of_notMem spelled, if_neg some]
  refine .inr ?_
  unfold entryOf
  rw [alone]
  split
  · exact List.cons_ne_nil _ _
  · rw [Path.join_eq path rfl]
    simp [Path.tail]

/-- A directory that is found is found all the same when a file is put in, taken out or changed. -/
theorem Finds.of_same {place : List String} (same : Disk.SameBut place disk disk')
    (proper : disk.root.Proper) (finds : Finds disk patterns path found) (single : Single patterns)
    (some : path.rooted = true ∨ path.segments ≠ []) (has : disk.hasDirectory found = true) :
    Finds disk' patterns path found := by
  -- A step goes through directories only, which are in the same places on both disks.
  induction finds with
  | done => exact .done
  | @name pattern rest path found name stands present later ih =>
    obtain ⟨here, behind⟩ := List.forall_mem_cons.1 single
    split at present
    · rename_i dots
      have start := starts_entryOf path (by rintro rfl; simp at dots) (here name stands)
      refine .name stands ?_ (ih behind start has)
      rw [if_pos dots, ← same.hasDirectory_eq]
      exact present
    · rename_i noDots
      obtain ⟨tree, next⟩ := Disk.contains_iff.1 present
      have start := Disk.starts_of_find next
      have inside := later.hasDirectory behind start has
      rw [same.hasDirectory_eq] at inside
      obtain ⟨tree', next', -⟩ := Disk.hasDirectory_iff.1 inside
      refine .name stands ?_ (ih behind start has)
      rw [if_neg noDots]
      exact Disk.contains_of_find next'
  | entry wild lone here member matched later ih =>
    obtain ⟨-, behind⟩ := List.forall_mem_cons.1 single
    have reached := find_entry_baseOf here (proper_find proper here) member
    have start := Disk.starts_of_find reached
    -- The entry is a directory, since the search goes on from there.
    have inside := later.hasDirectory behind start has
    rw [Disk.hasDirectory, reached] at inside
    obtain ⟨entries', here', alike⟩ := same.exists_find_directory here
    obtain ⟨inner', member'⟩ := alike.exists_mem member inside
    exact .entry wild lone here' member' matched (ih behind start has)
  | @special pattern rest path found name entries wild lone here member later ih =>
    obtain ⟨-, behind⟩ := List.forall_mem_cons.1 single
    obtain ⟨entries', here', -⟩ := same.exists_find_directory here
    have start : (path.entry name).rooted = true ∨ (path.entry name).segments ≠ [] :=
      .inr (by simp [Path.entry_eq])
    exact .special wild lone here' member (ih behind start has)
  | all wild recursive here member directory =>
    obtain ⟨entries', here', alike⟩ := same.exists_find_directory here
    obtain ⟨inner', member', directory'⟩ := alike.exists_descendant member directory
    exact .all wild recursive here' member' directory'
  | again wild recursive here recursive' later ih =>
    obtain ⟨-, behind⟩ := List.forall_mem_cons.1 single
    obtain ⟨entries', here', -⟩ := same.exists_find_directory here
    exact .again wild recursive here' recursive' (ih behind some has)
  | behind wild recursive here lone member matched later ih =>
    obtain ⟨-, others⟩ := List.forall_mem_cons.1 single
    obtain ⟨-, behind⟩ := List.forall_mem_cons.1 others
    have reached := find_of_descendantsIn here (proper_find proper here) member
    have start := Disk.starts_of_find reached
    have inside := later.hasDirectory behind start has
    rw [Disk.hasDirectory, reached] at inside
    obtain ⟨entries', here', alike⟩ := same.exists_find_directory here
    obtain ⟨inner', member', -⟩ := alike.exists_descendant member inside
    exact .behind wild recursive here' lone member' matched (ih behind start has)

/-! ## How what is found is spelled -/

/-- Whether a pattern leads down: what it stands for is a name, and it finds no dots. -/
structure Pattern.Named (pattern : Pattern) : Prop where
  stands : ∀ name, pattern.literal? = some name → IsName name
  special : specialNames pattern = []

/-- Below a path, a search goes on as it is spelled. -/
theorem baseOf_down (path : Path) {names : List String} (some : names ≠ [])
    (named : ∀ name ∈ names, IsName name) : baseOf (path.down names) = path.down names := by
  -- Behind a name, the path does not name a dot only.
  refine baseOf_eq fun dot => ?_
  obtain ⟨first, rest, rfl⟩ := List.exists_cons_of_ne_nil some
  have silent := (silent_of_components dot).2 first (by simp [Path.down])
  rw [(named first List.mem_cons_self).noisy] at silent
  cases silent

/-- A name is an entry, alone or behind a path. -/
theorem entryOf_eq_entry (path : Path) {name : String} (named : IsName name) :
    entryOf path name = (baseOf path).down [name] := by
  -- The name is joined to the path, or it stands alone where the base is empty.
  have some : name ≠ "" := by
    rintro rfl
    exact absurd named.noisy (by decide)
  have alone : Path.ofText name = ⟨false, [name]⟩ := by
    rw [Path.ofText_of_notMem named.spelled, if_neg some]
  unfold entryOf baseOf
  split
  · rw [alone]
    rfl
  · rw [alone]
    exact path.entry_eq name

/-- What is below a tree is so under names. -/
theorem down_of_descendants {tree inner : FileTree} (proper : tree.Proper)
    (member : (found, inner) ∈ tree.descendants path) :
    ∃ names, names ≠ [] ∧ (∀ name ∈ names, IsName name) ∧ found = path.down names := by
  -- The name of the entry comes first, and then those that lead on from it.
  induction proper generalizing path with
  | file => cases member
  | directory named distinct proper ih =>
    rw [FileTree.descendants, FileTree.descendantsIn_eq, List.mem_flatMap] at member
    obtain ⟨entry, known, member⟩ := member
    have isName := named entry known
    rcases List.mem_cons.1 member with same | further
    · exact ⟨[entry.1], by simp, by simpa using isName,
        (Prod.mk.inj same).1.trans (path.entry_eq entry.1)⟩
    · obtain ⟨names, -, named', rfl⟩ := ih entry known further
      exact ⟨entry.1 :: names, by simp, List.forall_mem_cons.2 ⟨isName, named'⟩,
        path.entry_down isName names⟩

/-- Patterns that lead down find what is below a path, under names. -/
theorem Finds.down (proper : disk.root.Proper) (finds : Finds disk patterns path found)
    (named : ∀ pattern ∈ patterns, pattern.Named) :
    patterns = [] ∧ found = path ∨
      ∃ names, names ≠ [] ∧ (∀ name ∈ names, IsName name) ∧ found = (baseOf path).down names := by
  -- Each step goes on from a path that is below, or finds it.
  have onward {rest : List Pattern} {base between found : Path} {names : List String}
      (some : names ≠ []) (named : ∀ name ∈ names, IsName name) (here : between = base.down names)
      (later : rest = [] ∧ found = between ∨ ∃ more, more ≠ [] ∧ (∀ name ∈ more, IsName name) ∧
        found = (baseOf between).down more) :
      ∃ names, names ≠ [] ∧ (∀ name ∈ names, IsName name) ∧ found = base.down names := by
    subst here
    rcases later with ⟨-, rfl⟩ | ⟨more, -, named', rfl⟩
    · exact ⟨names, some, named, rfl⟩
    · refine ⟨names ++ more, by simp [some], List.forall_mem_append.2 ⟨named, named'⟩, ?_⟩
      rw [baseOf_down base some named, Path.down_down base named some]
  induction finds with
  | done => exact .inl ⟨rfl, rfl⟩
  | @name pattern rest path found name stands present later ih =>
    obtain ⟨first, others⟩ := List.forall_mem_cons.1 named
    have isName := first.stands name stands
    exact .inr (onward (by simp) (by simpa using isName) (entryOf_eq_entry path isName) (ih others))
  | @entry pattern rest path found name tree entries wild single here member matched later ih =>
    have isName : IsName name := by
      cases proper_find proper here with
      | directory names => exact names _ member
    exact .inr (onward (by simp) (by simpa using isName) ((baseOf path).entry_eq name)
      (ih (List.forall_mem_cons.1 named).2))
  | special wild single here member later ih =>
    rw [(named _ List.mem_cons_self).special] at member
    cases member
  | all wild recursive here member directory =>
    exact .inr (down_of_descendants (proper_find proper here) member)
  | again wild recursive here recursive' later ih =>
    rcases ih (List.forall_mem_cons.1 named).2 with ⟨none, -⟩ | below
    · cases none
    · exact .inr below
  | behind wild recursive here single member matched later ih =>
    obtain ⟨names, some, isName, below⟩ := down_of_descendants (proper_find proper here) member
    obtain ⟨-, others⟩ := List.forall_mem_cons.1 named
    exact .inr (onward some isName below (ih (List.forall_mem_cons.1 others).2))

/-! ## Directories of a pattern -/

/-- A search starts at the root, if the first component is empty, or from the dot. -/
def startOf (text : String) : Path :=
  if (componentTexts text).head? = some "" then Path.ofText "/" else here

/-- The components of a text that are searched for. -/
def searchedTexts (text : String) : List String :=
  if (componentTexts text).head? = some "" then (componentTexts text).tail else componentTexts text

/-- The directories of a pattern are those that a search finds. -/
theorem directories_eq (disk : Disk) (text : String) : directories disk text = do
    let _ ← Pattern.ofText text
    let patterns ← (searchedTexts text).mapM Pattern.ofText
    return (searchFrom disk patterns (startOf text)).filter disk.hasDirectory := by
  -- An empty first component is the root, and the search goes on behind it.
  rw [directories, startOf, searchedTexts]
  congr 1
  funext _
  cases componentTexts text with
  | nil => rfl
  | cons first rest =>
    by_cases rooted : first = ""
    · subst rooted
      rfl
    · have other : ¬ (first :: rest).head? = some "" := fun empty => rooted (Option.some.inj empty)
      rw [if_neg other, if_neg other]
      split
      rename_i start texts equal
      split at equal
      · rename_i first
        exact absurd (List.cons.inj first).1 rooted
      · cases equal
        rfl

/-- The components of a pattern are patterns, and its directories are those that a search finds, on
each disk the same search. -/
theorem exists_of_directories {text : String} {paths : List Path}
    (known : directories disk text = .ok paths) :
    ∃ patterns, List.Forall₂ (fun segment pattern => Pattern.ofText segment = .ok pattern)
        (searchedTexts text) patterns ∧
      ∀ disk : Disk, directories disk text =
        .ok ((searchFrom disk patterns (startOf text)).filter disk.hasDirectory) := by
  -- The patterns are read before the disk is looked at.
  rw [directories_eq] at known
  cases whole : Pattern.ofText text with
  | error cause => simp [whole, bind, Except.bind] at known
  | ok pattern =>
    cases components : (searchedTexts text).mapM Pattern.ofText with
    | error cause => simp [whole, components, bind, Except.bind] at known
    | ok patterns =>
      refine ⟨patterns, forall₂_of_mapM_ok components, fun disk => ?_⟩
      rw [directories_eq, whole, components]
      rfl

/-- No component that is searched for has a slash in it. -/
theorem notMem_of_mem_searchedTexts {text segment : String}
    (member : segment ∈ searchedTexts text) : '/' ∉ segment.toList := by
  -- The components are pieces between slashes.
  have component : segment ∈ componentTexts text := by
    unfold searchedTexts at member
    split at member
    · exact List.mem_of_mem_tail member
    · exact member
  have among : segment ∈ (splitSlashes text.toList).map String.ofList := by
    rw [componentTexts] at component
    split at component
    · exact List.dropLast_subset _ component
    · exact component
  obtain ⟨piece, known, rfl⟩ := List.mem_map.1 among
  simpa using notMem_of_mem_splitSlashes _ piece known

/-- No pattern that is searched for stands for a text with a slash. -/
theorem single_of_searchedTexts {text : String}
    (read : List.Forall₂ (fun segment pattern => Pattern.ofText segment = .ok pattern)
      (searchedTexts text) patterns) : Single patterns := by
  -- What a pattern stands for is the text that it is read from.
  intro pattern member name stands
  obtain ⟨segment, present, here⟩ := exists_mem_of_forall₂ read.flip member
  exact notMem_of_literal? (notMem_of_mem_searchedTexts present) here stands

theorem legible_startOf (text : String) : (startOf text).Legible := by
  -- The root and the current directory are both spelled by texts.
  unfold startOf
  split
  · exact Path.legible_ofText "/"
  · exact Path.legible_name (by decide) (by decide)

theorem starts_startOf (text : String) :
    (startOf text).rooted = true ∨ (startOf text).segments ≠ [] := by
  -- One start is the root, and the other one has a dot.
  unfold startOf
  split
  · exact .inl (by decide)
  · exact .inr (by simp [here])

end PropCatalog.Glob
