import PropCatalog.Proofs.Disk.FileTree

/-! Where on a disk paths lead to: the names on the way down from the root. However they are
spelled, paths with one location lead to one tree. -/

namespace PropCatalog

namespace FileTree

/-- Whether trees are those on the way down from a root along some names, the last one first. -/
inductive Along (root : FileTree) : List String → List FileTree → Prop where
  | start : Along root [] [root]
  | child {names : List String} {here tree : FileTree} {above : List FileTree} {name : String}
      (way : Along root names (here :: above)) (known : here.child? name = some tree)
      (noisy : Path.isSilent name = false) : Along root (name :: names) (tree :: here :: above)

/-- Only directories have entries. -/
theorem isDirectory_of_child? {tree inner : FileTree} {name : String}
    (known : tree.child? name = some inner) : tree.isDirectory = true := by
  -- A file has no entries to look a name up in.
  cases tree with
  | file => simp [child?, entries] at known
  | directory => rfl

/-- What two lists of names lead to, one behind the other. -/
theorem follow_append {tree inner : FileTree} {names others : List String}
    (leads : tree.follow names = .ok inner) :
    tree.follow (names ++ others) = inner.follow others := by
  -- The first names are gone through step by step, as they lead somewhere.
  induction names generalizing tree with
  | nil => rw [Except.ok.inj leads, List.nil_append]
  | cons name rest ih =>
    rw [List.cons_append, follow]
    rw [follow] at leads
    split at leads
    · cases leads
    · rename_i directory
      rw [if_neg directory]
      split at leads
      · rename_i silent
        rw [if_pos silent]
        exact ih leads
      · rename_i noisy
        rw [if_neg noisy]
        split at leads
        · rename_i child known
          exact ih leads
        · cases leads

theorem Along.ne_nil {root : FileTree} {names : List String} {trees : List FileTree}
    (way : Along root names trees) : trees ≠ [] := by
  cases way <;> exact List.cons_ne_nil _ _

/-- The names lead from the root to the last tree on the way. -/
theorem Along.follow {root tree : FileTree} {names : List String} {trees above : List FileTree}
    (way : Along root names trees) (last : trees = tree :: above) :
    root.follow names.reverse = .ok tree := by
  -- Each tree is the entry of its name in the one before it.
  induction way generalizing tree above with
  | start =>
    obtain ⟨rfl, -⟩ := List.cons.inj last
    rfl
  | child way known noisy ih =>
    obtain ⟨rfl, -⟩ := List.cons.inj last
    rw [List.reverse_cons, follow_append (ih rfl), FileTree.follow,
      isDirectory_of_child? known]
    simp [noisy, known, FileTree.follow]

end FileTree

open FileTree (Along)

/-- Where a segment leads from some names, the last one first: two dots take a name away. -/
def climb (names : List String) (segment : String) : List String :=
  if Path.isSilent segment then names
  else if segment = ".." then names.tail
  else segment :: names

namespace Disk

/-- The names on the way from the root to where a path leads. -/
def location (disk : Disk) (path : Path) : List String :=
  (((if path.rooted then [] else disk.current) ++ path.segments).foldl climb []).reverse

variable {root : FileTree} {disk : Disk} {path rel : Path}

/-- A step along a path follows the names. -/
theorem along_enter {names : List String} {trees next : List FileTree} {segment : String}
    (way : Along root names trees) (entered : enter trees segment = .ok next) :
    Along root (climb names segment) next := by
  -- A step stays, goes up or goes down, and the names do the same.
  cases trees with
  | nil => cases entered
  | cons here above =>
    rw [enter] at entered
    rw [climb]
    split at entered
    · cases entered
    · split at entered
      · rename_i silent
        rw [if_pos silent]
        cases entered
        exact way
      · rename_i noisy
        rw [if_neg noisy]
        split at entered
        · rename_i up
          rw [if_pos up]
          cases entered
          -- Above the root there is the root.
          cases way with
          | start => exact .start
          | child way => exact way
        · rename_i down
          rw [if_neg down]
          split at entered
          · rename_i tree known
            cases entered
            exact .child way known (by simpa using noisy)
          · cases entered

/-- So do all steps. -/
theorem along_foldlM {names : List String} {trees next : List FileTree} {segments : List String}
    (way : Along root names trees) (entered : segments.foldlM enter trees = .ok next) :
    Along root (segments.foldl climb names) next := by
  -- Step by step, the names are those of the way so far.
  induction segments generalizing names trees with
  | nil =>
    cases entered
    exact way
  | cons segment rest ih =>
    rw [List.foldlM_cons] at entered
    cases first : enter trees segment with
    | error cause => simp [first, bind, Except.bind] at entered
    | ok between =>
      simp only [first, bind, Except.bind] at entered
      exact ih (along_enter way first) entered

/-- What is found at a path is what is at its location. -/
theorem follow_location {tree : FileTree} (found : disk.find path = .ok tree) :
    disk.root.follow (disk.location path) = .ok tree := by
  -- The names of a location are those of the way to it.
  obtain ⟨above, leads⟩ := find_eq_ok found
  exact (along_foldlM .start leads).follow rfl

/-- Segments that lead down add their names. -/
theorem foldl_climb {segments : List String} (down : ".." ∉ segments) (names : List String) :
    segments.foldl climb names = (segments.filter (! Path.isSilent ·)).reverse ++ names := by
  -- A segment adds its name, if it has one, and none takes a name away.
  induction segments generalizing names with
  | nil => rfl
  | cons segment rest ih =>
    rw [List.mem_cons, not_or] at down
    rw [List.foldl_cons, ih down.2, climb, List.filter_cons]
    cases silent : Path.isSilent segment with
    | true => simp
    | false => simp [Ne.symm down.1]

/-- What names nothing leads nowhere else. -/
theorem foldl_climb_filter (segments names : List String) :
    segments.foldl climb names = (segments.filter (! Path.isSilent ·)).foldl climb names := by
  -- A segment that names nothing is no step.
  induction segments generalizing names with
  | nil => rfl
  | cons segment rest ih =>
    rw [List.foldl_cons, ih, List.filter_cons]
    cases silent : Path.isSilent segment with
    | true => simp [climb, silent]
    | false => simp

/-- Paths that name the same in order, from the root or from the current directory, lead to one
place. -/
theorem location_eq_of_names (disk : Disk) {other : Path} (rooted : path.rooted = other.rooted)
    (names : path.names = other.names) : disk.location path = disk.location other := by
  -- Only the names among the segments are climbed by.
  rw [location, location, rooted, List.foldl_append, List.foldl_append, foldl_climb_filter,
    foldl_climb_filter other.segments, ← Path.names, ← Path.names, names]

/-- What follows a path and leads down is at its names below the location of the path. -/
theorem location_join (disk : Disk) (path : Path) (relative : rel.rooted = false)
    (down : ".." ∉ rel.segments) :
    disk.location (path.join rel) = disk.location path ++ rel.names := by
  -- What is joined climbs on from the front of the path.
  have down : ".." ∉ Path.tail path rel := by
    unfold Path.tail
    split
    · simp
    · exact down
  -- A dot in front of a path changes its spelling and not the way.
  have front (names : List String) :
      path.front.foldl climb names = path.segments.foldl climb names := by
    rw [foldl_climb_filter, path.names_front, Path.names, ← foldl_climb_filter]
  rw [location, location, Path.join_eq path relative]
  dsimp only
  rw [← List.append_assoc, List.foldl_append, List.foldl_append, List.foldl_append,
    foldl_climb down, Path.names_tail, front, List.reverse_append, List.reverse_reverse]

/-- The location of an entry. -/
theorem location_entry (disk : Disk) (path : Path) {name : String} (named : IsName name) :
    disk.location (path.entry name) = disk.location path ++ [name] := by
  -- The entry is a joined path of one name.
  have down : ".." ∉ [name] := by simpa using Ne.symm named.down
  rw [Path.entry, location_join disk path rfl down]
  simp [Path.names, named.noisy]

/-- Paths with the same components lead to one place. -/
theorem location_eq_of_components (disk : Disk) {other : Path} (legible : path.Legible)
    (legible' : other.Legible) (same : path.components = other.components) :
    disk.location path = disk.location other := by
  -- The root and the dot are told from names by how they are spelled.
  have names {path : Path} (legible : path.Legible) :
      path.names = path.components.filter fun name => name != "/" && name != "." := by
    have kept : ∀ name ∈ path.names, (name != "/" && name != ".") = true := by
      intro name member
      obtain ⟨member, noisy⟩ := List.mem_filter.1 member
      have spelled := legible.spelled name member
      simp only [Bool.and_eq_true, bne_iff_ne]
      constructor
      · rintro rfl
        exact spelled (by decide)
      · rintro rfl
        cases noisy
    have lead : path.lead.filter (fun name => name != "/" && name != ".") = [] := by
      cases rooted : path.rooted with
      | true => simp [Path.lead, Path.splitDot, rooted]
      | false =>
        rw [Path.lead_of_relative rooted]
        split <;> rfl
    rw [path.components_eq, List.filter_append, lead, List.nil_append, List.filter_eq_self.2 kept]
  have rooted {path : Path} (legible : path.Legible) :
      path.rooted = true ↔ "/" ∈ path.components := by
    rw [path.components_eq, List.mem_append]
    constructor
    · intro rooted
      simp [Path.lead, rooted]
    · rintro (lead | name)
      · by_contra relative
        rw [Bool.not_eq_true] at relative
        rw [Path.lead_of_relative relative] at lead
        split at lead <;> simp at lead
      · exact absurd (legible.spelled "/" (List.mem_of_mem_filter name)) (by decide)
  refine disk.location_eq_of_names (Bool.eq_iff_iff.2 ?_) ?_
  · rw [rooted legible, rooted legible', same]
  · rw [names legible, names legible', same]

end Disk

/-! ## What is below a path -/

variable {disk : Disk} {path other : Path} {names more : List String}

namespace Path

/-- What is below a path, under some names. -/
def down (path : Path) (names : List String) : Path :=
  ⟨path.rooted, path.front ++ names⟩

/-- Names are added one after the other. -/
theorem entry_down (path : Path) {name : String} (named : IsName name) (names : List String) :
    (path.entry name).down names = path.down (name :: names) := by
  -- A name is no empty segment, so that it stays when further ones follow.
  have some : name ≠ "" := by
    rintro rfl
    exact absurd named.noisy (by decide)
  have front : (path.entry name).front = path.front ++ [name] := by
    rw [entry_eq, Path.front, List.getLast?_concat,
      if_neg fun empty => some (Option.some.inj empty)]
  rw [down, front, entry_eq, down, List.append_assoc]
  rfl

/-- Names that come last are part of the front. -/
theorem front_down (path : Path) (named : ∀ name ∈ names, IsName name) (some : names ≠ []) :
    (path.down names).front = path.front ++ names := by
  -- The last segment is a name and not empty.
  refine if_neg fun last => ?_
  rw [down, List.getLast?_append_of_ne_nil _ some] at last
  exact absurd (named "" (List.mem_of_getLast? last)).noisy (by decide)

/-- Names are added to names. -/
theorem down_down (path : Path) (named : ∀ name ∈ names, IsName name) (some : names ≠ []) :
    (path.down names).down more = path.down (names ++ more) := by
  -- The names so far are part of the front that the others follow.
  rw [down, path.front_down named some, List.append_assoc]
  rfl

/-- Whether a path is spelled like another one with names behind it. -/
def Continues (path other : Path) : Prop :=
  ∃ names, (∀ name ∈ names, IsName name) ∧ other.rooted = path.rooted ∧
    other.front = path.front ++ names

/-- What is below a path that continues another one is below that. -/
theorem Continues.exists_down (continues : path.Continues other)
    (named : ∀ name ∈ more, IsName name) :
    ∃ names, (∀ name ∈ names, IsName name) ∧ other.down more = path.down names := by
  -- The names between both fronts come first.
  obtain ⟨names, isName, rooted, front⟩ := continues
  refine ⟨names ++ more, List.forall_mem_append.2 ⟨isName, named⟩, ?_⟩
  rw [down, down, rooted, front, List.append_assoc]

/-- Of two paths below which one path is, one continues the other. -/
theorem continues_of_down (named : ∀ name ∈ names, IsName name)
    (named' : ∀ name ∈ more, IsName name) (same : path.down names = other.down more) :
    path.Continues other ∨ other.Continues path := by
  -- One front comes first in the other one, and what is between them is among the names.
  obtain ⟨rooted, segments⟩ := Path.mk.inj same
  rcases List.append_eq_append_iff.1 segments with ⟨between, front, rfl⟩ | ⟨between, front, rfl⟩
  · exact .inl ⟨between, fun name member => named name (List.mem_append_left _ member), rooted.symm,
      front⟩
  · exact .inr ⟨between, fun name member => named' name (List.mem_append_left _ member), rooted,
      front⟩

end Path

namespace Disk

/-- Names lead down. -/
theorem location_down (disk : Disk) (path : Path) (named : ∀ name ∈ names, IsName name) :
    disk.location (path.down names) = disk.location path ++ names := by
  -- Below a path are the names of what would be joined to it.
  have noisy : names.filter (! Path.isSilent ·) = names :=
    List.filter_eq_self.2 fun name member => by simp [(named name member).noisy]
  have down : ".." ∉ (⟨false, names⟩ : Path).segments := fun member => (named _ member).down rfl
  have joined : (path.down names).names = (path.join ⟨false, names⟩).names := by
    rw [Path.names_join path rfl, Path.names, Path.down, List.filter_append, path.names_front]
    rfl
  have rooted : (path.down names).rooted = (path.join ⟨false, names⟩).rooted := by
    rw [Path.join_eq path rfl]
    rfl
  rw [disk.location_eq_of_names rooted joined, disk.location_join path rfl down, Path.names, noisy]

/-- Where a path continues another one, what is below both in one place is spelled in one way. -/
theorem down_eq_of_continues (disk : Disk) (continues : path.Continues other)
    (named : ∀ name ∈ names, IsName name) (named' : ∀ name ∈ more, IsName name)
    (same : disk.location (path.down names) = disk.location (other.down more)) :
    path.down names = other.down more := by
  -- Both are below the first path, and the place tells the names there.
  obtain ⟨names', isName, joined⟩ := continues.exists_down named'
  rw [joined, disk.location_down path named, disk.location_down path isName] at same
  rw [joined, List.append_cancel_left same]

/-- The path of a file ends with no empty segment. -/
theorem down_nil_of_find {tree : FileTree} (known : disk.find path = .ok tree)
    (file : tree.isDirectory = false) : path.down [] = path := by
  -- A path without an empty segment at its end is its own front.
  rcases path.segments_eq_front with whole | more
  · rw [Path.down, List.append_nil, ← whole]
  · -- From the file, no further step can be taken.
    obtain ⟨above, front⟩ := foldlM_front known
    obtain ⟨above', leads⟩ := find_eq_ok known
    rw [more, ← List.append_assoc, List.foldlM_append, front] at leads
    simp [enter, file, bind, Except.bind] at leads

end Disk

end PropCatalog
