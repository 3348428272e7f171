import PropCatalog.Proofs.Disk.FileTree
import PropCatalog.Proofs.Related

/-! One directory at two places: the paths in it that correspond to each other. -/

namespace PropCatalog

/-- Whether one directory is at two places. -/
structure SamePlaces (disk disk' : Disk) (base base' : Path) (tree : FileTree) : Prop where
  place : base.IsPlace
  place' : base'.IsPlace
  found : disk.find base = .ok tree
  found' : disk'.find base' = .ok tree
  directory : tree.isDirectory = true
  proper : tree.Proper

namespace Path

/-- Paths that follow two places in the same way. -/
inductive Below (base base' : Path) : Path → Path → Prop where
  | intro {rel : Path} (stays : rel.Stays) : Below base base' (base.join rel) (base'.join rel)

/-- Two places, or paths that follow them in the same way. -/
inductive Beside (base base' : Path) : Path → Path → Prop where
  | root : Beside base base' base base'
  | below {path path' : Path} (below : Below base base' path path') : Beside base base' path path'

/-- Which of the places comes first does not matter. -/
theorem Beside.symm {base base' path path' : Path} (beside : Beside base base' path path') :
    Beside base' base path' path := by
  -- Both sides of the relation are built in the same way.
  cases beside with
  | root => exact .root
  | below below =>
    obtain ⟨stays⟩ := below
    exact .below ⟨stays⟩

/-- A name leads down. -/
theorem stays_name {name : String} (down : name ≠ "..") (spelled : '/' ∉ name.toList) :
    (⟨false, [name]⟩ : Path).Stays where
  relative := rfl
  down := by simpa using Ne.symm down
  spelled := by simpa using spelled

variable {base base' path path' : Path}

/-- What follows corresponding paths in the same way corresponds. -/
theorem Beside.join (beside : Beside base base' path path') {rel : Path} (stays : rel.Stays) :
    Below base base' (path.join rel) (path'.join rel) := by
  -- Joining is associative, so that both parts follow the places together.
  cases beside with
  | root => exact .intro stays
  | below below =>
    obtain ⟨before⟩ := below
    rw [join_join base before.relative stays.relative,
      join_join base' before.relative stays.relative]
    exact .intro (before.join stays)

/-- Entries of corresponding paths correspond. -/
theorem Beside.entry (beside : Beside base base' path path') {name : String} (named : IsName name) :
    Below base base' (path.entry name) (path'.entry name) :=
  beside.join (stays_name named.down named.spelled)

end Path

namespace SamePlaces

open Path

variable {disk disk' : Disk} {base base' path path' : Path} {tree : FileTree}

theorem symm (same : SamePlaces disk disk' base base' tree) :
    SamePlaces disk' disk base' base tree :=
  ⟨same.place', same.place, same.found', same.found, same.directory, same.proper⟩

/-- The same is found at corresponding paths. -/
theorem find_eq (same : SamePlaces disk disk' base base' tree)
    (beside : Beside base base' path path') : disk.find path = disk'.find path' := by
  -- What is found follows from the tree at the places and the segments behind them.
  cases beside with
  | root => rw [same.found, same.found']
  | below below =>
    obtain ⟨stays⟩ := below
    rw [Disk.find_join same.place same.found same.directory stays,
      Disk.find_join same.place' same.found' same.directory stays]

theorem contains_eq (same : SamePlaces disk disk' base base' tree)
    (beside : Beside base base' path path') : disk.contains path = disk'.contains path' := by
  rw [Disk.contains, Disk.contains, same.find_eq beside]

theorem hasDirectory_eq (same : SamePlaces disk disk' base base' tree)
    (beside : Beside base base' path path') :
    disk.hasDirectory path = disk'.hasDirectory path' := by
  rw [Disk.hasDirectory, Disk.hasDirectory, same.find_eq beside]

/-- What is found in a proper directory is proper. -/
theorem proper_find (same : SamePlaces disk disk' base base' tree)
    (beside : Beside base base' path path') {inner : FileTree}
    (found : disk.find path = .ok inner) : inner.Proper := by
  -- The tree at the places is proper, and so is all that it leads to.
  cases beside with
  | root => exact Except.ok.inj (same.found.symm.trans found) ▸ same.proper
  | below below =>
    obtain ⟨stays⟩ := below
    rw [Disk.find_join same.place same.found same.directory stays] at found
    exact same.proper.follow found

/-- Corresponding paths name what the places name, and then the same. -/
theorem components_eq (same : SamePlaces disk disk' base base' tree)
    (beside : Beside base base' path path') :
    ∃ names, path.components = base.components ++ names ∧
      path'.components = base'.components ++ names := by
  -- Behind the places stand the same segments, and these have the same names.
  cases beside with
  | root => exact ⟨[], by simp⟩
  | below below =>
    obtain ⟨stays⟩ := below
    exact ⟨_, same.place.components_join stays.relative, same.place'.components_join stays.relative⟩

end SamePlaces

/-! ## Descendants -/

/-- A name behind a path that some text spells makes another such path. -/
theorem Path.Legible.entry {path : Path} (legible : path.Legible) {name : String}
    (named : IsName name) : (path.entry name).Legible := by
  -- A name is a path of its own that a text spells.
  have some : name ≠ "" := by
    rintro rfl
    exact absurd named.noisy (by decide)
  exact legible.join (Path.legible_name some named.spelled)

namespace FileTree

/-- The entries of a directory come one after the other, each with what is below it. -/
theorem descendantsIn_eq (path : Path) (entries : List (String × FileTree)) :
    descendantsIn path entries = entries.flatMap fun entry =>
      (path.entry entry.1, entry.2) :: descendants (path.entry entry.1) entry.2 := by
  -- The recursion goes through the entries one by one.
  induction entries with
  | nil => rfl
  | cons entry rest ih => rw [descendantsIn, ih, List.flatMap_cons]

/-- What is below a directory is found there. -/
theorem Proper.find_descendant {disk : Disk} {path found : Path} {tree inner : FileTree}
    (proper : tree.Proper) (here : disk.find path = .ok tree)
    (member : (found, inner) ∈ tree.descendants path) : disk.find found = .ok inner := by
  -- Every entry is found behind its directory, down to the descendant.
  induction proper generalizing path with
  | file => cases member
  | @directory entries names distinct proper ih =>
    rw [FileTree.descendants, descendantsIn_eq, List.mem_flatMap] at member
    obtain ⟨entry, known, member⟩ := member
    have first := Disk.find_entry here (.directory names distinct proper) known
    rcases List.mem_cons.1 member with same | further
    · obtain ⟨rfl, rfl⟩ := Prod.mk.inj same
      exact first
    · exact ih entry known first further

/-- What is below a path that some text spells has such a path, too. -/
theorem Proper.legible_descendant {path found : Path} {tree inner : FileTree}
    (proper : tree.Proper) (legible : path.Legible)
    (member : (found, inner) ∈ tree.descendants path) : found.Legible := by
  -- Every entry adds a name, down to the descendant.
  induction proper generalizing path with
  | file => cases member
  | @directory entries names distinct proper ih =>
    rw [FileTree.descendants, descendantsIn_eq, List.mem_flatMap] at member
    obtain ⟨entry, known, member⟩ := member
    have first := legible.entry (names entry known)
    rcases List.mem_cons.1 member with same | further
    · exact (Prod.mk.inj same).1 ▸ first
    · exact ih entry known first further

/-- The path of an entry ends with its name. -/
theorem fileName?_entry (path : Path) {name : String} (named : IsName name) :
    (path.entry name).fileName? = some name := by
  -- The name comes last among the components, and it is neither a dot nor two of them.
  have last : (path.entry name).components.getLast? = some name := by
    rw [Path.components_eq, Path.names, Path.entry_eq]
    simp [named.noisy]
  have noisy := named.noisy
  have down := named.down
  have spelled := named.spelled
  rw [Path.fileName?, last]
  split <;> simp_all [Path.isSilent]

/-- Whether entries of two places correspond and are the same, with the same name. -/
def SameEntry (base base' : Path) (found found' : Path × FileTree) : Prop :=
  Path.Below base base' found.1 found'.1 ∧ found.2 = found'.2 ∧
    ∃ name, found.1.fileName? = some name ∧ found'.1.fileName? = some name

variable {base base' path path' : Path} {tree : FileTree}

/-- The same is below a directory at corresponding paths. -/
theorem Proper.descendants (proper : tree.Proper) (beside : Path.Beside base base' path path') :
    List.Forall₂ (SameEntry base base') (tree.descendants path) (tree.descendants path') := by
  -- Each entry corresponds, and what is below it does by the same for the entry.
  induction proper generalizing path path' with
  | file => exact .nil
  | @directory entries names distinct inner ih =>
    rw [FileTree.descendants, FileTree.descendants, descendantsIn_eq, descendantsIn_eq]
    refine forall₂_flatMap_self fun entry member => ?_
    have named := names entry member
    have below := beside.entry named
    exact .cons ⟨below, rfl, _, fileName?_entry path named, fileName?_entry path' named⟩
      (ih entry member (.below below))

end FileTree

end PropCatalog
