import PropCatalog.Proofs.Disk.Location
import PropCatalog.Proofs.Disk.Placement
import PropCatalog.Scan.Walk

/-! Two disks that are the same but for one file: which paths still lead to what they led to. -/

namespace PropCatalog

namespace FileTree

/-- Whether two trees are the same but for a file that names lead to, in one of them or in both. The
directories on the way to it are in both. -/
inductive SameBut : List String → FileTree → FileTree → Prop where
  | same {names : List String} (tree : FileTree) : SameBut names tree tree
  | here {name : String} {entries entries' : List (String × FileTree)}
      (others : entries.filter (·.1 != name) = entries'.filter (·.1 != name))
      (file : ∀ tree, (name, tree) ∈ entries → tree.isDirectory = false)
      (file' : ∀ tree, (name, tree) ∈ entries' → tree.isDirectory = false) :
      SameBut [name] (.directory entries) (.directory entries')
  | inside {name : String} {names : List String} {tree tree' : FileTree}
      {before after : List (String × FileTree)} (inner : SameBut names tree tree') :
      SameBut (name :: names) (.directory (before ++ (name, tree) :: after))
        (.directory (before ++ (name, tree') :: after))

/-- Without the entry at a place, everything else is looked up as it is with it. -/
theorem lookup_filter_ne {name place : String} (own : name ≠ place)
    (entries : List (String × FileTree)) :
    (entries.filter (·.1 != place)).lookup name = entries.lookup name :=
  lookup_filter (· != place) (bne_iff_ne.2 own)

namespace SameBut

variable {names : List String} {tree tree' : FileTree}

/-- Which of the trees comes first does not matter. -/
theorem symm (same : SameBut names tree tree') : SameBut names tree' tree := by
  -- The three forms of a difference are symmetric.
  induction same with
  | same tree => exact .same tree
  | here others file file' => exact .here others.symm file' file
  | inside _ ih => exact .inside ih

theorem isDirectory_eq (same : SameBut names tree tree') :
    tree.isDirectory = tree'.isDirectory := by
  cases same <;> rfl

/-- Whether two trees at some names are one tree, or the same but for the file at a place. -/
def At (place names : List String) (tree tree' : FileTree) : Prop :=
  tree = tree' ∨ ∃ rest, place = names ++ rest ∧ SameBut rest tree tree'

theorem At.isDirectory_eq {place : List String} (alike : At place names tree tree') :
    tree.isDirectory = tree'.isDirectory := by
  -- Neither the file nor anything inside of a directory turns one into the other.
  rcases alike with rfl | ⟨rest, -, same⟩
  · rfl
  · exact same.isDirectory_eq

/-- An entry is there in both directories, unless it is the file. -/
theorem exists_mem (same : SameBut names tree tree') {name : String} {inner : FileTree}
    (member : (name, inner) ∈ tree.entries) :
    (names = [name] ∧ inner.isDirectory = false) ∨
      ∃ inner', (name, inner') ∈ tree'.entries ∧ At names [name] inner inner' := by
  -- The difference is at the name, at another one, or inside of an entry.
  cases same with
  | same => exact .inr ⟨inner, member, .inl rfl⟩
  | @here place entries entries' others file =>
    by_cases own : name = place
    · exact .inl ⟨by rw [own], file inner (own ▸ member)⟩
    · -- It is among the other entries, which are the same.
      have kept : (name, inner) ∈ entries.filter (·.1 != place) :=
        List.mem_filter.2 ⟨member, bne_iff_ne.2 own⟩
      exact .inr ⟨inner, List.mem_of_mem_filter (others ▸ kept), .inl rfl⟩
  | @inside place names outer outer' before after same =>
    rcases List.mem_append.1 member with first | later
    · exact .inr ⟨inner, List.mem_append_left _ first, .inl rfl⟩
    · rcases List.mem_cons.1 later with own | last
      · obtain ⟨rfl, rfl⟩ := Prod.mk.inj own
        exact .inr ⟨outer', by simp [entries], .inr ⟨names, rfl, same⟩⟩
      · exact .inr ⟨inner, by simp [entries, last], .inl rfl⟩

/-- What a name leads to is found in both directories, unless it is the file. -/
theorem exists_child (same : SameBut names tree tree') {name : String} {inner : FileTree}
    (known : tree.child? name = some inner) :
    (names = [name] ∧ inner.isDirectory = false) ∨
      ∃ inner', tree'.child? name = some inner' ∧ At names [name] inner inner' := by
  -- The difference is at the name, at another one, or inside of an entry.
  cases same with
  | same => exact .inr ⟨inner, known, .inl rfl⟩
  | @here place entries entries' others file =>
    by_cases own : name = place
    · exact .inl ⟨by rw [own], file inner (own ▸ mem_of_lookup known)⟩
    · refine .inr ⟨inner, ?_, .inl rfl⟩
      -- The lookup passes over the place.
      rw [child?, FileTree.entries, ← lookup_filter_ne own, ← others, lookup_filter_ne own]
      exact known
  | @inside place names outer outer' before after same =>
    rw [child?, entries, List.lookup_append] at known ⊢
    cases first : before.lookup name with
    | some other =>
      rw [first] at known
      exact .inr ⟨inner, known, .inl rfl⟩
    | none =>
      rw [first, Option.none_or, List.lookup_cons] at known
      rw [Option.none_or, List.lookup_cons]
      by_cases own : name = place
      · subst own
        simp only [beq_self_eq_true] at known ⊢
        obtain rfl := Option.some.inj known
        exact .inr ⟨outer', rfl, .inr ⟨names, rfl, same⟩⟩
      · simp only [beq_eq_false_iff_ne.2 own] at known ⊢
        exact .inr ⟨inner, known, .inl rfl⟩

/-- Files that are there on both sides are the same. -/
theorem At.eq_file {place : List String} {text : Option String}
    (alike : At place names (.file text) tree') : tree' = .file text := by
  -- Nothing is inside of a file, so that no difference can be.
  rcases alike with rfl | ⟨rest, -, same⟩
  · rfl
  · cases same
    rfl

/-- An entry is found at the same name, unless it is the file. -/
theorem At.exists_child {place : List String} (alike : At place names tree tree') {name : String}
    {inner : FileTree} (known : tree.child? name = some inner) :
    (names ++ [name] = place ∧ inner.isDirectory = false) ∨
      ∃ inner', tree'.child? name = some inner' ∧ At place (names ++ [name]) inner inner' := by
  -- If the trees differ, they do so at the name, or further inside of what it leads to.
  rcases alike with rfl | ⟨rest, rfl, same⟩
  · exact .inr ⟨inner, known, .inl rfl⟩
  · rcases same.exists_child known with ⟨rfl, file⟩ | ⟨inner', known', alike⟩
    · exact .inl ⟨rfl, file⟩
    · refine .inr ⟨inner', known', alike.imp_right ?_⟩
      rintro ⟨further, rfl, inside⟩
      exact ⟨further, by simp, inside⟩

/-- Directories below the one tree are below the other one. -/
theorem exists_descendant (same : SameBut names tree tree') {path place : Path} {inner : FileTree}
    (member : (place, inner) ∈ tree.descendants path) (directory : inner.isDirectory = true) :
    ∃ inner', (place, inner') ∈ tree'.descendants path ∧ inner'.isDirectory = true := by
  -- The induction is on the way to the file; beside the way, everything is the same.
  induction same generalizing path with
  | same => exact ⟨inner, member, directory⟩
  | @here name entries entries' others file file' =>
    rw [descendants, descendantsIn_eq, List.mem_flatMap] at member
    obtain ⟨⟨other, tree⟩, known, member⟩ := member
    refine ⟨inner, ?_, directory⟩
    rw [descendants, descendantsIn_eq, List.mem_flatMap]
    refine ⟨(other, tree), ?_, member⟩
    have elsewhere : other ≠ name := by
      rintro rfl
      -- A file is no directory, and nothing is below it.
      have isFile := file tree known
      cases tree with
      | directory => cases isFile
      | file text =>
        rw [descendants, List.mem_singleton] at member
        obtain ⟨-, rfl⟩ := Prod.mk.inj member
        cases directory
    have kept : (other, tree) ∈ entries.filter (·.1 != name) :=
      List.mem_filter.2 ⟨known, bne_iff_ne.2 elsewhere⟩
    exact List.mem_of_mem_filter (others ▸ kept)
  | @inside name names tree tree' before after same ih =>
    rw [descendants, descendantsIn_eq, List.flatMap_append, List.flatMap_cons, List.mem_append,
      List.mem_append] at member
    simp only [descendants, descendantsIn_eq, List.flatMap_append, List.flatMap_cons,
      List.mem_append]
    rcases member with first | own | last
    · exact ⟨inner, .inl first, directory⟩
    · rcases List.mem_cons.1 own with here | further
      · obtain ⟨rfl, rfl⟩ := Prod.mk.inj here
        exact ⟨tree', .inr (.inl List.mem_cons_self), same.isDirectory_eq ▸ directory⟩
      · obtain ⟨inner', member, directory⟩ := ih further
        exact ⟨inner', .inr (.inl (List.mem_cons_of_mem _ member)), directory⟩
    · exact ⟨inner, .inr (.inr last), directory⟩

/-- A directory that is an entry on the one side is an entry on the other one. -/
theorem At.exists_mem {place : List String} (alike : At place names tree tree') {name : String}
    {inner : FileTree} (member : (name, inner) ∈ tree.entries)
    (directory : inner.isDirectory = true) : ∃ inner', (name, inner') ∈ tree'.entries := by
  -- The one thing that may be missing is a file.
  rcases alike with rfl | ⟨rest, -, same⟩
  · exact ⟨inner, member⟩
  · rcases same.exists_mem member with ⟨-, file⟩ | ⟨inner', member', -⟩
    · rw [directory] at file
      cases file
    · exact ⟨inner', member'⟩

theorem At.exists_descendant {place : List String} (alike : At place names tree tree')
    {path found : Path} {inner : FileTree} (member : (found, inner) ∈ tree.descendants path)
    (directory : inner.isDirectory = true) :
    ∃ inner', (found, inner') ∈ tree'.descendants path ∧ inner'.isDirectory = true := by
  -- Trees that are the same have the same in them.
  rcases alike with rfl | ⟨rest, -, same⟩
  · exact ⟨inner, member, directory⟩
  · exact same.exists_descendant member directory

end SameBut

end FileTree

open FileTree (Along SameBut)

namespace Disk

/-- Whether two disks are the same but for a source file at a place. -/
structure SameBut (place : List String) (disk disk' : Disk) : Prop where
  current : disk.current = disk'.current
  root : FileTree.SameBut place disk.root disk'.root
  source : ∃ name, place.getLast? = some name ∧ Path.isSource ⟨false, [name]⟩ = true

namespace SameBut

variable {place names : List String} {disk disk' : Disk} {root root' tree tree' : FileTree}
  {path : Path}

theorem symm (same : SameBut place disk disk') : SameBut place disk' disk :=
  ⟨same.current.symm, same.root.symm, same.source⟩

theorem location_eq (same : SameBut place disk disk') (path : Path) :
    disk.location path = disk'.location path := by
  rw [location, location, same.current]

end SameBut

section

variable {place names : List String} {root root' tree tree' : FileTree}

/-- On the way along the same names, the trees are the same but for the file. -/
theorem at_of_along (same : FileTree.SameBut place root root')
    {trees trees' above above' : List FileTree}
    (way : Along root names trees) (way' : Along root' names trees') (last : trees = tree :: above)
    (last' : trees' = tree' :: above') :
    (names.reverse = place ∧ tree.isDirectory = false) ∨
      FileTree.SameBut.At place names.reverse tree tree' := by
  -- Both ways go on by the same name, and only the end of them can be the file.
  induction way generalizing trees' tree tree' above above' with
  | start =>
    cases way'
    obtain ⟨rfl, -⟩ := List.cons.inj last
    obtain ⟨rfl, -⟩ := List.cons.inj last'
    exact .inr (.inr ⟨place, rfl, same⟩)
  | @child names here inner outer name way known noisy ih =>
    cases way' with
    | child way' known' _ =>
      obtain ⟨rfl, -⟩ := List.cons.inj last
      obtain ⟨rfl, -⟩ := List.cons.inj last'
      -- What has entries is not the file.
      have alike := (ih way' rfl rfl).resolve_left fun file => by
        rw [FileTree.isDirectory_of_child? known] at file
        cases file.2
      rw [List.reverse_cons]
      refine (alike.exists_child known).imp_right ?_
      rintro ⟨inner', known'', alike⟩
      exact Option.some.inj (known''.symm.trans known') ▸ alike

/-- A step that can be taken on the one way can be taken on the other one, unless it leads to the
file. -/
theorem enter_of_same (same : FileTree.SameBut place root root') {trees trees' next : List FileTree}
    (way : Along root names trees) (way' : Along root' names trees') {segment : String}
    (entered : enter trees segment = .ok next) :
    ((climb names segment).reverse = place ∧ ∃ file above, next = file :: above ∧
        file.isDirectory = false) ∨
      ∃ next', enter trees' segment = .ok next' := by
  -- Both steps are taken from trees of one kind, so that they stay, go up or go down together.
  cases trees with
  | nil => cases entered
  | cons here above =>
    cases trees' with
    | nil => cases way'
    | cons here' above' =>
      rw [enter] at entered
      split at entered
      · cases entered
      · rename_i inside
        have alike := (at_of_along same way way' rfl rfl).resolve_left fun file =>
          inside (by simp [file.2])
        have inside' : ¬ (! here'.isDirectory) = true := alike.isDirectory_eq ▸ inside
        rw [enter, if_neg inside', climb]
        -- Staying and going up take no entry; only going down can lead to the file.
        split at entered
        · rename_i silent
          simp only [if_pos silent]
          exact .inr ⟨_, rfl⟩
        · rename_i noisy
          simp only [if_neg noisy]
          split at entered
          · rename_i up
            simp only [if_pos up]
            exact .inr ⟨_, rfl⟩
          · rename_i down
            simp only [if_neg down]
            split at entered
            · rename_i tree known
              cases entered
              rcases alike.exists_child known with ⟨here, file⟩ | ⟨inner', known', -⟩
              · exact .inl ⟨by simpa using here, tree, _, rfl, file⟩
              · rw [known']
                exact .inr ⟨_, rfl⟩
            · cases entered

/-- A way that can be gone on the one disk can be gone on the other one, unless it leads to the
file. -/
theorem foldlM_of_same (same : FileTree.SameBut place root root') {segments : List String} :
    ∀ {names : List String} {trees trees' above : List FileTree} {last : FileTree},
      Along root names trees → Along root' names trees' →
      segments.foldlM enter trees = .ok (last :: above) →
      ((segments.foldl climb names).reverse = place ∧ last.isDirectory = false) ∨
        ∃ next, segments.foldlM enter trees' = .ok next := by
  -- From the file, no further step can be taken.
  induction segments with
  | nil =>
    intro names trees trees' above last way way' entered
    exact .inr ⟨trees', rfl⟩
  | cons segment rest ih =>
    intro names trees trees' above last way way' entered
    rw [List.foldlM_cons] at entered
    cases first : enter trees segment with
    | error cause => simp [first, bind, Except.bind] at entered
    | ok between =>
      simp only [first, bind, Except.bind] at entered
      rw [List.foldl_cons]
      rcases enter_of_same same way way' first with
        ⟨here, file, above', rfl, isFile⟩ | ⟨next, first'⟩
      · cases rest with
        | nil =>
          cases entered
          exact .inl ⟨here, isFile⟩
        | cons second rest => simp [enter, isFile, bind, Except.bind] at entered
      · rw [List.foldlM_cons, first']
        exact ih (along_enter way first) (along_enter way' first') entered

end

namespace SameBut

variable {place : List String} {disk disk' : Disk} {tree : FileTree} {path : Path}

/-- What is found at a path is found there on the other disk, but for the file. -/
theorem exists_find (same : SameBut place disk disk') (found : disk.find path = .ok tree) :
    (disk.location path = place ∧ tree.isDirectory = false) ∨
      ∃ tree', disk'.find path = .ok tree' ∧
        FileTree.SameBut.At place (disk.location path) tree tree' := by
  -- The way to the path can be taken on the other disk, up to the file.
  obtain ⟨above, leads⟩ := find_eq_ok found
  rcases foldlM_of_same same.root .start .start leads with file | ⟨next, leads'⟩
  · exact .inl file
  · rw [same.current] at leads'
    cases next with
    -- A way has at least the root behind it.
    | nil => exact absurd rfl (along_foldlM .start leads').ne_nil
    | cons tree' above' =>
      have found' : disk'.find path = .ok tree' :=
        find_of_foldlM (starts_of_find found) above' leads'
      have way := along_foldlM .start leads
      have way' := along_foldlM .start leads'
      rw [← same.current] at way'
      exact (at_of_along same.root way way' rfl rfl).imp_right fun alike => ⟨tree', found', alike⟩

/-- A directory is found there, and is the same but for the file. -/
theorem exists_find_directory (same : SameBut place disk disk')
    {entries : List (String × FileTree)} (found : disk.find path = .ok (.directory entries)) :
    ∃ entries', disk'.find path = .ok (.directory entries') ∧
      FileTree.SameBut.At place (disk.location path) (.directory entries)
        (.directory entries') := by
  -- What is found there is a directory as well, and not the file.
  rcases same.exists_find found with ⟨-, file⟩ | ⟨tree', found', alike⟩
  · cases file
  · have directory := alike.isDirectory_eq
    cases tree' with
    | file => cases directory
    | directory entries' => exact ⟨entries', found', alike⟩

/-- Directories are in the same places on both disks. -/
theorem hasDirectory_eq (same : SameBut place disk disk') (path : Path) :
    disk.hasDirectory path = disk'.hasDirectory path := by
  -- A directory on the one disk is one on the other disk, and the difference has two sides.
  have implies {disk disk' : Disk} (same : SameBut place disk disk')
      (has : disk.hasDirectory path = true) : disk'.hasDirectory path = true := by
    obtain ⟨tree, found, directory⟩ := hasDirectory_iff.1 has
    rcases same.exists_find found with ⟨-, file⟩ | ⟨tree', found', alike⟩
    · rw [directory] at file
      cases file
    · exact hasDirectory_iff.2 ⟨tree', found', alike.isDirectory_eq ▸ directory⟩
  exact Bool.eq_iff_iff.2 ⟨implies same, implies same.symm⟩

/-- Everywhere but at the place of the file, there is the same or nothing on both disks. -/
theorem contains_eq (same : SameBut place disk disk') (elsewhere : disk.location path ≠ place) :
    disk.contains path = disk'.contains path := by
  -- What is found on the one disk is found on the other disk, and the difference has two sides.
  have implies {disk disk' : Disk} (same : SameBut place disk disk')
      (elsewhere : disk.location path ≠ place) (has : disk.contains path = true) :
      disk'.contains path = true := by
    obtain ⟨tree, found⟩ := contains_iff.1 has
    rcases same.exists_find found with ⟨here, -⟩ | ⟨tree', found', -⟩
    · exact absurd here elsewhere
    · exact contains_of_find found'
  exact Bool.eq_iff_iff.2
    ⟨implies same elsewhere, implies same.symm (same.location_eq path ▸ elsewhere)⟩

/-- Every file but the one has the same text on both disks. -/
theorem text?_eq (same : SameBut place disk disk') (elsewhere : disk.location path ≠ place) :
    disk.text? path = disk'.text? path := by
  -- The one has a text exactly when the other one has it, since the difference has two sides.
  have implies {disk disk' : Disk} (same : SameBut place disk disk')
      (elsewhere : disk.location path ≠ place) {text : Option String}
      (found : disk.find path = .ok (.file text)) : disk'.find path = .ok (.file text) := by
    rcases same.exists_find found with ⟨here, -⟩ | ⟨tree', found', alike⟩
    · exact absurd here elsewhere
    · rw [found', alike.eq_file]
  rw [text?, text?]
  split
  · rename_i text found
    rw [implies same elsewhere found]
  · rename_i missing
    split
    · rename_i text found
      exact absurd (implies same.symm (same.location_eq path ▸ elsewhere) found) (missing text)
    · rfl

end SameBut

end Disk

end PropCatalog
