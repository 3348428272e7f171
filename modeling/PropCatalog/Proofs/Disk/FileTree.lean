import PropCatalog.Disk.FileTree
import PropCatalog.Proofs.Disk.Path
import PropCatalog.Proofs.Occurrence

/-! What a path below a directory leads to: it hangs on the directory only, and not on where that
is. -/

namespace PropCatalog

/-- Whether a text can name an entry of a directory. -/
structure IsName (name : String) : Prop where
  noisy : Path.isSilent name = false
  down : name ≠ ".."
  spelled : '/' ∉ name.toList

instance (name : String) : Decidable (IsName name) :=
  decidable_of_iff (Path.isSilent name = false ∧ name ≠ ".." ∧ '/' ∉ name.toList)
    ⟨fun ⟨noisy, down, spelled⟩ => ⟨noisy, down, spelled⟩,
      fun named => ⟨named.noisy, named.down, named.spelled⟩⟩

namespace FileTree

/-- Whether a tree can be on a disk: every entry of a directory has a name of its own. -/
inductive Proper : FileTree → Prop where
  | file (text : Option String) : Proper (.file text)
  | directory {entries : List (String × FileTree)} (names : ∀ entry ∈ entries, IsName entry.1)
      (distinct : (entries.map Prod.fst).Nodup) (inner : ∀ entry ∈ entries, Proper entry.2) :
    Proper (.directory entries)

/-- What names lead down to from a tree. -/
def follow : FileTree → List String → Except AccessError FileTree
  | tree, [] => .ok tree
  | tree, segment :: rest =>
    if ! tree.isDirectory then .error .notDirectory
    else if Path.isSilent segment then tree.follow rest
    else
      match tree.child? segment with
      | some inner => inner.follow rest
      | none => .error .missing

/-- What is in a proper tree is proper. -/
theorem Proper.follow {tree inner : FileTree} (proper : tree.Proper) {segments : List String}
    (leads : tree.follow segments = .ok inner) : inner.Proper := by
  -- Each step stays, or goes to an entry, and all entries of a proper directory are proper.
  induction segments generalizing tree with
  | nil => exact Except.ok.inj leads ▸ proper
  | cons segment rest ih =>
    rw [FileTree.follow] at leads
    split at leads
    · cases leads
    · split at leads
      · exact ih proper leads
      · split at leads
        · rename_i child known
          refine ih ?_ leads
          cases proper with
          | file => simp [child?, entries] at known
          | directory names distinct inner => exact inner (segment, child) (mem_of_lookup known)
        · cases leads

/-- Names that lead from a directory to a file end with one that is not silent. -/
theorem last_of_follow {tree : FileTree} {segments : List String} {text : Option String}
    (leads : tree.follow segments = .ok (.file text)) (directory : tree.isDirectory = true) :
    ∃ name, segments.getLast? = some name ∧ Path.isSilent name = false := by
  -- The segments are followed from the front, through directories up to the file.
  induction segments generalizing tree with
  | nil =>
    rw [Except.ok.inj leads] at directory
    cases directory
  | cons segment rest ih =>
    rw [FileTree.follow, directory] at leads
    -- Either the file is here, or the names that are left lead to it from a directory.
    by_cases silent : Path.isSilent segment = true
    · rw [if_neg (by simp), if_pos silent] at leads
      obtain ⟨name, last, noisy⟩ := ih leads directory
      exact ⟨name, by simp [List.getLast?_cons, last], noisy⟩
    · rw [if_neg (by simp), if_neg silent] at leads
      split at leads
      · rename_i inner _
        cases rest with
        | nil => exact ⟨segment, rfl, by simpa using silent⟩
        | cons second more =>
          have inside : inner.isDirectory = true := by
            by_contra outside
            rw [Bool.not_eq_true] at outside
            simp [FileTree.follow, outside] at leads
          obtain ⟨name, last, noisy⟩ := ih leads inside
          exact ⟨name, by rw [List.getLast?_cons, last]; rfl, noisy⟩
      · cases leads

/-- A directory that is proper has no other entry of a name. -/
theorem Proper.child?_eq {entries : List (String × FileTree)}
    (proper : (FileTree.directory entries).Proper) {name : String} {inner : FileTree}
    (member : (name, inner) ∈ entries) : (FileTree.directory entries).child? name = some inner := by
  -- No entry in front of this one has its name.
  cases proper with
  | directory names distinct _ =>
    obtain ⟨before, after, rfl⟩ := List.append_of_mem member
    rw [List.map_append, List.map_cons, List.nodup_append] at distinct
    have other : ∀ entry ∈ before, (name != entry.1) = true := fun entry earlier =>
      bne_iff_ne.2 fun same => distinct.2.2 _ (List.mem_map_of_mem earlier) _
        List.mem_cons_self same.symm
    rw [child?, FileTree.entries, List.lookup_append, List.lookup_eq_none_iff.2 other]
    simp

end FileTree

namespace Disk

variable {disk disk' : Disk} {base base' : Path} {tree : FileTree}

/-- Names that lead down lead to what is below, wherever that is. -/
theorem head_foldlM_enter {segments : List String} (down : ".." ∉ segments) (tree : FileTree)
    (above : List FileTree) :
    (segments.foldlM enter (tree :: above)).map List.head? =
      (tree.follow segments).map some := by
  -- Both ways take the same steps, and the one that keeps what is above never needs it.
  induction segments generalizing tree above with
  | nil => rfl
  | cons segment rest ih =>
    rw [List.mem_cons, not_or] at down
    rw [List.foldlM_cons, FileTree.follow, enter]
    -- Each step looks at the tree that it starts from, and only two dots look above that.
    by_cases directory : (! tree.isDirectory) = true
    · simp only [if_pos directory]
      rfl
    · by_cases silent : Path.isSilent segment = true
      · simp only [if_neg directory, if_pos silent]
        exact ih down.2 tree above
      · simp only [if_neg directory, if_neg silent, if_neg (Ne.symm down.1)]
        cases tree.child? segment with
        | none => rfl
        | some inner => exact ih down.2 inner (tree :: above)

theorem contains_of_find (found : disk.find base = .ok tree) : disk.contains base = true := by
  -- To be there is to be found.
  rw [contains, found]
  rfl

theorem hasDirectory_iff :
    disk.hasDirectory base = true ↔
      ∃ tree, disk.find base = .ok tree ∧ tree.isDirectory = true := by
  -- The answer is read off what is found.
  rw [hasDirectory]
  split
  · rename_i tree found
    simp [found]
  · rename_i cause missing
    simp [missing]

theorem contains_iff : disk.contains base = true ↔ ∃ tree, disk.find base = .ok tree := by
  -- The answer is whether the search succeeds.
  rw [contains]
  cases disk.find base <;> simp [Except.isOk, Except.toBool]

/-- Nothing is at the path of an empty text. -/
theorem starts_of_find (found : disk.find base = .ok tree) :
    base.rooted = true ∨ base.segments ≠ [] := by
  -- A path without a root and without segments is given up at once.
  by_contra none
  rw [not_or, not_not, Bool.not_eq_true] at none
  simp [find, none.1, none.2] at found

/-- What is found is where the segments lead to. -/
theorem find_eq_ok (found : disk.find base = .ok tree) :
    ∃ above, ((if base.rooted then [] else disk.current) ++ base.segments).foldlM enter
      [disk.root] = .ok (tree :: above) := by
  -- The tree that is found stands on top of those that the way leads through.
  unfold find at found
  generalize (if base.rooted then [] else disk.current) ++ base.segments = segments at found ⊢
  split at found
  · dsimp only at found
    split at found <;> cases found
    rename_i above leads
    exact ⟨above, leads⟩
  · cases found

/-- What the segments lead to is found. -/
theorem find_of_foldlM (some : base.rooted = true ∨ base.segments ≠ []) (above : List FileTree)
    (leads : ((if base.rooted then [] else disk.current) ++ base.segments).foldlM enter
      [disk.root] = .ok (tree :: above)) : disk.find base = .ok tree := by
  -- The search takes the same way, once the path is not empty.
  have named : (base.rooted || ! base.segments.isEmpty) = true := by simpa using some
  rw [find, if_pos named]
  dsimp only
  rw [leads]

/-- A directory is where its front leads to. -/
theorem foldlM_front (found : disk.find base = .ok tree) :
    ∃ above, ((if base.rooted then [] else disk.current) ++ base.front).foldlM enter [disk.root] =
      .ok (tree :: above) := by
  -- The path has an empty segment behind its front, or it is its front.
  obtain ⟨above, leads⟩ := find_eq_ok found
  rcases base.segments_eq_front with whole | more
  · exact ⟨above, whole ▸ leads⟩
  · -- The empty segment at the end leads nowhere else.
    rw [more, ← List.append_assoc, List.foldlM_append] at leads
    refine ⟨above, ?_⟩
    cases front : ((if base.rooted then [] else disk.current) ++ base.front).foldlM enter
        [disk.root] with
    | error cause => simp [front, bind, Except.bind] at leads
    | ok trees =>
      cases trees with
      | nil => simp [front, bind, Except.bind, enter] at leads
      | cons here rest =>
        by_cases inside : here.isDirectory = true
        · simpa [front, bind, Except.bind, pure, Except.pure, enter, inside, Path.isSilent]
            using leads
        · simp [front, bind, Except.bind, enter, inside] at leads

/-- On the way to a directory, there are directories only. -/
theorem foldlM_prefix {trees above : List FileTree} {segments others : List String}
    (leads : (segments ++ others).foldlM enter trees = .ok (tree :: above))
    (directory : tree.isDirectory = true) :
    ∃ here above', segments.foldlM enter trees = .ok (here :: above') ∧
      here.isDirectory = true := by
  -- The way is split, and it goes on behind the first part, or ends there.
  rw [List.foldlM_append] at leads
  cases first : segments.foldlM enter trees with
  | error cause => simp [first, bind, Except.bind] at leads
  | ok reached =>
    simp only [first, bind, Except.bind] at leads
    cases reached with
    | nil => cases others <;> cases leads
    | cons here above' =>
      refine ⟨here, above', rfl, ?_⟩
      -- A step is taken from a directory only.
      cases others with
      | nil =>
        cases leads
        exact directory
      | cons next rest =>
        by_contra outside
        rw [Bool.not_eq_true] at outside
        simp [enter, outside, bind, Except.bind] at leads

/-- What names nothing leads nowhere else. -/
theorem foldlM_silent {segments : List String} {above : List FileTree}
    (silent : ∀ segment ∈ segments, Path.isSilent segment = true)
    (directory : tree.isDirectory = true) :
    segments.foldlM enter (tree :: above) = .ok (tree :: above) := by
  -- Each of the segments stays where it is.
  induction segments with
  | nil => rfl
  | cons segment rest ih =>
    obtain ⟨here, below⟩ := List.forall_mem_cons.1 silent
    rw [List.foldlM_cons, enter, directory, here]
    exact ih below

/-- An entry of a proper directory is found behind the path of the directory. -/
theorem find_entry {entries : List (String × FileTree)}
    (found : disk.find base = .ok (.directory entries))
    (proper : (FileTree.directory entries).Proper) {name : String} {inner : FileTree}
    (member : (name, inner) ∈ entries) :
    disk.find (base.entry name) = .ok inner := by
  -- The way to the directory is taken one step further, to the only entry of the name.
  obtain ⟨above, front⟩ := foldlM_front found
  have named : IsName name := by
    cases proper with
    | directory names => exact names _ member
  have entered : enter (.directory entries :: above) name =
      .ok (inner :: .directory entries :: above) := by
    simp [enter, FileTree.isDirectory, named.noisy, named.down, proper.child?_eq member]
  refine find_of_foldlM (.inr (by simp [Path.entry_eq])) (.directory entries :: above) ?_
  rw [Path.entry_eq, ← List.append_assoc, List.foldlM_append, front]
  simp only [List.foldlM_cons, List.foldlM_nil, bind, Except.bind, pure, Except.pure, entered]

/-- What lies below a directory hangs on the directory only. -/
theorem find_join (place : base.IsPlace) (found : disk.find base = .ok tree)
    (directory : tree.isDirectory = true) {rel : Path} (stays : rel.Stays) :
    disk.find (base.join rel) = tree.follow rel.segments := by
  -- The front of the place leads to the directory, and the rest hangs on nothing above that.
  obtain ⟨above, front⟩ := foldlM_front found
  have down : ".." ∉ Path.tail base rel := by
    unfold Path.tail
    split
    · simp
    · exact stays.down
  have same : tree.follow (Path.tail base rel) = tree.follow rel.segments := by
    unfold Path.tail
    split
    · rename_i empty
      simp at empty
      simp [empty.1, FileTree.follow, directory, Path.isSilent]
    · rfl
  have some : (base.rooted || ! (base.front ++ Path.tail base rel).isEmpty) = true := by
    cases rooted : base.rooted with
    | true => rfl
    | false =>
      obtain ⟨first, rest, front, -, -⟩ := place.front_cons rooted
      simp [front]
  have head := head_foldlM_enter down tree above
  rw [same] at head
  rw [Path.join_eq base stays.relative, find, if_pos some]
  dsimp only
  rw [← List.append_assoc, List.foldlM_append, front]
  simp only [bind, Except.bind]
  cases leads : (Path.tail base rel).foldlM enter (tree :: above) <;>
    cases follow : tree.follow rel.segments <;> simp only [leads, follow, Except.map] at head
  case error.error => simpa using head
  case ok.ok trees inner => cases trees <;> simp_all
  all_goals cases head

end Disk

end PropCatalog
