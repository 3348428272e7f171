import PropCatalog.Proofs.Disk.FileTree

/-! The directories above a path, which are reached by taking one component after the other away,
and what is in them. -/

namespace PropCatalog

namespace Path

variable {path parent : Path}

/-- The path that is left when a number of components is taken away, one after the other. There is
none when there are not so many. -/
def above? (path : Path) : Nat → Option Path
  | 0 => some path
  | count + 1 => (path.above? count).bind parent?

/-- Taking components away can begin with the last one of the path itself. -/
theorem above?_succ (path : Path) (count : Nat) :
    path.above? (count + 1) = path.parent?.bind fun parent => parent.above? count := by
  -- The last component that is taken away is the same on both sides.
  induction count with
  | zero => simp [above?]
  | succ count ih => rw [above?, ih, Option.bind_assoc]; rfl

/-- The components that can be taken away: all but the root. -/
def removable (path : Path) : List String :=
  path.splitDot.1 ++ path.names

/-- A path names its root and what can be taken away. -/
theorem components_eq_removable (path : Path) :
    path.components = (if path.rooted then ["/"] else []) ++ path.removable := by
  rw [components_eq, lead, removable, List.append_assoc]

/-- A dot in front counts only where no root is in front of it. -/
theorem splitDot_fst (path : Path) :
    path.splitDot.1 =
      if path.rooted = false ∧ path.segments.head? = some "." then ["."] else [] := by
  -- The root and the first segment decide between the cases.
  rcases path with ⟨rooted, segments⟩
  cases rooted with
  | true => rfl
  | false =>
    cases segments with
    | nil => rfl
    | cons first rest => by_cases dot : first = "." <;> simp [splitDot, dot]

/-- The dot and what follows it are the segments of the path. -/
theorem splitDot_append (path : Path) : path.splitDot.1 ++ path.splitDot.2 = path.segments := by
  -- A dot is only taken off the front.
  unfold splitDot
  split
  · rename_i segments
    exact segments.symm
  · rfl

/-- What comes first among the segments of a path starts with the same dot, and its names are the
first names. -/
theorem removable_of_first {body : List String} (first : body <+: path.splitDot.2) :
    (⟨path.rooted, path.splitDot.1 ++ body⟩ : Path).removable =
      path.splitDot.1 ++ body.filter (! isSilent ·) := by
  -- A dot in front of the part would be one in front of the whole path.
  have whole := path.splitDot_append
  have dot := path.splitDot_fst
  rw [removable, splitDot_fst, names]
  split at dot
  · rename_i leads
    rw [dot]
    simp [leads.1, isSilent]
  · rename_i bare
    rw [dot, List.nil_append] at whole
    rw [whole] at first
    -- A dot that comes first there would come first in the path.
    have bare' : ¬ (path.rooted = false ∧ body.head? = some ".") := by
      rintro ⟨relative, head⟩
      obtain ⟨rest, joined⟩ := first
      refine bare ⟨relative, ?_⟩
      rw [← joined, List.head?_append, head]
      rfl
    rw [dot, List.nil_append, List.nil_append, if_neg bare', List.nil_append]

/-- The dot in front is no name. -/
theorem names_eq (path : Path) : path.names = path.splitDot.2.filter (! isSilent ·) := by
  -- All that is split off is a dot, which names nothing.
  have dot : path.splitDot.1.filter (! isSilent ·) = [] := by
    rw [splitDot_fst]
    split <;> rfl
  rw [names, ← splitDot_append, List.filter_append, dot, List.nil_append]

/-- Segments of which none is left name nothing, and otherwise the last one left is a name. -/
theorem dropSilentEnd_cases (segments : List String) :
    dropSilentEnd segments = [] ∧ segments.filter (! isSilent ·) = [] ∨
      ∃ init name, dropSilentEnd segments = init ++ [name] ∧
        segments.filter (! isSilent ·) = init.filter (! isSilent ·) ++ [name] := by
  -- What is left after dropping is empty, or it ends in a segment that is not silent.
  rcases List.eq_nil_or_concat (dropSilentEnd segments) with none | ⟨init, name, ends⟩
  · refine .inl ⟨none, ?_⟩
    rw [← filter_dropSilentEnd, none]
    rfl
  · rw [List.concat_eq_append] at ends
    -- Dropping from the end stops at what is not silent.
    have reversed : segments.reverse.dropWhile isSilent = name :: init.reverse := by
      rw [← List.reverse_reverse (segments.reverse.dropWhile isSilent)]
      exact (congrArg List.reverse ends).trans List.reverse_concat
    have noisy := List.head?_dropWhile_not isSilent segments.reverse
    rw [reversed] at noisy
    refine .inr ⟨init, name, ends, ?_⟩
    rw [← filter_dropSilentEnd, ends, List.filter_append]
    simpa using noisy

/-- A path without components to take away is above no other one of its chain. -/
theorem parent?_eq_none_iff : path.parent? = none ↔ path.removable = [] := by
  -- A name at the end can be taken away, and without names a dot in front.
  rw [removable, names_eq]
  unfold parent?
  rcases dropSilentEnd_cases path.splitDot.2 with ⟨none, silent⟩ | ⟨init, name, ends, names⟩
  · cases dot : path.splitDot.1 <;> simp [none, silent, dot]
  · simp [ends, names]

/-- Taking a component away keeps the root and all other components. -/
theorem removable_of_parent? (known : path.parent? = some parent) :
    parent.rooted = path.rooted ∧ parent.removable = path.removable.dropLast := by
  -- The last name is taken away, or else the dot in front.
  unfold parent? at known
  rcases dropSilentEnd_cases path.splitDot.2 with ⟨none, silent⟩ | ⟨init, name, ends, names⟩
  · -- The only component is a dot in front.
    have single : path.splitDot.1 = ["."] := by
      have dot := path.splitDot_fst
      split at dot
      · exact dot
      · simp [none, dot] at known
    obtain rfl : ⟨path.rooted, []⟩ = parent := by simpa [none, single] using known
    refine ⟨rfl, ?_⟩
    rw [removable, splitDot_fst, removable, path.names_eq, silent, single]
    simp [Path.names]
  · obtain rfl : ⟨path.rooted, path.splitDot.1 ++ dropSilentEnd init⟩ = parent := by
      simpa [ends] using known
    -- What is left comes first in the path.
    have first : dropSilentEnd init <+: path.splitDot.2 := by
      have whole : init ++ [name] <+: path.splitDot.2 := ends ▸ dropSilentEnd_prefix path.splitDot.2
      have inner : dropSilentEnd init <+: init := dropSilentEnd_prefix init
      exact inner.trans ((List.prefix_append init [name]).trans whole)
    refine ⟨rfl, ?_⟩
    rw [removable_of_first first, filter_dropSilentEnd, removable, path.names_eq, names,
      ← List.append_assoc, List.dropLast_concat]

/-- As many components can be taken away as there are, and what is left are the others. -/
theorem exists_above? (path : Path) (count : Nat) (enough : count ≤ path.removable.length) :
    ∃ above, path.above? count = some above ∧ above.rooted = path.rooted ∧
      above.removable = path.removable.take (path.removable.length - count) := by
  -- One component after the other is taken away, and the others are counted down.
  induction count with
  | zero => exact ⟨path, rfl, rfl, by rw [Nat.sub_zero, List.take_length]⟩
  | succ count ih =>
    obtain ⟨above, known, rooted, left⟩ := ih (by omega)
    -- One more component is left there, so there is a path above.
    have some : above.parent? ≠ none := by
      intro none
      have length := congrArg List.length (left.symm.trans (parent?_eq_none_iff.1 none))
      rw [List.length_take, List.length_nil] at length
      omega
    obtain ⟨parent, next⟩ := Option.ne_none_iff_exists'.1 some
    obtain ⟨rooted', left'⟩ := removable_of_parent? next
    refine ⟨parent, by rw [above?, known]; exact next, rooted'.trans rooted, ?_⟩
    rw [left', left, List.dropLast_eq_take, List.take_take, List.length_take]
    congr 1
    omega

/-- No more components can be taken away than there are. -/
theorem above?_eq_none (path : Path) (count : Nat) (more : path.removable.length < count) :
    path.above? count = none := by
  -- The first step too many starts at a path of which nothing can be taken away.
  induction count with
  | zero => omega
  | succ count ih =>
    by_cases last : count = path.removable.length
    · -- Nothing but the root is left by now.
      obtain ⟨above, known, -, left⟩ := path.exists_above? count (by omega)
      rw [last, Nat.sub_self, List.take_zero] at left
      rw [above?, known]
      exact parent?_eq_none_iff.2 left
    · rw [above?, ih (by omega)]
      rfl

theorem isSome_above?_iff (path : Path) (count : Nat) :
    (path.above? count).isSome ↔ count ≤ path.removable.length := by
  -- Both counts are covered: those that are left, and those that are too many.
  by_cases enough : count ≤ path.removable.length
  · obtain ⟨above, known, -⟩ := path.exists_above? count enough
    simp [known, enough]
  · simp [path.above?_eq_none count (by omega), enough]

/-- What is left of a path tells how many components were taken away. -/
theorem removable_of_above? {above : Path} {count : Nat} (known : path.above? count = some above) :
    count ≤ path.removable.length ∧ above.rooted = path.rooted ∧
      above.removable = path.removable.take (path.removable.length - count) := by
  -- The path that is left is the one that there is for the count.
  have enough : count ≤ path.removable.length :=
    (path.isSome_above?_iff count).1 (by rw [known]; rfl)
  obtain ⟨above', known', rooted, left⟩ := path.exists_above? count enough
  obtain rfl : above = above' := Option.some.inj (known.symm.trans known')
  exact ⟨enough, rooted, left⟩

/-- The root is never among the components that are taken away. -/
theorem components_of_above? {above : Path} {count : Nat} (known : path.above? count = some above) :
    above.components = path.components.take (path.components.length - count) := by
  -- The root comes first among the components, and what can be taken away behind it.
  obtain ⟨enough, rooted, left⟩ := removable_of_above? known
  rw [components_eq_removable, components_eq_removable, rooted, left, List.length_append,
    Nat.add_sub_assoc enough, List.take_length_add_append]

/-- An entry of a directory tells how many components the path of the directory has. -/
theorem removable_eq_of_entry {other : Path} {name : String}
    (same : path.entry name = other.entry name) : path.removable = other.removable := by
  -- The entry is the front of the path with the name behind it.
  rw [entry_eq, entry_eq] at same
  obtain ⟨rooted, segments⟩ := Path.mk.inj same
  have front : path.front = other.front := List.append_cancel_right segments
  -- A dot in front of a path is in front of its front, too.
  have head (path : Path) : path.segments.head? = some "." ↔ path.front.head? = some "." := by
    rcases path.segments_eq_front with whole | more
    · rw [← whole]
    · rw [more]
      cases path.front <;> simp
  rw [removable, removable, splitDot_fst, splitDot_fst, ← names_front, ← names_front, rooted, front]
  simp only [head, front]

end Path

namespace FileTree

/-- The names of what is in a directory; nothing is in a file. -/
def listing (tree : FileTree) : List String :=
  tree.entries.map Prod.fst

/-- A directory has an entry of a name exactly when it lists the name. -/
theorem mem_listing_iff {tree : FileTree} {name : String} :
    name ∈ tree.listing ↔ ∃ inner, tree.child? name = some inner := by
  -- The listing has the names that a child is looked up by.
  rw [← Option.ne_none_iff_exists', child?, ne_eq, List.lookup_eq_none_iff, listing, List.mem_map]
  simp only [bne_iff_ne, ne_eq, not_forall, not_not]
  constructor
  · rintro ⟨entry, member, rfl⟩
    exact ⟨entry, member, rfl⟩
  · rintro ⟨entry, member, same⟩
    exact ⟨entry, member, same.symm⟩

end FileTree

namespace Disk

/-- The names in a tree that is looked for; there are none when it is not found. -/
def listingOf : Except AccessError FileTree → List String
  | .ok tree => tree.listing
  | .error _ => []

/-- The names of what is in the directory at a path, where the path of an empty text stands for the
current directory. There are none where no directory is. -/
def listing (disk : Disk) (path : Path) : List String :=
  listingOf (disk.find (if path = .empty then ⟨false, ["."]⟩ else path))

/-- The names in the tree that a way ends at. -/
def listingAt : Except AccessError (List FileTree) → List String
  | .ok (tree :: _) => tree.listing
  | _ => []

/-- What is in a directory can be told by the way to its path. -/
theorem listing_find (disk : Disk) {path : Path}
    (some : path.rooted = true ∨ path.segments ≠ []) :
    listingOf (disk.find path) =
      listingAt (((if path.rooted then [] else disk.current) ++ path.segments).foldlM enter
        [disk.root]) := by
  -- The tree that is found is the one that the way ends at.
  have named : (path.rooted || ! path.segments.isEmpty) = true := by simpa using some
  rw [find, if_pos named]
  dsimp only
  cases ((if path.rooted then [] else disk.current) ++ path.segments).foldlM enter
      [disk.root] with
  | error cause => rfl
  | ok trees => cases trees <;> rfl

/-- A segment that names nothing leads to no other directory. -/
theorem listingAt_silent {segment : String} (silent : Path.isSilent segment = true)
    (segments : List String) (trees : List FileTree) :
    listingAt ((segments ++ [segment]).foldlM enter trees) =
      listingAt (segments.foldlM enter trees) := by
  -- The segment stays where it is, if that is a directory.
  rw [List.foldlM_append]
  cases segments.foldlM enter trees with
  | error cause => rfl
  | ok reached =>
    cases reached with
    | nil => rfl
    | cons here above =>
      -- From a file no step can be taken, and nothing is in it.
      cases here with
      | file text => rfl
      | directory entries =>
        simp [bind, Except.bind, enter, FileTree.isDirectory, silent, pure, Except.pure]

/-- A name leads on exactly when it is one of those in the directory. -/
theorem enter_name_iff {name : String} (named : IsName name) (segments : List String)
    (trees : List FileTree) :
    (∃ tree above, (segments ++ [name]).foldlM enter trees = .ok (tree :: above)) ↔
      name ∈ listingAt (segments.foldlM enter trees) := by
  -- The step over the name is the last one, and it starts where the listing is.
  rw [List.foldlM_append]
  cases segments.foldlM enter trees with
  | error cause => simp [listingAt, bind, Except.bind]
  | ok reached =>
    cases reached with
    | nil => simp [listingAt, bind, Except.bind, enter]
    | cons here above =>
      rw [listingAt, FileTree.mem_listing_iff]
      -- A step into a directory finds the entry of the name.
      cases here with
      | file text =>
        simp [bind, Except.bind, enter, FileTree.isDirectory, FileTree.child?, FileTree.entries]
      | directory entries =>
        simp only [bind, Except.bind, List.foldlM_cons, List.foldlM_nil, enter,
          FileTree.isDirectory, named.noisy, named.down, pure, Except.pure]
        cases (FileTree.directory entries).child? name <;> simp

/-- What is in a directory is told by the way along its front. -/
theorem listing_eq (disk : Disk) (path : Path) :
    disk.listing path =
      listingAt (((if path.rooted then [] else disk.current) ++ path.front).foldlM enter
        [disk.root]) := by
  -- The path and its front differ in an empty segment at most.
  rw [listing]
  by_cases empty : path = .empty
  · -- The dot that stands for the empty path names nothing, either.
    rw [if_pos empty, listing_find disk (.inr (List.cons_ne_nil _ _)), listingAt_silent rfl, empty]
    simp [Path.empty, Path.front]
  · rw [if_neg empty]
    have some : path.rooted = true ∨ path.segments ≠ [] := by
      rcases path with ⟨rooted, segments⟩
      simpa [Path.empty, imp_iff_not_or] using empty
    rw [listing_find disk some]
    rcases path.segments_eq_front with whole | more
    · rw [← whole]
    · -- The empty segment at the end names nothing.
      rw [more, ← List.append_assoc, listingAt_silent rfl]

/-- An entry is found behind the path of a directory exactly when the directory lists its name. -/
theorem contains_entry_iff (disk : Disk) (path : Path) {name : String} (named : IsName name) :
    disk.contains (path.entry name) = true ↔ name ∈ disk.listing path := by
  -- The way to the entry is the way along the front of the path and then to the name.
  rw [contains_iff, listing_eq, ← enter_name_iff named, Path.entry_eq]
  constructor
  · rintro ⟨tree, found⟩
    obtain ⟨above, leads⟩ := find_eq_ok found
    rw [← List.append_assoc] at leads
    exact ⟨tree, above, leads⟩
  · rintro ⟨tree, above, leads⟩
    rw [List.append_assoc] at leads
    exact ⟨tree, find_of_foldlM (.inr (by simp)) above leads⟩

end Disk

end PropCatalog
