import PropCatalog.Glob.Search
import PropCatalog.Proofs.Disk.Placement
import PropCatalog.Proofs.Glob.Pattern

/-! Searches for directories: below a root, they find what corresponds to what is found below
another place of the same directory. -/

namespace PropCatalog.Glob

open Path (Below Beside)

/-! ## Names that patterns stand for -/

/-- A pattern stands for a text only when it is made of its characters. -/
theorem tokens_of_literal? {pattern : Pattern} {name : String}
    (stands : pattern.literal? = some name) : pattern.tokens = name.toList.map .char := by
  -- Every token stands for one character.
  have each (tokens : List Token) (characters : List Char)
      (known : tokens.mapM Token.literal? = some characters) : tokens = characters.map .char := by
    induction tokens generalizing characters with
    | nil => simp_all
    | cons token rest ih =>
      rw [List.mapM_cons] at known
      obtain ⟨c, first, known⟩ := Option.bind_eq_some_iff.1 known
      obtain ⟨others, later, known⟩ := Option.bind_eq_some_iff.1 known
      obtain rfl : c :: others = characters := Option.some.inj known
      cases token <;> simp_all [Token.literal?]
  rw [Pattern.literal?, Option.map_eq_some_iff] at stands
  obtain ⟨characters, known, rfl⟩ := stands
  rw [each _ _ known, String.toList_ofList]

/-- A text without slashes that is not two dots leads down. -/
theorem stays_ofText {name : String} (down : name ≠ "..") (spelled : '/' ∉ name.toList) :
    (Path.ofText name).Stays := by
  -- The text is the only segment, or there is none.
  refine ⟨?_, ?_, Path.spelled_ofText name⟩ <;> rw [Path.ofText_of_notMem spelled]
  dsimp only
  split
  · exact List.not_mem_nil
  · simpa using Ne.symm down

/-- Two dots are found only where a pattern finds special names. -/
theorem mem_specialNames_of_literal? {pattern : Pattern} (stands : pattern.literal? = some "..") :
    ".." ∈ specialNames pattern := by
  -- Such a pattern has two dots for tokens.
  have tokens : pattern = ⟨[.char '.', .char '.']⟩ :=
    congrArg Pattern.mk (tokens_of_literal? stands)
  subst tokens
  decide

theorem eq_of_mem_specialNames {pattern : Pattern} {name : String}
    (member : name ∈ specialNames pattern) : name = "." ∨ name = ".." := by
  -- No other names are special.
  rw [specialNames] at member
  split at member
  · simpa using List.mem_of_mem_filter member
  · cases member

/-! ## Searches below corresponding paths -/

/-- Whether a pattern finds no way up, and no path below a name. -/
structure Pattern.Descends (pattern : Pattern) : Prop where
  down : ".." ∉ specialNames pattern
  spelled : ∀ name, pattern.literal? = some name → '/' ∉ name.toList

/-- A name that a pattern stands for leads down. -/
theorem Pattern.Descends.stays {pattern : Pattern} (descends : pattern.Descends) {name : String}
    (stands : pattern.literal? = some name) : (Path.ofText name).Stays :=
  stays_ofText (fun up => descends.down (mem_specialNames_of_literal? (up ▸ stands)))
    (descends.spelled name stands)

section

variable {disk disk' : Disk} {base base' path path' : Path} {tree : FileTree}

/-- Searches do not start at a path that names more than a dot. -/
theorem entryOf_eq (away : path.components ≠ here.components) (name : String) :
    entryOf path name = path.join (Path.ofText name) :=
  if_neg away

theorem baseOf_eq (away : path.components ≠ here.components) : baseOf path = path :=
  if_neg away

/-- What corresponds to a place that names more than a dot does so, too. -/
theorem components_ne_here (same : SamePlaces disk disk' base base' tree)
    (away : base.components ≠ here.components) (beside : Beside base base' path path') :
    path.components ≠ here.components := by
  -- A path that names a dot only would leave nothing but a dot for the place.
  obtain ⟨names, components, -⟩ := same.components_eq beside
  intro equal
  obtain ⟨first, rest, known⟩ := List.exists_cons_of_ne_nil same.place.components_ne_nil
  rw [components, known, List.cons_append] at equal
  obtain ⟨rfl, none⟩ := List.cons.inj equal
  exact away (by rw [known, (List.append_eq_nil_iff.1 none).1]; rfl)

/-- Whether patterns lead from corresponding paths below two places to corresponding ones. -/
def LeadBelow (disk disk' : Disk) (base base' : Path) (patterns : List Pattern) : Prop :=
  ∀ path path', Below base base' path path' →
    List.Forall₂ (Below base base') (searchFrom disk patterns path)
      (searchFrom disk' patterns path')

/-- A name leads to corresponding paths, if it is present at one of them. -/
theorem searchFrom_name (same : SamePlaces disk disk' base base' tree)
    (away : base.components ≠ here.components) (away' : base'.components ≠ here.components)
    {pattern : Pattern} {rest : List Pattern} {name : String}
    (stands : pattern.literal? = some name) (descends : pattern.Descends)
    (later : LeadBelow disk disk' base base' rest) (beside : Beside base base' path path') :
    List.Forall₂ (Below base base') (searchFrom disk (pattern :: rest) path)
      (searchFrom disk' (pattern :: rest) path') := by
  -- Both searches ask for the same, and they go on with the name or give up.
  have below : Below base base' (entryOf path name) (entryOf path' name) := by
    rw [entryOf_eq (components_ne_here same away beside),
      entryOf_eq (components_ne_here same.symm away' beside.symm)]
    exact beside.join (descends.stays stands)
  rw [searchFrom, searchFrom]
  simp only [stands, same.hasDirectory_eq beside, same.contains_eq (.below below)]
  split <;> split <;> first | exact later _ _ below | exact .nil

/-- The entries that a pattern matches correspond, and so does what it finds besides them. -/
theorem entries_below {pattern : Pattern} (descends : pattern.Descends)
    {entries : List (String × FileTree)} (names : ∀ entry ∈ entries, IsName entry.1)
    (beside : Beside base base' path path') :
    List.Forall₂ (Below base base')
      (((entries.filter fun (name, _) => pattern.isMatch name).map fun (name, _) =>
        path.entry name) ++ (specialNames pattern).map path.entry)
      (((entries.filter fun (name, _) => pattern.isMatch name).map fun (name, _) =>
        path'.entry name) ++ (specialNames pattern).map path'.entry) := by
  -- The pattern picks the same names on both sides, and each is added to a path.
  refine List.rel_append (forall₂_map_self fun entry member => ?_)
    (forall₂_map_self fun name member => beside.join (Path.stays_name ?_ ?_))
  · exact beside.entry (names entry (List.mem_of_mem_filter member))
  · exact fun up => descends.down (up ▸ member)
  · rcases eq_of_mem_specialNames member with rfl | rfl <;> decide

/-- The directories among what lies below two places correspond. -/
theorem directories_of_descendants {found found' : List (Path × FileTree)}
    (descendants : List.Forall₂ (FileTree.SameEntry base base') found found') :
    List.Forall₂ (Below base base') ((found.filter (·.2.isDirectory)).map Prod.fst)
      ((found'.filter (·.2.isDirectory)).map Prod.fst) := by
  -- An entry is the same directory on both sides, or none.
  rw [List.forall₂_map_left_iff, List.forall₂_map_right_iff]
  refine (List.rel_filter ?_ descendants).imp fun _ _ entry => entry.1
  exact fun _ _ entry => by simp [entry.2.1]

/-- What lies below two places and has a name that a pattern matches leads to what corresponds. -/
theorem flatMap_of_descendants {others : List Pattern} {found found' : List (Path × FileTree)}
    (descendants : List.Forall₂ (FileTree.SameEntry base base') found found') (next : Pattern)
    (later : LeadBelow disk disk' base base' others) :
    List.Forall₂ (Below base base')
      ((found.filter fun (path, _) => path.fileName?.any next.isMatch).flatMap
        fun (path, _) => searchFrom disk others path)
      ((found'.filter fun (path, _) => path.fileName?.any next.isMatch).flatMap
        fun (path, _) => searchFrom disk' others path) := by
  -- Corresponding entries have one name, so that both or none are gone on with.
  refine List.rel_flatMap (List.rel_filter ?_ descendants) fun _ _ entry => later _ _ entry.1
  rintro _ _ ⟨-, -, name, named, named'⟩
  simp [named, named']

/-- Patterns that descend lead from corresponding paths to corresponding ones below the places. -/
theorem searchFrom_below (same : SamePlaces disk disk' base base' tree)
    (away : base.components ≠ here.components) (away' : base'.components ≠ here.components)
    {patterns : List Pattern} (some : patterns ≠ [])
    (descend : ∀ pattern ∈ patterns, pattern.Descends) (beside : Beside base base' path path') :
    List.Forall₂ (Below base base') (searchFrom disk patterns path)
      (searchFrom disk' patterns path') := by
  -- A pattern for any components goes on behind the next pattern, or with that at the same path.
  induction length : patterns.length using Nat.strong_induction_on
    generalizing patterns path path' with
  | h count ih =>
    obtain ⟨pattern, rest, rfl⟩ := List.exists_cons_of_ne_nil some
    subst length
    obtain ⟨descends, descend⟩ := List.forall_mem_cons.1 descend
    have later {others : List Pattern} (suffix : others <:+ rest) :
        LeadBelow disk disk' base base' others := by
      intro next next' below
      by_cases none : others = []
      · subst none
        exact .cons below .nil
      · exact ih _ (Nat.lt_succ_of_le suffix.length_le) none
          (fun pattern member => descend pattern (suffix.subset member)) (.below below) rfl
    cases stands : pattern.literal? with
    | some name =>
      exact searchFrom_name same away away' stands descends (later (List.suffix_refl rest)) beside
    | none =>
      rw [searchFrom, searchFrom]
      simp only [stands, same.find_eq beside, baseOf_eq (components_ne_here same away beside),
        baseOf_eq (components_ne_here same.symm away' beside.symm)]
      cases found : disk'.find path' with
      | error cause => exact .nil
      | ok inner =>
        have proper := same.symm.proper_find beside.symm found
        have descendants := proper.descendants beside
        cases proper with
        | file => exact .nil
        | directory names =>
          dsimp only
          split
          · cases rest with
            | nil => exact directories_of_descendants descendants
            | cons next others =>
              dsimp only
              split
              · exact ih _ (Nat.lt_succ_self _) (List.cons_ne_nil _ _) descend beside rfl
              · exact flatMap_of_descendants descendants next (later (List.suffix_cons _ _))
          · exact List.rel_flatMap (entries_below descends names beside)
              (later (List.suffix_refl rest))

end

/-! ## Searches from a root -/

/-- Whether a search keeps a root as it is spelled: it starts with no dot, it has no empty segments
between others, and none of its segments is a pattern. -/
structure Plain (base : Path) : Prop where
  starts : base.rooted = true ∨ base.segments.head? ≠ some "."
  filled : "" ∉ base.front
  plain : ∀ segment ∈ base.front, segment.toList.all isPlain = true

/-- A path without the empty segment at its end. -/
def bare (base : Path) : Path := ⟨base.rooted, base.front⟩

/-- The components of a pattern that a path spells are its segments, behind its root. -/
theorem componentTexts_text {path : Path}
    (spelled : ∀ segment ∈ path.segments, '/' ∉ segment.toList)
    (starts : path.rooted = true ∨ path.segments ≠ []) :
    componentTexts path.text = (if path.rooted then [""] else []) ++ path.front := by
  -- The text is split at its slashes, and an empty last piece is left out.
  have slash : ("/" : String).toList = ['/'] := rfl
  rcases path with ⟨rooted, segments⟩
  by_cases none : segments = []
  · obtain rfl : rooted = true := by simpa [none] using starts
    subst none
    rfl
  · have pieces := splitSlashes_intercalate none spelled
    obtain ⟨last, known⟩ := Option.ne_none_iff_exists'.1 (List.getLast?_eq_none_iff.not.2 none)
    cases rooted
    · simp only [componentTexts, Path.text, Path.front, Bool.false_eq_true, if_false,
        String.empty_append, pieces, List.nil_append]
    · simp only [componentTexts, Path.text, Path.front, if_true, String.toList_append, slash,
        List.singleton_append, splitSlashes, List.map_cons, pieces]
      simp [known, List.getLast?_cons, List.dropLast_cons_of_ne_nil none]
      split <;> simp

variable {disk disk' : Disk} {base base' : Path} {tree : FileTree}

/-- Where a search is when it has gone down the first segments of a root. -/
def passed (rooted : Bool) (segments : List String) : Path :=
  if segments.isEmpty && ! rooted then here else ⟨rooted, segments⟩

/-- On the way down a root, a search finds directories. -/
theorem find_passed (found : disk.find base = .ok tree) (directory : tree.isDirectory = true)
    {segments others : List String} (front : base.front = segments ++ others) :
    ∃ inner, disk.find (passed base.rooted segments) = .ok inner ∧ inner.isDirectory = true := by
  -- What has been passed is the way to the directory, up to some point.
  obtain ⟨above, leads⟩ := Disk.foldlM_front found
  rw [front, ← List.append_assoc] at leads
  obtain ⟨inner, above', reached, inside⟩ := Disk.foldlM_prefix leads directory
  refine ⟨inner, ?_, inside⟩
  unfold passed
  split
  · rename_i first
    obtain ⟨rfl, relative⟩ : segments = [] ∧ base.rooted = false := by simpa using first
    refine Disk.find_of_foldlM (.inr (List.cons_ne_nil _ _)) above' ?_
    -- The dot leads nowhere else.
    have stays : Disk.enter (inner :: above') "." = .ok (inner :: above') := by
      simp [Disk.enter, inside, Path.isSilent]
    rw [relative, if_neg Bool.false_ne_true, List.append_nil] at reached
    rw [here, if_neg Bool.false_ne_true, List.foldlM_append, reached]
    simp only [List.foldlM_cons, List.foldlM_nil, bind, Except.bind, pure, Except.pure, stays]
  · rename_i later
    refine Disk.find_of_foldlM ?_ _ reached
    cases rooted : base.rooted with
    | true => exact .inl rfl
    | false =>
      rw [rooted] at later
      exact .inr fun none => later (by simpa using none)

/-- A path that starts with no dot names more than a dot. -/
theorem components_ne_here_of_head? {path : Path}
    (starts : path.rooted = true ∨ path.segments.head? ≠ some ".") :
    path.components ≠ here.components := by
  -- A root is a component besides a dot; without one the first segment would be the dot.
  rw [Path.components_eq]
  rcases starts with rooted | head
  · simp [Path.lead, rooted, here, Path.components, Path.splitDot]
  · cases rooted : path.rooted with
    | true => simp [Path.lead, rooted, here, Path.components, Path.splitDot]
    | false =>
      rw [Path.lead_of_relative rooted, if_neg head, List.nil_append]
      -- No name is a dot.
      intro names
      have dot : "." ∈ path.names := by
        rw [names]
        decide
      simp [Path.names, Path.isSilent] at dot

/-- The path that a search has passed starts as the root does. -/
theorem Plain.passed_starts (plain : Plain base) {segments others : List String}
    (front : base.front = segments ++ others) :
    base.rooted = true ∨ segments.head? ≠ some "." := by
  -- The segments that have been passed come first in the root.
  refine plain.starts.imp_right fun starts dot => starts ?_
  obtain ⟨rest, rfl⟩ := List.head?_eq_some_iff.1 dot
  rcases base.segments_eq_front with whole | more
  · simp [whole, front]
  · simp [more, front]

/-- The segments that a search has passed are not empty, not even the last one. -/
theorem Plain.front_passed (plain : Plain base) {segments others : List String}
    (front : base.front = segments ++ others) (rooted : Bool) :
    (⟨rooted, segments⟩ : Path).front = segments := by
  -- No segment of a plain path is empty.
  refine if_neg fun last => plain.filled ?_
  rw [front]
  exact List.mem_append_left _ (List.mem_of_getLast? last)

/-- A search goes down a root as it is spelled. -/
theorem entryOf_passed (plain : Plain base) {segments others : List String} {name : String}
    (spelled : '/' ∉ name.toList) (front : base.front = segments ++ name :: others) :
    entryOf (passed base.rooted segments) name = passed base.rooted (segments ++ [name]) := by
  -- The first name of a relative root stands alone, and any other one behind what has been passed.
  have filled : name ≠ "" := fun empty => plain.filled (by simp [front, empty])
  have alone : Path.ofText name = ⟨false, [name]⟩ := by
    rw [Path.ofText_of_notMem spelled, if_neg filled]
  by_cases first : (segments.isEmpty && ! base.rooted) = true
  · obtain ⟨rfl, relative⟩ : segments = [] ∧ base.rooted = false := by simpa using first
    rw [entryOf, passed, if_pos first, if_pos rfl, alone, passed]
    simp [relative]
  · have away := @components_ne_here_of_head? ⟨base.rooted, segments⟩ (plain.passed_starts front)
    rw [passed, if_neg first, entryOf_eq away, alone, Path.join_eq _ rfl,
      plain.front_passed front, passed]
    simp [Path.tail]

/-- A search goes down to a root before it follows other patterns. -/
theorem searchFrom_front (found : disk.find base = .ok tree) (directory : tree.isDirectory = true)
    (place : base.IsPlace) (plain : Plain base) (patterns : List Pattern) :
    searchFrom disk (base.front.map (fun segment => ⟨segment.toList.map .char⟩) ++ patterns)
      (passed base.rooted []) = searchFrom disk patterns (bare base) := by
  -- What has been passed and what is still to come make up the front of the root.
  suffices step : ∀ segments others, base.front = segments ++ others →
      searchFrom disk (others.map (fun segment => ⟨segment.toList.map .char⟩) ++ patterns)
        (passed base.rooted segments) = searchFrom disk patterns (passed base.rooted base.front) by
    have last : passed base.rooted base.front = bare base := by
      refine if_neg fun none => ?_
      obtain ⟨empty, relative⟩ : base.front = [] ∧ base.rooted = false := by simpa using none
      obtain ⟨first, rest, front, -⟩ := place.front_cons relative
      simp [front] at empty
    rw [step [] base.front rfl, last]
  intro segments others
  induction others generalizing segments with
  | nil => 
    intro front
    rw [front, List.append_nil]
    rfl
  | cons name others ih =>
    intro front
    have spelled : '/' ∉ name.toList :=
      place.spelled name (Path.mem_of_mem_front (by simp [front]))
    have next : base.front = (segments ++ [name]) ++ others := by simp [front]
    obtain ⟨inner, reached, inside⟩ := find_passed found directory front
    obtain ⟨_, reached', -⟩ := find_passed found directory next
    have first : disk.hasDirectory (passed base.rooted segments) = true := by
      rw [Disk.hasDirectory, reached]
      exact inside
    have second : disk.contains (passed base.rooted (segments ++ [name])) = true := by
      rw [Disk.contains, reached']
      rfl
    rw [List.map_cons, List.cons_append, searchFrom]
    simp only [literal?_map_char, entryOf_passed plain spelled front, first, second, ite_self,
      if_true]
    exact ih _ next

/-- Where all texts are patterns, each one leads to its own. -/
theorem mapM_ofText_plain {segments : List String}
    (plain : ∀ segment ∈ segments, segment.toList.all isPlain = true) :
    segments.mapM Pattern.ofText =
      .ok (segments.map fun segment => ⟨segment.toList.map .char⟩) := by
  -- The first text that is no pattern would end the reading, and there is none.
  induction segments with
  | nil => rfl
  | cons segment rest ih =>
    obtain ⟨here, below⟩ := List.forall_mem_cons.1 plain
    rw [List.mapM_cons, ofText_plain here, ih below]
    rfl

/-- What is looked for below a root is looked for from there. -/
theorem directories_join (found : disk.find base = .ok tree) (directory : tree.isDirectory = true)
    (place : base.IsPlace) (plain : Plain base) {rel : Path} (relative : rel.rooted = false)
    (spelled : ∀ segment ∈ rel.segments, '/' ∉ segment.toList) :
    directories disk (base.join rel).text = (do
      let _ ← Pattern.ofText (base.join rel).text
      let patterns ← rel.front.mapM Pattern.ofText
      return (searchFrom disk patterns (bare base)).filter disk.hasDirectory) := by
  -- The components of the text are those of the root, which are gone down, and then the others.
  have joined : (base.join rel).rooted = base.rooted := by rw [Path.join_eq base relative]
  have texts : componentTexts (base.join rel).text =
      (if base.rooted then [""] else []) ++ (base.front ++ rel.front) := by
    rw [componentTexts_text ?_ ?_, joined, Path.front_join base relative]
    · intro segment member
      rcases Path.mem_join relative member with first | second | rfl
      · exact place.spelled segment first
      · exact spelled segment second
      · simp
    · rw [joined, Path.join_eq base relative]
      cases rooted : base.rooted with
      | true => exact .inl rfl
      | false =>
        obtain ⟨first, rest, front, -⟩ := place.front_cons rooted
        exact .inr (by simp [front])
  have search (start : Path) (passed : start = passed base.rooted []) :
      (do
        let patterns ← (base.front ++ rel.front).mapM Pattern.ofText
        return (searchFrom disk patterns start).filter disk.hasDirectory) = (do
        let patterns ← rel.front.mapM Pattern.ofText
        return (searchFrom disk patterns (bare base)).filter disk.hasDirectory) := by
    subst passed
    rw [List.mapM_append, mapM_ofText_plain plain.plain]
    cases rel.front.mapM Pattern.ofText with
    | error cause => rfl
    | ok patterns =>
      simp only [bind, Except.bind, pure, Except.pure]
      rw [searchFrom_front found directory place plain]
  -- The search starts at the root or from the dot, as the first component says.
  rw [directories, texts, ← search _ rfl]
  congr 1
  funext _
  cases rooted : base.rooted with
  | true => rfl
  | false =>
    obtain ⟨first, rest, front, -, some⟩ := place.front_cons rooted
    rw [front, if_neg Bool.false_ne_true, List.nil_append, List.cons_append]
    split
    rename_i start texts equal
    split at equal
    · rename_i other
      exact absurd (List.cons.inj other).1 some
    · cases equal
      rfl

/-- What follows a root follows it without the empty segment at its end, too. -/
theorem bare_join (place : base.IsPlace) (plain : Plain base) {rel : Path}
    (relative : rel.rooted = false) : (bare base).join rel = base.join rel := by
  -- Both paths have the same front.
  have front : (bare base).front = base.front := plain.front_passed (List.append_nil _).symm _
  have empty : (bare base).segments.isEmpty = base.segments.isEmpty := by
    rw [Bool.eq_iff_iff, List.isEmpty_iff, List.isEmpty_iff]
    exact ⟨place.segments_eq_nil, fun none => by simp [bare, Path.front, none]⟩
  rw [Path.join_eq _ relative, Path.join_eq _ relative, front, Path.tail, Path.tail, empty]
  rfl

/-- A place is one without the empty segment at its end, too. -/
theorem isPlace_bare (place : base.IsPlace) (plain : Plain base) : (bare base).IsPlace := by
  -- The first segment of a place is not empty.
  refine ⟨?_, fun segment member => place.spelled segment (Path.mem_of_mem_front member)⟩
  cases rooted : base.rooted with
  | true =>
    exact .inl ⟨rooted, fun single => plain.filled (by simp [show base.front = _ from single])⟩
  | false =>
    obtain ⟨first, rest, front, -, some⟩ := place.front_cons rooted
    exact .inr ⟨first, rest, front, some⟩

/-- What is at a place is found without the empty segment at its end, too. -/
theorem find_bare (place : base.IsPlace) (found : disk.find base = .ok tree) :
    disk.find (bare base) = .ok tree := by
  -- The way along the front leads to the same.
  obtain ⟨above, leads⟩ := Disk.foldlM_front found
  refine Disk.find_of_foldlM ?_ _ leads
  cases rooted : base.rooted with
  | true => exact .inl rooted
  | false =>
    obtain ⟨first, rest, front, -⟩ := place.front_cons rooted
    exact .inr fun none => by simp [show base.front = _ from none] at front

/-- Two places of a directory are so without the empty segments at their ends, too. -/
theorem samePlaces_bare (same : SamePlaces disk disk' base base' tree) (plain : Plain base)
    (plain' : Plain base') : SamePlaces disk disk' (bare base) (bare base') tree where
  place := isPlace_bare same.place plain
  place' := isPlace_bare same.place' plain'
  found := find_bare same.place same.found
  found' := find_bare same.place' same.found'
  directory := same.directory
  proper := same.proper

/-- Plain texts with slashes between them are plain. -/
theorem all_isPlain_intercalate {segments : List String}
    (plain : ∀ segment ∈ segments, segment.toList.all isPlain = true) :
    ("/".intercalate segments).toList.all isPlain = true := by
  -- The slash is plain, and so are the texts on both sides of it.
  induction segments with
  | nil => rfl
  | cons first rest ih =>
    obtain ⟨here, below⟩ := List.forall_mem_cons.1 plain
    cases rest with
    | nil => simpa using here
    | cons second rest =>
      have slash : ("/" : String).toList.all isPlain = true := by decide
      rw [String.intercalate_cons_cons, String.toList_append, String.toList_append,
        List.all_append, List.all_append, here, slash, ih below]
      rfl

/-- In front of what follows a root, there is plain text. -/
theorem Plain.before (plain : Plain base) : base.before.toList.all isPlain = true := by
  -- The text in front is the root or nothing, and then the front.
  rw [Path.before]
  split
  · rfl
  · rw [String.toList_append, List.all_append, all_isPlain_intercalate plain.plain]
    cases base.rooted <;> decide

/-- A segment that is read as a pattern stands for no text with a slash. -/
theorem notMem_of_literal? {segment name : String} {pattern : Pattern}
    (spelled : '/' ∉ segment.toList) (known : Pattern.ofText segment = .ok pattern)
    (stands : pattern.literal? = some name) : '/' ∉ name.toList := by
  -- Every character of the text would be one of the segment.
  intro slash
  cases read : readTokens .outside 0 none [] segment.toList with
  | error cause => simp [Pattern.ofText, read, Except.map] at known
  | ok tokens =>
    obtain rfl : ⟨tokens⟩ = pattern := by simpa [Pattern.ofText, read, Except.map] using known
    have member : Token.char '/' ∈ tokens := by
      rw [show tokens = _ from tokens_of_literal? stands]
      exact List.mem_map_of_mem slash
    exact spelled (by simpa using mem_of_readTokens read member)

/-- It descends when it finds no way up. -/
theorem descends_ofText {segment : String} {pattern : Pattern} (spelled : '/' ∉ segment.toList)
    (known : Pattern.ofText segment = .ok pattern) (down : ".." ∉ specialNames pattern) :
    pattern.Descends :=
  ⟨down, fun _ => notMem_of_literal? spelled known⟩

/-- What patterns lead to below two places of a directory corresponds. -/
theorem directories_below (same : SamePlaces disk disk' base base' tree) (plain : Plain base)
    (plain' : Plain base') {rel : Path} (relative : rel.rooted = false) (place : rel.IsPlace)
    (down : ∀ segment ∈ rel.segments, ∀ pattern, Pattern.ofText segment = .ok pattern →
      ".." ∉ specialNames pattern) :
    Option.Rel (List.Forall₂ (Below base base')) (directories disk (base.join rel).text).toOption
      (directories disk' (base'.join rel).text).toOption := by
  -- The whole texts are patterns both or none, and their components below the roots are the same.
  obtain ⟨first, rest, front, -⟩ := place.front_cons relative
  have valid := (isOk_ofText_behind plain.before rel.text).trans
    (isOk_ofText_behind plain'.before rel.text).symm
  rw [← same.place.text_join relative, ← same.place'.text_join relative] at valid
  rw [directories_join same.found same.directory same.place plain relative place.spelled,
    directories_join same.found' same.directory same.place' plain' relative place.spelled]
  generalize Pattern.ofText (base.join rel).text = whole at valid
  generalize Pattern.ofText (base'.join rel).text = whole' at valid
  cases whole <;> cases whole' <;> try cases valid
  · exact .none
  · cases known : rel.front.mapM Pattern.ofText with
    | error cause => exact .none
    | ok patterns =>
      have read := forall₂_of_mapM_ok known
      have filled : patterns ≠ [] := by
        rintro rfl
        rw [List.forall₂_nil_right_iff.1 read] at front
        cases front
      have descend : ∀ pattern ∈ patterns, pattern.Descends := by
        intro pattern member
        obtain ⟨segment, present, here⟩ := exists_mem_of_forall₂ read.flip member
        have present := Path.mem_of_mem_front present
        exact descends_ofText (place.spelled segment present) here (down segment present _ here)
      have found := searchFrom_below (samePlaces_bare same plain plain')
        (components_ne_here_of_head? (plain.passed_starts (List.append_nil _).symm))
        (components_ne_here_of_head? (plain'.passed_starts (List.append_nil _).symm))
        filled descend .root
      have unbared (path path' : Path) (below : Below (bare base) (bare base') path path') :
          Below base base' path path' := by
        obtain ⟨stays⟩ := below
        rw [bare_join same.place plain stays.relative, bare_join same.place' plain' stays.relative]
        exact .intro stays
      refine .some (List.rel_filter (fun path path' below => ?_) (found.imp unbared))
      simp only [same.hasDirectory_eq (.below below)]

end PropCatalog.Glob
