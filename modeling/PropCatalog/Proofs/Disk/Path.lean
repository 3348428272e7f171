import PropCatalog.Disk.Path
import Mathlib.Data.List.TakeWhile
import Mathlib.Data.String.Basic

/-! Paths that are joined: what they name, how they are spelled, and where the second one is found
again. -/

namespace PropCatalog

/-! ## Slashes -/

theorem splitSlashes_ne_nil (text : List Char) : splitSlashes text ≠ [] := by
  -- The last piece is there even when the text is empty.
  unfold splitSlashes
  split
  · simp
  · simp
  · split <;> simp

/-- A slash ends a piece. -/
theorem splitSlashes_append (text rest : List Char) :
    splitSlashes (text ++ '/' :: rest) = splitSlashes text ++ splitSlashes rest := by
  -- The pieces of the text are complete where the slash is met.
  induction text using splitSlashes.induct with
  | case1 => rfl
  | case2 text ih => simp [splitSlashes, ih]
  | case3 c text noSlash none ih => exact absurd none (splitSlashes_ne_nil text)
  | case4 c text noSlash piece pieces some ih =>
    rw [List.cons_append, splitSlashes.eq_3 _ _ noSlash, splitSlashes.eq_3 _ _ noSlash, ih, some]
    rfl

/-- Only the empty text is one empty piece. -/
theorem eq_nil_of_splitSlashes {text : List Char} (empty : splitSlashes text = [[]]) :
    text = [] := by
  -- A character stands in a piece, or it is a slash and makes another one.
  cases text with
  | nil => rfl
  | cons c rest =>
    unfold splitSlashes at empty
    split at empty
    · assumption
    · exact absurd (List.cons.inj empty).2 (splitSlashes_ne_nil _)
    · split at empty <;> simp at empty

/-- A text without slashes is one piece. -/
theorem splitSlashes_of_notMem {text : List Char} (single : '/' ∉ text) :
    splitSlashes text = [text] := by
  -- Every character is put in front of the only piece.
  induction text with
  | nil => rfl
  | cons c text ih =>
    rw [List.mem_cons, not_or] at single
    rw [splitSlashes.eq_3 _ _ fun slash => single.1 slash.symm, ih single.2]

/-- Pieces without slashes are found again when slashes are put between them. -/
theorem splitSlashes_intercalate {segments : List String} (some : segments ≠ [])
    (each : ∀ segment ∈ segments, '/' ∉ segment.toList) :
    (splitSlashes ("/".intercalate segments).toList).map String.ofList = segments := by
  -- The slash in front of the other segments ends the first piece.
  induction segments with
  | nil => exact absurd rfl some
  | cons first rest ih =>
    obtain ⟨here, below⟩ := List.forall_mem_cons.1 each
    cases rest with
    | nil => simp [splitSlashes_of_notMem here]
    | cons second rest =>
      have slash : ("/" : String).toList = ['/'] := rfl
      rw [String.intercalate_cons_cons, String.toList_append, String.toList_append, slash,
        List.append_assoc, List.singleton_append, splitSlashes_append, splitSlashes_of_notMem here,
        List.map_append, ih (by simp) below]
      simp

/-- No piece holds a slash. -/
theorem notMem_of_mem_splitSlashes (text : List Char) :
    ∀ piece ∈ splitSlashes text, '/' ∉ piece := by
  -- A slash ends a piece, and any other character is put in front of one.
  induction text using splitSlashes.induct with
  | case1 => simp [splitSlashes]
  | case2 text ih => simpa [splitSlashes] using ih
  | case3 c text noSlash none ih => exact absurd none (splitSlashes_ne_nil text)
  | case4 c text noSlash piece pieces some ih =>
    rw [splitSlashes.eq_3 _ _ noSlash, some]
    rw [some] at ih
    obtain ⟨here, below⟩ := List.forall_mem_cons.1 ih
    refine List.forall_mem_cons.2 ⟨?_, below⟩
    rw [List.mem_cons, not_or]
    exact ⟨fun slash => noSlash slash.symm, here⟩

namespace Path

/-! ## Names -/

/-- The names in a path, without its root and without what names nothing. -/
def names (path : Path) : List String :=
  path.segments.filter (! isSilent ·)

/-- The root or the dot that a path starts with. -/
def lead (path : Path) : List String :=
  (if path.rooted then ["/"] else []) ++ path.splitDot.1

/-- A path names what it starts with and the names in it. -/
theorem components_eq (path : Path) : path.components = path.lead ++ path.names := by
  -- The root, or a dot that comes first, is what the path starts with.
  rcases path with ⟨rooted, segments⟩
  cases rooted
  · cases segments with
    | nil => rfl
    | cons first rest =>
      by_cases dot : first = "."
      · subst dot
        simp [components, lead, names, splitDot, isSilent]
      · simp [components, lead, names, splitDot, dot]
  · simp [components, lead, names, splitDot]

/-! ## Joining -/

/-- The segments of a path, without an empty one at the end. -/
def front (path : Path) : List String :=
  if path.segments.getLast? = some "" then path.segments.dropLast else path.segments

/-- A path ends with its front, or with an empty segment behind that. -/
theorem segments_eq_front (path : Path) :
    path.segments = path.front ∨ path.segments = path.front ++ [""] := by
  -- The front leaves the last segment out when that is empty.
  unfold front
  split
  · rename_i last
    exact .inr (List.dropLast_append_getLast? "" last).symm
  · exact .inl rfl

theorem mem_of_mem_front {path : Path} {segment : String} (member : segment ∈ path.front) :
    segment ∈ path.segments := by
  -- All that the front leaves out is an empty segment.
  rcases path.segments_eq_front with whole | more
  · exact whole ▸ member
  · exact more ▸ List.mem_append_left _ member

/-- The segments that a path has when it follows another one. -/
def tail (base rel : Path) : List String :=
  if rel.segments.isEmpty && ! base.segments.isEmpty then [""] else rel.segments

/-- A path that does not start at the root follows the front of the other one. -/
theorem join_eq {rel : Path} (base : Path) (relative : rel.rooted = false) :
    base.join rel = ⟨base.rooted, base.front ++ tail base rel⟩ := by
  -- Both paths may be empty, and nothing is put between them then.
  rcases base with ⟨rooted, segments⟩
  rcases rel with ⟨_, others⟩
  subst relative
  cases segments <;> cases others <;> simp [join, front, tail]

/-- What follows a path has the same names wherever it follows. -/
theorem names_tail (base rel : Path) : (tail base rel).filter (! isSilent ·) = rel.names := by
  -- An empty path follows as an empty segment, which is no name.
  unfold tail names
  split
  · rename_i empty
    simp at empty
    simp [empty.1, isSilent]
  · rfl

/-- An empty segment at the end is no name. -/
theorem names_front (path : Path) : path.front.filter (! isSilent ·) = path.names := by
  -- The front is all segments, or all but an empty one.
  unfold names
  rcases path.segments_eq_front with whole | more
  · rw [whole]
  · rw [more, List.filter_append]
    simp [isSilent]

/-- A path with a last segment for a name. -/
theorem entry_eq (path : Path) (name : String) :
    path.entry name = ⟨path.rooted, path.front ++ [name]⟩ := by
  -- One segment follows the front as it is.
  rw [entry, join_eq path rfl]
  simp [tail]

/-- The front of a joined path. -/
theorem front_join {rel : Path} (base : Path) (relative : rel.rooted = false) :
    (base.join rel).front = base.front ++ rel.front := by
  -- An empty segment at the end of what follows is at the end of both.
  rw [join_eq base relative]
  rcases rel with ⟨_, others⟩
  cases others with
  | nil =>
    -- What follows is an empty segment, or nothing where there is nothing in front.
    by_cases none : base.segments = []
    · simp [front, tail, none]
    · simp [front, tail, none]
  | cons first rest =>
    simp only [front, tail, List.isEmpty_cons, Bool.false_and, Bool.false_eq_true, if_false,
      List.getLast?_append, List.getLast?_cons, Option.some_or, List.dropLast_append]
    split <;> rfl

/-- A joined path has the segments of both, and an empty one at most. -/
theorem mem_join {base rel : Path} (relative : rel.rooted = false) {segment : String}
    (member : segment ∈ (base.join rel).segments) :
    segment ∈ base.segments ∨ segment ∈ rel.segments ∨ segment = "" := by
  -- The segments of the front are among those of the path.
  rw [join_eq base relative, List.mem_append] at member
  rcases member with front | behind
  · exact .inl (mem_of_mem_front front)
  · rw [tail] at behind
    split at behind
    · exact .inr (.inr (List.mem_singleton.1 behind))
    · exact .inr (.inl behind)

/-- Paths that follow one after the other follow together. -/
theorem join_join {rel other : Path} (base : Path) (relative : rel.rooted = false)
    (relative' : other.rooted = false) :
    (base.join rel).join other = base.join (rel.join other) := by
  -- An empty segment stands at the end only where nothing follows.
  have inner : (rel.join other).rooted = false := by rw [join_eq rel relative', relative]
  rw [join_eq (base.join rel) relative', front_join base relative, join_eq base inner,
    join_eq rel relative', join_eq base relative]
  rcases base with ⟨_, segments⟩
  rcases rel with ⟨_, segments'⟩
  rcases other with ⟨_, others⟩
  cases segments <;> cases segments' <;> cases others <;> simp [tail, front]

/-- The names of a joined path. -/
theorem names_join {rel : Path} (base : Path) (relative : rel.rooted = false) :
    (base.join rel).names = base.names ++ rel.names := by
  rw [join_eq base relative, names, List.filter_append, names_front, names_tail]

/-! ## Places -/

/-- Whether other paths can follow a path: it starts at the root, with more than one empty segment
behind that if with any, or with a segment that is not empty, and no segment holds a slash. -/
structure IsPlace (base : Path) : Prop where
  starts : base.rooted = true ∧ base.segments ≠ [""] ∨
    ∃ first rest, base.segments = first :: rest ∧ first ≠ ""
  spelled : ∀ segment ∈ base.segments, '/' ∉ segment.toList

/-- Whether a path that follows a place leads down only. -/
structure Stays (rel : Path) : Prop where
  relative : rel.rooted = false
  down : ".." ∉ rel.segments
  spelled : ∀ segment ∈ rel.segments, '/' ∉ segment.toList

variable {base rel : Path}

/-- A place that does not start at the root has a segment in front. -/
theorem IsPlace.front_cons (place : base.IsPlace) (relative : base.rooted = false) :
    ∃ first rest, base.front = first :: rest ∧ base.segments.head? = some first ∧ first ≠ "" := by
  -- The first segment of a place is not empty, so that it is part of the front.
  rcases place.starts with ⟨rooted, -⟩ | ⟨first, others, known, some⟩
  · simp [relative] at rooted
  · rcases base.segments_eq_front with whole | more
    · exact ⟨first, others, whole ▸ known, by simp [known], some⟩
    · cases front : base.front with
      | nil =>
        -- The only segment would be the empty one at the end.
        rw [front, known] at more
        simp [some] at more
      | cons head rest =>
        rw [front, known] at more
        obtain ⟨rfl, -⟩ := List.cons.inj more
        exact ⟨first, rest, rfl, by simp [known], some⟩

/-- Only the root has no segments in front of an empty one. -/
theorem IsPlace.segments_eq_nil (place : base.IsPlace) (none : base.front = []) :
    base.segments = [] := by
  -- A place is not the empty segment alone.
  rcases base.segments_eq_front with whole | more
  · rw [whole, none]
  · rw [none, List.nil_append] at more
    rcases place.starts with ⟨-, single⟩ | ⟨first, rest, known, some⟩
    · exact absurd more single
    · exact absurd (List.cons.inj (known.symm.trans more)).1 some

/-- What a path starts with shows in its first segment. -/
theorem lead_of_relative {path : Path} (relative : path.rooted = false) :
    path.lead = if path.segments.head? = some "." then ["."] else [] := by
  -- Without a root, only a dot in the first segment counts.
  rcases path with ⟨_, segments⟩
  subst relative
  cases segments with
  | nil => rfl
  | cons first rest =>
    by_cases dot : first = "."
    · simp [lead, splitDot, dot]
    · simp [lead, splitDot, dot]

/-- A joined path starts as the place does. -/
theorem IsPlace.lead_join (place : base.IsPlace) (relative : rel.rooted = false) :
    (base.join rel).lead = base.lead := by
  -- The first segment of the place comes first in the joined path.
  rw [join_eq base relative]
  cases rooted : base.rooted with
  | true => simp [lead, splitDot, rooted]
  | false =>
    obtain ⟨first, rest, front, head, -⟩ := place.front_cons rooted
    rw [lead_of_relative rfl, lead_of_relative rooted, front, head]
    rfl

/-- A joined path names what the place names, and then what follows. -/
theorem IsPlace.components_join (place : base.IsPlace) (relative : rel.rooted = false) :
    (base.join rel).components = base.components ++ rel.names := by
  -- What it starts with and the names are joined one by one.
  rw [components_eq, components_eq, place.lead_join relative, names_join base relative,
    List.append_assoc]

/-- What names more than a place lies within what follows the place as the names do. -/
theorem IsPlace.isWithin_join {path : Path} (place : base.IsPlace) (relative : rel.rooted = false)
    {names : List String} (more : path.components = base.components ++ names) :
    path.isWithin (base.join rel) = rel.names.isPrefixOf names := by
  -- Both components start with those of the place, which can be left out.
  rw [Bool.eq_iff_iff, isWithin, place.components_join relative, more,
    List.isPrefixOf_iff_prefix, List.isPrefixOf_iff_prefix, List.prefix_append_right_inj]

/-- What follows what follows a place follows the place. -/
theorem Stays.join {other : Path} (stays : rel.Stays) (stays' : other.Stays) :
    (rel.join other).Stays := by
  -- The joined path has no segments of its own but an empty one.
  refine ⟨by rw [join_eq rel stays'.relative, stays.relative], fun up => ?_,
    fun segment member => ?_⟩
  · rcases mem_join stays'.relative up with first | second | empty
    · exact stays.down first
    · exact stays'.down second
    · simp at empty
  · rcases mem_join stays'.relative member with first | second | rfl
    · exact stays.spelled _ first
    · exact stays'.spelled _ second
    · simp

/-! ## What follows a place -/

/-- The part of a path from its first name on, up to its last one. -/
def trimmed (rel : Path) : Path :=
  ⟨false, dropSilentEnd (rel.segments.dropWhile isSilent)⟩

/-- What is dropped in front names nothing. -/
theorem filter_dropWhile_isSilent (segments : List String) :
    (segments.dropWhile isSilent).filter (! isSilent ·) = segments.filter (! isSilent ·) := by
  -- A segment is dropped only when it names nothing.
  induction segments with
  | nil => rfl
  | cons segment rest ih => cases silent : isSilent segment <;> simp [silent, ih]

/-- What is dropped at the end names nothing. -/
theorem filter_dropSilentEnd (segments : List String) :
    (dropSilentEnd segments).filter (! isSilent ·) = segments.filter (! isSilent ·) := by
  -- The end is dropped from the front of the reversed segments.
  rw [dropSilentEnd, List.filter_reverse, filter_dropWhile_isSilent, List.filter_reverse,
    List.reverse_reverse]

/-- What is dropped around a path names nothing. -/
theorem names_trimmed (rel : Path) : rel.trimmed.names = rel.names := by
  rw [names, trimmed, filter_dropSilentEnd, filter_dropWhile_isSilent, names]

/-- Dropping the names of some segments leaves what follows them. -/
theorem dropNames_append (segments others : List String) :
    dropNames (segments.filter (! isSilent ·)).length (segments ++ others) =
      others.dropWhile isSilent := by
  -- Each name among the segments uses up one of the count.
  induction segments with
  | nil => simp [dropNames]
  | cons segment rest ih =>
    cases silent : isSilent segment with
    | false => simpa [silent, dropNames] using ih
    | true =>
      -- What names nothing is skipped whether or not a name is still to come.
      simp only [List.filter_cons, silent, Bool.not_true, Bool.false_eq_true, if_false,
        List.cons_append]
      cases count : (rest.filter (! isSilent ·)).length with
      | zero =>
        rw [count] at ih
        simpa [dropNames, silent] using ih
      | succ count =>
        rw [count] at ih
        simpa [dropNames, silent] using ih

/-- Names are dropped one after the other. -/
theorem filter_dropNames (count : Nat) (segments : List String) :
    (dropNames count segments).filter (! isSilent ·) =
      (segments.filter (! isSilent ·)).drop count := by
  -- A segment is skipped, or its name is the one that is dropped.
  induction segments generalizing count with
  | nil => cases count <;> simp [dropNames]
  | cons segment rest ih =>
    cases count with
    | zero => rw [dropNames, filter_dropWhile_isSilent, List.drop_zero]
    | succ count =>
      rw [dropNames, List.filter_cons]
      cases silent : isSilent segment with
      | true => simpa using ih (count + 1)
      | false => simpa using ih count

/-- Behind the dot that a joined path may start with, there are the names of the place and then
what follows it. -/
theorem IsPlace.splitDot_join (place : base.IsPlace) (relative : rel.rooted = false) :
    ∃ body, (base.join rel).splitDot.2 = body ++ tail base rel ∧
      body.filter (! isSilent ·) = base.names := by
  -- Only a place with a dot in front loses a segment to the split.
  rw [join_eq base relative]
  cases rooted : base.rooted with
  | true => exact ⟨base.front, by simp [splitDot], base.names_front⟩
  | false =>
    obtain ⟨first, rest, front, -, -⟩ := place.front_cons rooted
    by_cases dot : first = "."
    · subst dot
      refine ⟨rest, by simp [splitDot, front], ?_⟩
      rw [← base.names_front, front]
      simp [isSilent]
    · exact ⟨base.front, by simp [splitDot, front, dot], base.names_front⟩

/-- A place names something. -/
theorem IsPlace.components_ne_nil (place : base.IsPlace) : base.components ≠ [] := by
  -- The first segment of a place is a name, or a dot that counts.
  intro none
  obtain ⟨noLead, noNames⟩ := List.append_eq_nil_iff.1 (base.components_eq.symm.trans none)
  cases rooted : base.rooted with
  | true => simp [lead, rooted] at noLead
  | false =>
    obtain ⟨first, rest, front, head, some⟩ := place.front_cons rooted
    rw [lead_of_relative rooted, head] at noLead
    rw [← base.names_front, front] at noNames
    by_cases dot : first = "."
    · simp [dot] at noLead
    · simp [isSilent, some, dot] at noNames

/-- What follows a place is found again, from its first name to its last one. -/
theorem IsPlace.relativeTo?_join (place : base.IsPlace) (relative : rel.rooted = false) :
    (base.join rel).relativeTo? base = some rel.trimmed := by
  -- The components of the place are dropped, and with them all names up to what follows.
  have within : (base.join rel).isWithin base = true := by
    rw [isWithin, place.components_join relative, List.isPrefixOf_iff_prefix]
    exact List.prefix_append _ _
  have some : 0 < base.components.length := List.length_pos_iff.2 place.components_ne_nil
  obtain ⟨count, length⟩ := Nat.exists_eq_add_one.2 some
  -- The dot or the root is counted among the components of the place.
  have heads : (if (base.join rel).rooted then 1 else 0) + (base.join rel).splitDot.1.length =
      base.lead.length := by
    rw [← place.lead_join relative, lead, List.length_append]
    split <;> rfl
  have names : count + 1 - base.lead.length = base.names.length := by
    rw [← length, components_eq, List.length_append, Nat.add_sub_cancel_left]
  obtain ⟨body, split, same⟩ := place.splitDot_join relative
  have rest : (tail base rel).dropWhile isSilent = rel.segments.dropWhile isSilent := by
    unfold tail
    split
    · rename_i empty
      simp at empty
      simp [empty.1, isSilent]
    · rfl
  -- As many names are dropped as the place has.
  simp only [relativeTo?, if_pos within, length, heads, names, split]
  rw [← same, dropNames_append, rest, trimmed]

/-- A path starts with a root, a dot or neither. -/
theorem length_lead_le (path : Path) : path.lead.length ≤ 1 := by
  -- A dot counts only where there is no root.
  cases rooted : path.rooted with
  | true => simp [lead, splitDot, rooted]
  | false =>
    rw [lead_of_relative rooted]
    split <;> simp

/-- A path within another one names that, and then what follows it. -/
theorem components_of_relativeTo? {path : Path} (some : base.components ≠ [])
    (known : path.relativeTo? base = .some rel) :
    path.components = base.components ++ rel.names := by
  -- As many components are dropped as the base has, and these are the same.
  have heads : (if path.rooted then 1 else 0) + path.splitDot.1.length = path.lead.length := by
    rw [lead, List.length_append]
    split <;> rfl
  have body : path.splitDot.2.filter (! isSilent ·) = path.names :=
    List.append_cancel_left path.components_eq
  have single := path.length_lead_le
  rw [relativeTo?] at known
  split at known
  · rename_i within
    obtain ⟨names, components⟩ := List.isPrefixOf_iff_prefix.1 within
    split at known
    · rename_i none
      exact absurd (List.length_eq_zero_iff.1 none) some
    · rename_i count length
      obtain rfl := Option.some.inj known
      -- The root or the dot is one of the components that are dropped.
      have dropped : path.components.drop base.components.length =
          path.names.drop (count + 1 - path.lead.length) := by
        rw [length, path.components_eq, List.drop_append, List.drop_of_length_le (by omega),
          List.nil_append]
      dsimp only [Path.names]
      rw [filter_dropSilentEnd, filter_dropNames, heads, body, ← dropped, ← components,
        List.drop_left]
  · cases known

/-! ## Spelling -/

/-- A path is read from its text as it is, unless it starts with an empty segment. -/
theorem ofText_text {path : Path} (spelled : ∀ segment ∈ path.segments, '/' ∉ segment.toList)
    (starts : path.segments.head? ≠ some "" ∨
      path.rooted = true ∧ path.segments ≠ [""]) : ofText path.text = path := by
  -- The text is split at its slashes, and the first piece tells whether there is a root.
  rcases path with ⟨rooted, segments⟩
  cases segments with
  | nil => cases rooted <;> rfl
  | cons first rest =>
    have pieces := splitSlashes_intercalate (List.cons_ne_nil first rest) spelled
    cases rooted with
    | true =>
      have slash : ("/" : String).toList = ['/'] := rfl
      have more : first :: rest ≠ [""] := by
        rcases starts with other | other
        · exact fun same => other (by simp [same])
        · exact other.2
      simp only [ofText, text, if_true, String.toList_append, slash, List.singleton_append,
        splitSlashes, List.map_cons, pieces]
    | false =>
      have some : first ≠ "" := by simpa using starts
      simp only [ofText, text, Bool.false_eq_true, if_false, String.empty_append, pieces]
      split <;> simp_all

/-- No segment of a path that is read from a text holds a slash. -/
theorem spelled_ofText (text : String) :
    ∀ segment ∈ (ofText text).segments, '/' ∉ segment.toList := by
  -- The segments are pieces between slashes.
  have each : ∀ segment ∈ (splitSlashes text.toList).map String.ofList,
      '/' ∉ segment.toList := by
    refine List.forall_mem_map.2 fun piece member => ?_
    rw [String.toList_ofList]
    exact notMem_of_mem_splitSlashes _ piece member
  intro segment member
  unfold ofText at member
  split at member
  · simp [empty] at member
  · simp at member
  · rename_i pieces
    exact each segment (pieces ▸ List.mem_cons_of_mem _ member)
  · exact each segment member

/-- A text without slashes spells a path of at most one segment. -/
theorem ofText_of_notMem {text : String} (single : '/' ∉ text.toList) :
    ofText text = ⟨false, if text = "" then [] else [text]⟩ := by
  -- There is one piece, which is the text.
  have pieces : (splitSlashes text.toList).map String.ofList = [text] := by
    simp [splitSlashes_of_notMem single]
  rw [ofText, pieces]
  split <;> simp_all [empty]

/-- A text that is not empty spells a place. -/
theorem isPlace_ofText {text : String} (some : text ≠ "") : (ofText text).IsPlace := by
  -- Each way to read a text that is not empty gives a root or a first segment.
  refine ⟨?_, spelled_ofText text⟩
  unfold ofText
  split
  · rename_i pieces
    have empty : splitSlashes text.toList = [[]] := by
      simpa [List.map_eq_cons_iff, String.ofList_eq_empty_iff] using pieces
    exact absurd (by simpa using eq_nil_of_splitSlashes empty) some
  · exact .inl ⟨rfl, List.cons_ne_nil _ _ ∘ Eq.symm⟩
  · rename_i noSlash _
    exact .inl ⟨rfl, noSlash⟩
  · rename_i noRoot
    cases pieces : (splitSlashes text.toList).map String.ofList with
    | nil => exact absurd (List.map_eq_nil_iff.1 pieces) (splitSlashes_ne_nil _)
    | cons first rest => exact .inr ⟨first, rest, rfl, fun empty => noRoot rest (empty ▸ pieces)⟩

/-- Whether a path is one that some text spells. -/
structure Legible (path : Path) : Prop where
  spelled : ∀ segment ∈ path.segments, '/' ∉ segment.toList
  starts : path.segments.head? ≠ some "" ∨ path.rooted = true ∧ path.segments ≠ [""]

/-- Such a path is read from its text as it is. -/
theorem Legible.ofText_text {path : Path} (legible : path.Legible) : ofText path.text = path :=
  Path.ofText_text legible.spelled legible.starts

theorem legible_ofText (text : String) : (ofText text).Legible := by
  -- Each way to read a text gives a path that can be spelled.
  refine ⟨spelled_ofText text, ?_⟩
  unfold ofText
  split
  · exact .inl (by simp [empty])
  · exact .inl (by simp)
  · rename_i noSlash _
    exact .inr ⟨rfl, noSlash⟩
  · rename_i noRoot
    refine .inl fun first => ?_
    obtain ⟨rest, known⟩ := List.head?_eq_some_iff.1 first
    exact noRoot rest known

/-- Paths that are spelled by texts are so when they are joined. -/
theorem Legible.join {path : Path} (legible : path.Legible) (legible' : rel.Legible) :
    (path.join rel).Legible := by
  -- What comes first in the joined path comes first in one of both.
  cases rooted : rel.rooted with
  | true => simpa [Path.join, rooted] using legible'
  | false =>
    refine ⟨fun segment member => ?_, ?_⟩
    · rcases mem_join rooted member with first | second | rfl
      · exact legible.spelled segment first
      · exact legible'.spelled segment second
      · simp
    · rw [join_eq path rooted]
      by_cases none : path.segments = []
      · -- Nothing is in front of what follows.
        have head : rel.segments.head? ≠ some "" := by simpa [rooted] using legible'.starts
        exact .inl (by simpa [front, tail, none] using head)
      · have behind : tail path rel ≠ [] := by
          unfold tail
          split <;> simp_all
        obtain ⟨first, rest, known⟩ := List.exists_cons_of_ne_nil none
        have filled : path.front ≠ [] := by
          intro empty
          -- The only segment would be an empty one.
          rcases path.segments_eq_front with whole | more
          · exact none (whole.trans empty)
          · rw [empty, List.nil_append] at more
            have starts := legible.starts
            simp [more] at starts
        obtain ⟨next, others, front⟩ := List.exists_cons_of_ne_nil filled
        have head : path.segments.head? = some next := by
          rcases path.segments_eq_front with whole | more
          · simp [whole, front]
          · simp [more, front]
        rcases legible.starts with some | ⟨rooted, -⟩
        · refine .inl ?_
          rw [front]
          simpa [head] using some
        · refine .inr ⟨rooted, fun single => ?_⟩
          have length := congrArg List.length single
          have one : 1 ≤ (tail path rel).length := List.length_pos_iff.2 behind
          simp only [front, List.cons_append, List.length_cons, List.length_append,
            List.length_nil] at length
          omega

/-- A name makes such a path, and so do dots. -/
theorem legible_name {name : String} (some : name ≠ "") (spelled : '/' ∉ name.toList) :
    (⟨false, [name]⟩ : Path).Legible :=
  ⟨by simpa using spelled, .inl (by simpa using some)⟩

/-- Nothing that names nothing is left in front. -/
theorem dropNames_suffix (count : Nat) (segments : List String) :
    dropNames count segments <:+ segments ∧
      ∀ first ∈ (dropNames count segments).head?, isSilent first = false := by
  -- The segments are gone along as the function goes, and silent ones are dropped at each place.
  induction segments generalizing count with
  | nil => cases count <;> simp [dropNames]
  | cons segment rest ih =>
    cases count with
    | zero =>
      refine ⟨List.dropWhile_suffix _, fun first member => ?_⟩
      have kept := List.head?_dropWhile_not isSilent (segment :: rest)
      rw [dropNames] at member
      rw [member] at kept
      simpa using kept
    | succ count =>
      rw [dropNames]
      split
      · exact (ih (count + 1)).imp_left fun suffix => suffix.trans (List.suffix_cons _ _)
      · exact (ih count).imp_left fun suffix => suffix.trans (List.suffix_cons _ _)

/-- What is left when the end is dropped comes first. -/
theorem dropSilentEnd_prefix (segments : List String) : dropSilentEnd segments <+: segments := by
  -- Reversed, the end is a front of the segments.
  rw [dropSilentEnd, ← List.reverse_suffix, List.reverse_reverse]
  exact List.dropWhile_suffix _

/-- What follows a path is spelled by its text. -/
theorem Legible.relativeTo? {path : Path} (legible : path.Legible) (some : base.components ≠ [])
    (known : path.relativeTo? base = .some rel) : rel.Legible := by
  -- What is left over is made of segments of the path.
  have within (segment : String) (member : segment ∈ path.splitDot.2) :
      segment ∈ path.segments := by
    unfold splitDot at member
    split at member
    · rename_i dot
      rw [dot]
      exact List.mem_cons_of_mem _ member
    · exact member
  rw [Path.relativeTo?] at known
  split at known
  · split at known
    · rename_i none
      exact absurd (List.length_eq_zero_iff.1 none) some
    · rename_i count length
      obtain rfl := Option.some.inj known
      generalize count + 1 - _ = drops
      obtain ⟨suffix, noisy⟩ := dropNames_suffix drops path.splitDot.2
      obtain ⟨dropped, kept⟩ := dropSilentEnd_prefix (dropNames drops path.splitDot.2)
      refine ⟨fun segment member => ?_, .inl fun empty => ?_⟩
      · exact legible.spelled _ (within _ (suffix.subset (kept ▸ List.mem_append_left _ member)))
      · -- An empty segment names nothing, so it cannot come first.
        have first : (dropNames drops path.splitDot.2).head? = .some "" := by
          rw [← kept, List.head?_append, empty]
          rfl
        exact absurd (noisy "" first) (by decide)
  · cases known

/-- Whether a path ends with a name. -/
def Ends (rel : Path) : Prop :=
  ∃ name, rel.segments.getLast? = some name ∧ isSilent name = false

/-- The name at the end stays when what names nothing is dropped around it. -/
theorem Ends.segments_trimmed (ends : rel.Ends) :
    rel.trimmed.segments = rel.segments.dropWhile isSilent ∧
      rel.segments.dropWhile isSilent ≠ [] := by
  -- Dropping from the front ends at the name at the latest.
  obtain ⟨name, last, noisy⟩ := ends
  obtain ⟨before, known⟩ := List.getLast?_eq_some_iff.1 last
  have dropped : rel.segments.dropWhile isSilent = before.dropWhile isSilent ++ [name] := by
    rw [known, List.dropWhile_append]
    split
    · rename_i empty
      simp [List.isEmpty_iff.1 empty, noisy]
    · rfl
  rw [trimmed, dropped]
  simp [dropSilentEnd, noisy]

/-- A joined path that ends with a name follows the front of the place. -/
theorem Ends.join_eq (ends : rel.Ends) (relative : rel.rooted = false) :
    base.join rel = ⟨base.rooted, base.front ++ rel.segments⟩ := by
  -- A path with a last name is not empty, so that no empty segment stands for it.
  obtain ⟨name, last, -⟩ := ends
  have some : rel.segments ≠ [] := by
    intro none
    simp [none] at last
  rw [Path.join_eq base relative]
  simp [tail, some]

/-- A joined path that ends with a name is read from its text as it is. -/
theorem IsPlace.ofText_text_join (place : base.IsPlace) (stays : rel.Stays) (ends : rel.Ends) :
    ofText (base.join rel).text = base.join rel := by
  -- The joined path has segments without slashes, and it starts like the place.
  have joined : base.join rel = _ := ends.join_eq stays.relative
  refine ofText_text ?_ ?_
  · rw [joined]
    exact List.forall_mem_append.2
      ⟨fun segment member => place.spelled segment (mem_of_mem_front member), stays.spelled⟩
  · rw [joined]
    cases rooted : base.rooted with
    | true =>
      refine .inr ⟨rfl, fun single => ?_⟩
      -- The last segment is a name.
      obtain ⟨name, last, noisy⟩ := ends
      have same := congrArg List.getLast? single
      rw [List.getLast?_append, last] at same
      obtain rfl : name = "" := by simpa using same
      simp [isSilent] at noisy
    | false =>
      obtain ⟨first, rest, front, -, some⟩ := place.front_cons rooted
      exact .inl (by simp [front, some])

/-- Segments in two parts are joined by a slash between the texts of the parts. -/
theorem intercalate_append {segments others : List String} (some : segments ≠ [])
    (some' : others ≠ []) :
    "/".intercalate (segments ++ others) =
      "/".intercalate segments ++ "/" ++ "/".intercalate others := by
  -- Each of the first segments has a slash behind it, the last one the slash between the parts.
  induction segments with
  | nil => exact absurd rfl some
  | cons first rest ih =>
    cases rest with
    | nil =>
      obtain ⟨next, more, rfl⟩ := List.exists_cons_of_ne_nil some'
      simp [String.intercalate_cons_cons]
    | cons second rest =>
      have later := ih (by simp)
      simp only [List.cons_append] at later ⊢
      simp [String.intercalate_cons_cons, later, String.append_assoc]

/-- The text in front of what follows a path. -/
def before (base : Path) : String :=
  if base.front = [] then "" else (if base.rooted then "/" else "") ++ "/".intercalate base.front

/-- The text of a joined path ends with that of what follows, behind a slash. -/
theorem IsPlace.text_join (place : base.IsPlace) (relative : rel.rooted = false) :
    (base.join rel).text = base.before ++ "/" ++ rel.text := by
  -- The text in front is that of the front with its root.
  have named : rel.text = "/".intercalate rel.segments := by simp [text, relative]
  rw [join_eq base relative, text, before, named]
  by_cases none : base.front = []
  · -- Only the root has nothing in front.
    have empty := place.segments_eq_nil none
    cases rooted : base.rooted with
    | true => simp [none, tail, empty]
    | false =>
      obtain ⟨first, rest, front, -⟩ := place.front_cons rooted
      simp [front] at none
  · have some : base.segments ≠ [] := fun empty => none (by simp [front, empty])
    rw [if_neg none]
    by_cases last : rel.segments = []
    · have behind : tail base rel = [""] := by simp [tail, last, some]
      rw [behind, intercalate_append none (List.cons_ne_nil _ _), last]
      simp [String.append_assoc]
    · have behind : tail base rel = rel.segments := by simp [tail, last]
      rw [behind, intercalate_append none last]
      simp [String.append_assoc]

/-- The text of a path that ends with a name ends with that of its part from the first name on. -/
theorem Ends.text_eq (ends : rel.Ends) (relative : rel.rooted = false) :
    rel.text = rel.trimmed.text ∨ ∃ before, rel.text = before ++ "/" ++ rel.trimmed.text := by
  -- The silent segments in front of the first name are spelled before it, if there are any.
  obtain ⟨segments, some⟩ := ends.segments_trimmed
  have whole : rel.text = "/".intercalate
      (rel.segments.takeWhile isSilent ++ rel.segments.dropWhile isSilent) := by
    simp [text, relative]
  have named : rel.trimmed.text = "/".intercalate (rel.segments.dropWhile isSilent) := by
    rw [← segments]
    simp [text, trimmed]
  rw [whole, named]
  by_cases none : rel.segments.takeWhile isSilent = []
  · rw [none, List.nil_append]
    exact .inl rfl
  · exact .inr ⟨_, intercalate_append none some⟩

end Path

end PropCatalog
