import PropCatalog.Text.Lines
import Mathlib.Algebra.Ring.Nat
import Mathlib.Data.List.TakeWhile
import Mathlib.Data.String.Basic

/-! How many line breaks there are in a text, and in a piece of source as it is quoted. -/

namespace PropCatalog.Text

/-! ## Line breaks -/

/-- The number of line feeds in a text. -/
def lineBreaks (text : String) : Nat :=
  text.toList.count '\n'

@[simp]
theorem lineBreaks_append (text others : String) :
    lineBreaks (text ++ others) = lineBreaks text + lineBreaks others := by
  simp [lineBreaks]

/-- A text that is joined from several ones has their line breaks. -/
theorem lineBreaks_join (texts : List String) :
    lineBreaks (String.join texts) = (texts.map lineBreaks).sum := by
  -- The texts are joined one after the other.
  induction texts with
  | nil => rfl
  | cons text rest ih =>
    rw [String.join_cons, lineBreaks_append, ih, List.map_cons, List.sum_cons]

/-- So has one with a separator between them that has no line break itself. -/
theorem lineBreaks_intercalate {separator : String} (single : lineBreaks separator = 0)
    (texts : List String) :
    lineBreaks (separator.intercalate texts) = (texts.map lineBreaks).sum := by
  -- Each text but the first one comes behind a separator.
  induction texts with
  | nil => rfl
  | cons text rest ih =>
    cases rest with
    | nil => simp
    | cons next rest =>
      rw [String.intercalate_cons_cons, lineBreaks_append, lineBreaks_append, ih, single]
      simp

/-! ## Lines -/

/-- Only the empty text has no lines. -/
theorem splitLines_ne_nil {text : List Char} (some : text ≠ []) : splitLines text ≠ [] := by
  -- The first character begins a line or ends an empty one.
  cases text using splitLines.induct with
  | case1 => exact absurd rfl some
  | case2 | case3 => simp [splitLines]
  | case4 c rest noFeed noReturn last =>
    rw [splitLines.eq_4 _ _ noFeed noReturn, last]
    simp
  | case5 c rest noFeed noReturn line lines more =>
    rw [splitLines.eq_4 _ _ noFeed noReturn, more]
    simp

/-- What is put in front of a text stands in front of its first line, unless a carriage return comes
to stand before a line feed. -/
theorem splitLines_append {before text : List Char} (single : '\n' ∉ before)
    (apart : before.getLast? = some '\r' → text.head? ≠ some '\n') (some : text ≠ []) :
    splitLines (before ++ text) = (splitLines text).modifyHead (before ++ ·) := by
  -- Nothing in front ends a line, so that its characters all join the first one.
  induction before with
  | nil =>
    rw [List.nil_append]
    cases splitLines text <;> rfl
  | cons c before ih =>
    rw [List.mem_cons, not_or] at single
    have noReturn : ∀ rest, c = '\r' → before ++ text ≠ '\n' :: rest := by
      rintro rest rfl feed
      cases before with
      | nil => exact apart rfl (congrArg List.head? feed)
      | cons next before => exact single.2 ((List.cons.inj feed).1 ▸ List.mem_cons_self)
    have later : before.getLast? = Option.some '\r' → text.head? ≠ Option.some '\n' := by
      intro last
      refine apart ?_
      rw [List.getLast?_cons, last]
      rfl
    rw [List.cons_append, splitLines.eq_4 _ _ (fun same => single.1 same.symm) noReturn,
      ih single.2 later]
    cases lines : splitLines text with
    | nil => exact absurd lines (splitLines_ne_nil some)
    | cons first rest => rfl

/-- A text without line feeds is one line. -/
theorem splitLines_of_notMem {line : List Char} (single : '\n' ∉ line) (some : line ≠ []) :
    splitLines line = [line] := by
  -- Its last character begins a line, and the others stand in front of that.
  obtain ⟨before, last, rfl⟩ := (List.eq_nil_or_concat' line).resolve_left some
  rw [List.mem_append, not_or] at single
  have feedless : last ≠ '\n' := fun same => single.2 (by simp [same])
  have alone : splitLines [last] = [[last]] := by
    rw [splitLines.eq_4 _ _ feedless (by simp)]
    rfl
  rw [splitLines_append single.1 (by simp [feedless]) (List.cons_ne_nil _ _), alone]
  rfl

/-- No line of a text holds a line feed. -/
theorem notMem_of_mem_splitLines (text : List Char) : ∀ line ∈ splitLines text, '\n' ∉ line := by
  -- A line feed ends the line that it stands behind.
  induction text using splitLines.induct with
  | case1 => simp [splitLines]
  | case2 rest ih => simpa [splitLines] using ih
  | case3 rest ih => simpa [splitLines] using ih
  | case4 c rest noFeed noReturn last ih =>
    rw [splitLines.eq_4 _ _ noFeed noReturn, last]
    simpa using fun same => noFeed same.symm
  | case5 c rest noFeed noReturn line lines more ih =>
    rw [splitLines.eq_4 _ _ noFeed noReturn, more]
    rw [more, List.forall_mem_cons] at ih
    refine List.forall_mem_cons.2 ⟨?_, ih.2⟩
    rw [List.mem_cons, not_or]
    exact ⟨fun same => noFeed same.symm, ih.1⟩

/-- Joined lines have a line feed between any two of them. -/
theorem count_joinLines {lines : List (List Char)} (each : ∀ line ∈ lines, '\n' ∉ line) :
    (joinLines lines).count '\n' = lines.length - 1 := by
  -- Each line but the last one has a line feed behind it.
  induction lines using joinLines.induct with
  | case1 => rfl
  | case2 line => exact List.count_eq_zero.2 (each line List.mem_cons_self)
  | case3 line lines more ih =>
    obtain ⟨first, others⟩ := List.forall_mem_cons.1 each
    have some : 0 < lines.length := List.length_pos_iff.2 more
    rw [joinLines.eq_3 _ _ more, List.count_append, List.count_cons_self, ih others,
      List.count_eq_zero.2 first, List.length_cons]
    omega

/-- Lines that are joined are told apart again when none of them holds a line feed or ends with a
carriage return, and the last one is not empty. -/
theorem splitLines_joinLines {lines : List (List Char)} (each : ∀ line ∈ lines, '\n' ∉ line)
    (ended : ∀ line ∈ lines, line.getLast? ≠ some '\r') (last : lines.getLast? ≠ some []) :
    splitLines (joinLines lines) = lines := by
  -- Each line is split off at the line feed behind it.
  induction lines using joinLines.induct with
  | case1 => rfl
  | case2 line =>
    have visible : line ≠ [] := fun empty => last (congrArg some empty)
    exact splitLines_of_notMem (each line List.mem_cons_self) visible
  | case3 line lines more ih =>
    -- The line feed behind the line ends it.
    obtain ⟨single, singles⟩ := List.forall_mem_cons.1 each
    obtain ⟨noReturn, noReturns⟩ := List.forall_mem_cons.1 ended
    rw [joinLines.eq_3 _ _ more, splitLines_append single (fun known => absurd known noReturn)
      (List.cons_ne_nil _ _), splitLines, ih singles noReturns fun empty => last ?_]
    · rw [List.modifyHead_cons, List.append_nil]
    · rw [List.getLast?_cons, empty]
      rfl

/-! ## Bytes -/

/-- The bytes of a character come on top of those of the text behind it. -/
theorem byteLength_cons (c : Char) (text : List Char) :
    byteLength (c :: text) = c.utf8Size + byteLength text := by
  -- The count is the same from any start, apart from that.
  have shifted (text : List Char) (start : Nat) :
      text.foldl (fun length c => length + c.utf8Size) start = start + byteLength text := by
    -- The count goes on from wherever it starts.
    induction text generalizing start with
    | nil => rfl
    | cons c rest ih =>
      rw [byteLength, List.foldl_cons, List.foldl_cons, ih, ih (0 + c.utf8Size)]
      omega
  rw [byteLength, List.foldl_cons, shifted, Nat.zero_add]

theorem byteLength_append (text others : List Char) :
    byteLength (text ++ others) = byteLength text + byteLength others := by
  -- The characters of the first text are counted first.
  induction text with
  | nil => simp [byteLength]
  | cons c rest ih => rw [List.cons_append, byteLength_cons, byteLength_cons, ih, Nat.add_assoc]

/-- Of two beginnings of a text, the one with fewer bytes is the beginning of the other one. -/
theorem prefix_of_byteLength_le {before other text : List Char} (first : before <+: text)
    (second : other <+: text) (fewer : byteLength before ≤ byteLength other) :
    before <+: other := by
  -- One of the two is the beginning of the other one in any case.
  rcases List.prefix_or_prefix_of_prefix first second with inside | ⟨more, rfl⟩
  · exact inside
  · -- Every character has a byte, so that nothing comes on top.
    rw [byteLength_append] at fewer
    cases more with
    | nil => simp
    | cons c more =>
      have positive : 0 < c.utf8Size := c.utf8Size_pos
      rw [byteLength_cons] at fewer
      omega

/-- What is dropped from a text has the bytes that are asked for. -/
theorem exists_of_dropBytes? {count : Nat} {text rest : List Char}
    (dropped : dropBytes? count text = some rest) :
    ∃ before, text = before ++ rest ∧ byteLength before = count := by
  -- Characters are dropped as long as they fit.
  induction count, text using dropBytes?.induct with
  | case1 text =>
    rw [dropBytes?] at dropped
    exact ⟨[], Option.some.inj dropped, rfl⟩
  | case2 count => simp [dropBytes?] at dropped
  | case3 count c text fits ih =>
    rw [dropBytes?, if_pos fits] at dropped
    obtain ⟨before, rfl, length⟩ := ih dropped
    refine ⟨c :: before, rfl, ?_⟩
    rw [byteLength_cons, length]
    omega
  | case4 count c text cut => simp [dropBytes?, cut] at dropped

/-! ## Quoted pieces -/

/-- Trimming takes characters away only. -/
theorem mem_of_mem_trimEnd {line : List Char} {c : Char} (member : c ∈ trimEnd line) :
    c ∈ line := by
  -- Only the end of the line is dropped.
  rw [trimEnd, List.mem_reverse] at member
  simpa using (List.dropWhile_suffix isBlank).subset member

/-- Removing indentation takes characters away only. -/
theorem mem_of_mem_unindent {count : Nat} {line : List Char} {c : Char}
    (member : c ∈ unindent count line) : c ∈ line := by
  -- What is left is an end of the line, whether the bytes or all white space have been dropped.
  unfold unindent at member
  cases dropped : dropBytes? count line with
  | none =>
    rw [dropped] at member
    exact (List.dropWhile_suffix isBlank).subset member
  | some rest =>
    rw [dropped] at member
    obtain ⟨before, rfl, -⟩ := exists_of_dropBytes? dropped
    exact List.mem_append_right before member

/-- No line holds a line feed after its indentation has been removed. -/
theorem notMem_of_mem_dedentLines {lines : List (List Char)} (each : ∀ line ∈ lines, '\n' ∉ line) :
    ∀ line ∈ dedentLines lines, '\n' ∉ line := by
  -- Lines are trimmed and lose their indentation, which adds no characters.
  cases lines with
  | nil => simp [dedentLines]
  | cons first rest =>
    obtain ⟨head, tail⟩ := List.forall_mem_cons.1 each
    refine List.forall_mem_cons.2 ⟨fun member => head (mem_of_mem_trimEnd member), ?_⟩
    simp only [List.map_map, List.forall_mem_map]
    exact fun line known member =>
      tail line known (mem_of_mem_trimEnd (mem_of_mem_unindent member))

/-- A quoted piece of source has as many lines as the piece. -/
theorem lineBreaks_dedent (text : String) :
    lineBreaks (dedent text) = (splitLines text.toList).length - 1 := by
  -- As many lines are joined as have been split off.
  rw [lineBreaks, dedent, String.toList_ofList,
    count_joinLines (notMem_of_mem_dedentLines (notMem_of_mem_splitLines _)), length_dedentLines]

end PropCatalog.Text
