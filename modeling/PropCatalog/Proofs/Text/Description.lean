import PropCatalog.Proofs.Text.Lines
import PropCatalog.Proofs.Text.Trimming
import PropCatalog.Syntax.Comment

/-! Descriptions in documentation comments: what is written behind a gutter is read back as it is,
whatever it looks like, and whatever is read could have been written so. -/

namespace PropCatalog.Syntax.Comment

open PropCatalog.Text

variable {gutter line : List Char} {lines : List (List Char)}

/-! ## Descriptions -/

/-- Whether lines can be a description: none has white space at its end, and the first and the last
one are not empty. -/
structure IsDescription (lines : List (List Char)) : Prop where
  single : ∀ line ∈ lines, '\n' ∉ line
  ended : ∀ line ∈ lines, trimEnd line = line
  first : ∃ line, lines.head? = some line ∧ line ≠ []
  last : ∃ line, lines.getLast? = some line ∧ line ≠ []

/-- The lines of a description are told apart by the line feeds between them. -/
theorem IsDescription.splitLines_eq (described : IsDescription lines) :
    splitLines (joinLines lines) = lines := by
  -- No line has a line feed in it or a carriage return at its end.
  refine splitLines_joinLines described.single ?_ ?_
  · intro line member
    exact getLast?_ne_of_trimEnd (described.ended line member) (by decide)
  · intro empty
    obtain ⟨line, last, visible⟩ := described.last
    exact visible (Option.some.inj (last.symm.trans empty))

/-- What is empty in front of a description and behind it is dropped. -/
theorem IsDescription.dropBlankEdges_eq (described : IsDescription lines)
    {before after : List (List Char)} (empty : ∀ line ∈ before, line = [])
    (empty' : ∀ line ∈ after, line = []) :
    dropBlankEdges (before ++ (lines ++ after)) = lines := by
  -- The search stops at the first line of the description.
  have blank : ∀ line ∈ before, line.isEmpty = true := fun line member => by
    rw [empty line member, List.isEmpty_nil]
  have blank' : ∀ line ∈ after.reverse, line.isEmpty = true := fun line member => by
    rw [empty' line (List.mem_reverse.1 member), List.isEmpty_nil]
  obtain ⟨first, head, visible⟩ := described.first
  obtain ⟨last, foot, visible'⟩ := described.last
  have start : (lines ++ after).dropWhile (·.isEmpty) = lines ++ after := by
    obtain ⟨rest, rfl⟩ := List.head?_eq_some_iff.1 head
    exact List.dropWhile_cons_of_neg (by simpa using visible)
  -- From the end, it stops at the last one.
  have stop : lines.reverse.dropWhile (·.isEmpty) = lines.reverse := by
    obtain ⟨rest, rfl⟩ := List.getLast?_eq_some_iff.1 foot
    rw [List.reverse_append]
    exact List.dropWhile_cons_of_neg (by simpa using visible')
  rw [dropBlankEdges, List.dropWhile_append_of_pos blank, start, List.reverse_append,
    List.dropWhile_append_of_pos blank', stop, List.reverse_reverse]

/-! ## Writing -/

/-- A line feed, with or without a carriage return before it. -/
def IsLineBreak (feed : List Char) : Prop :=
  feed = ['\n'] ∨ feed = ['\r', '\n']

/-- The text of a documentation comment: each line of a description stands behind a line break, a
gutter, a star and a space, and the comment ends behind a line break and the gutter. -/
def written (gutter : List Char) (rows : List (List Char × List Char)) (final : List Char) :
    List Char :=
  '*' :: (rows.flatMap fun row => row.1 ++ (gutter ++ '*' :: ' ' :: row.2)) ++ (final ++ gutter)

/-- A line break ends a line that is empty. -/
theorem IsLineBreak.splitLines_append {feed : List Char} (isBreak : IsLineBreak feed)
    (text : List Char) : splitLines (feed ++ text) = [] :: splitLines text := by
  -- A line break is a line feed, or one behind a carriage return.
  rcases isBreak with rfl | rfl
  · rfl
  · rfl

/-- A line behind its gutter is read as the line, even when it starts like a gutter. -/
theorem stripGutter_row (blank : Blank gutter) (ended : trimEnd line = line) :
    stripGutter (gutter ++ '*' :: ' ' :: line) = line := by
  -- The white space in front goes first, then the star and the space behind it.
  have star : trimStart ('*' :: ' ' :: line) = '*' :: ' ' :: line :=
    trimStart_eq_self_of_head (by decide)
  rw [stripGutter, trim, trimStart_blank_append blank, star]
  cases line with
  | nil => rfl
  | cons c rest =>
    -- The last character is that of the line, and no white space.
    have whole : trimEnd ('*' :: ' ' :: c :: rest) = '*' :: ' ' :: c :: rest := by
      refine trimEnd_eq_self_iff.2 fun d last => trimEnd_eq_self_iff.1 ended d ?_
      rwa [List.getLast?_cons_cons, List.getLast?_cons_cons] at last
    rw [whole]
    exact ended

/-- Nothing is read from white space. -/
theorem stripGutter_blank (blank : Blank line) : stripGutter line = [] := by
  -- Trimmed, the line is empty.
  rw [stripGutter, trim_eq_nil_iff.2 blank]
  rfl

/-- Behind its gutter, a line does not end with a carriage return. -/
theorem getLast?_row (ended : trimEnd line = line) :
    (gutter ++ '*' :: ' ' :: line).getLast? ≠ some '\r' := by
  -- A line that is trimmed at its end does not end with white space.
  rw [List.getLast?_append, List.getLast?_cons, List.getLast?_cons, Option.getD_some,
    Option.some_or]
  cases last : line.getLast? with
  | none => simp
  | some c =>
    have other := getLast?_ne_of_trimEnd ended (c := '\r') (by decide)
    rw [last] at other
    exact other

/-- What is written has an empty line for the star in front, the lines of the description behind
their gutters, and the gutter at the end. -/
theorem splitLines_written (noFeed : '\n' ∉ gutter) {rows : List (List Char × List Char)}
    {final : List Char} (breaks : ∀ row ∈ rows, IsLineBreak row.1) (isBreak : IsLineBreak final)
    (single : ∀ line ∈ rows.map Prod.snd, '\n' ∉ line)
    (ended : ∀ line ∈ rows.map Prod.snd, trimEnd line = line) :
    splitLines ((rows.flatMap fun row => row.1 ++ (gutter ++ '*' :: ' ' :: row.2)) ++
        (final ++ gutter)) =
      [] :: ((rows.map Prod.snd).map (gutter ++ '*' :: ' ' :: ·) ++ splitLines gutter) := by
  -- The rows are split off one by one, each at its line break.
  induction rows with
  | nil => exact isBreak.splitLines_append gutter
  | cons row rest ih =>
    obtain ⟨here, breaks⟩ := List.forall_mem_cons.1 breaks
    obtain ⟨noFeed', single⟩ := List.forall_mem_cons.1 single
    obtain ⟨ended', ended⟩ := List.forall_mem_cons.1 ended
    have later := ih breaks single ended
    -- What follows is not empty, as it has lines.
    have some : (rest.flatMap fun row => row.1 ++ (gutter ++ '*' :: ' ' :: row.2)) ++
        (final ++ gutter) ≠ [] := by
      intro empty
      rw [empty] at later
      cases later
    have noFeed'' : '\n' ∉ gutter ++ '*' :: ' ' :: row.2 := by
      simp [noFeed, noFeed']
    rw [List.flatMap_cons, List.append_assoc, List.append_assoc, here.splitLines_append,
      Text.splitLines_append noFeed'' (fun last => absurd last (getLast?_row ended')) some, later]
    simp

/-- What is written into a documentation comment is read back from it. -/
theorem descriptionLines_written (blank : Blank gutter) (noFeed : '\n' ∉ gutter)
    {rows : List (List Char × List Char)} {final : List Char}
    (breaks : ∀ row ∈ rows, IsLineBreak row.1) (isBreak : IsLineBreak final)
    (described : IsDescription (rows.map Prod.snd)) :
    descriptionLines ⟨.block, String.ofList (written gutter rows final)⟩ = rows.map Prod.snd := by
  -- Row by row, what is written is read as the line behind the gutter.
  have read : (rows.map Prod.snd).map (stripGutter ∘ (gutter ++ '*' :: ' ' :: ·)) =
      rows.map Prod.snd := by
    refine (List.map_congr_left fun line member => ?_).trans (List.map_id' _)
    exact stripGutter_row blank (described.ended line member)
  -- Around the description, there are lines of white space only.
  have empty : ∀ line ∈ [[]].map stripGutter, line = [] := by decide
  have empty' : ∀ line ∈ (splitLines gutter).map stripGutter, line = [] := by
    by_cases none : gutter = []
    · simp [none, splitLines]
    · rw [splitLines_of_notMem noFeed none]
      exact List.forall_mem_singleton.2 (stripGutter_blank blank)
  rw [descriptionLines, String.toList_ofList, written, List.cons_append, List.drop_one,
    List.tail_cons, splitLines_written noFeed breaks isBreak described.single described.ended,
    List.map_cons, List.map_append, List.map_map, read]
  exact described.dropBlankEdges_eq empty empty'

/-! ## Reading -/

/-- A line is read from its own characters. -/
theorem mem_of_mem_stripGutter {c : Char} (member : c ∈ stripGutter line) : c ∈ line := by
  -- What is left is a part of the line, from which a star and a space may have been taken.
  have trimmed : ∀ d ∈ trim line, d ∈ line := fun d known =>
    (trimStart_suffix line).subset (mem_of_mem_trimEnd known)
  have known := mem_of_mem_trimEnd member
  refine trimmed c ?_
  -- It may have lost a space, and a star before that.
  split at known
  · rename_i space
    split at space
    · rename_i star
      rw [star, space]
      exact List.mem_cons_of_mem _ (List.mem_cons_of_mem _ known)
    · rw [space]
      exact List.mem_cons_of_mem _ known
  · split at known
    · rename_i star
      rw [star]
      exact List.mem_cons_of_mem _ known
    · exact known

/-- What is read from a line is without white space at its end. -/
theorem trimEnd_stripGutter (line : List Char) : trimEnd (stripGutter line) = stripGutter line :=
  trimEnd_trimEnd _

/-- What is left between empty lines is a description. -/
theorem isDescription_dropBlankEdges (single : ∀ line ∈ lines, '\n' ∉ line)
    (ended : ∀ line ∈ lines, trimEnd line = line) (some : dropBlankEdges lines ≠ []) :
    IsDescription (dropBlankEdges lines) := by
  -- The edges are cut up to the first and the last line that is not empty.
  have start : dropBlankEdges lines <+: lines.dropWhile (·.isEmpty) :=
    List.rdropWhile_prefix (fun line : List Char => line.isEmpty) _
  have within : ∀ line ∈ dropBlankEdges lines, line ∈ lines := fun line member =>
    (List.dropWhile_suffix _).subset (start.subset member)
  refine ⟨fun line member => single line (within line member),
    fun line member => ended line (within line member), ?_, ?_⟩
  · obtain ⟨first, rest, known⟩ := List.exists_cons_of_ne_nil some
    obtain ⟨after, whole⟩ := start
    have head := List.head?_dropWhile_not (fun line : List Char => line.isEmpty) lines
    rw [← whole, known] at head
    exact ⟨first, by rw [known]; rfl, by simpa using head⟩
  · have foot := List.rdropWhile_last_not (fun line : List Char => line.isEmpty) _ some
    exact ⟨_, List.getLast?_eq_getLast_of_ne_nil some, fun empty => foot (List.isEmpty_iff.2 empty)⟩

/-- What is read from a comment is a description, unless it is nothing. -/
theorem isDescription_descriptionLines {comment : Comment}
    (some : comment.descriptionLines ≠ []) : IsDescription comment.descriptionLines := by
  -- The lines of a comment are split at line feeds, and trimmed at their ends.
  refine isDescription_dropBlankEdges ?_ ?_ some
  · refine List.forall_mem_map.2 fun line member feed => ?_
    exact notMem_of_mem_splitLines _ line member (mem_of_mem_stripGutter feed)
  · exact List.forall_mem_map.2 fun line _ => trimEnd_stripGutter line

/-- A description is that of the last documentation comment. -/
theorem description?_eq (comments : List Comment) :
    description? comments = ((comments.filter isDocumentation).getLast?).bind fun comment =>
      match comment.descriptionLines with
      | [] => none
      | lines => some (String.ofList (joinLines lines)) := by
  -- The search goes from the end, so that it finds the last one.
  have last : comments.reverse.find? isDocumentation =
      (comments.filter isDocumentation).getLast? := by
    rw [← List.head?_filter, List.filter_reverse, List.head?_reverse]
  rw [description?, last]
  cases (comments.filter isDocumentation).getLast? <;> rfl

/-- A description is written behind any gutter and read back as it is, among any comments as long
as no documentation comment follows. What is read is always a description, and it is that of the
last documentation comment. -/
theorem description?_roundTrip :
    (∀ (gutter : List Char) (rows : List (List Char × List Char)) (final : List Char)
      (before behind : List Comment), Blank gutter → '\n' ∉ gutter →
      (∀ row ∈ rows, IsLineBreak row.1) → IsLineBreak final → IsDescription (rows.map Prod.snd) →
      (∀ comment ∈ behind, comment.isDocumentation = false) →
      description? (before ++ ⟨.block, String.ofList (written gutter rows final)⟩ :: behind) =
        some (String.ofList (joinLines (rows.map Prod.snd)))) ∧
    (∀ comments text, description? comments = some text →
      IsDescription (splitLines text.toList) ∧
        text = String.ofList (joinLines (splitLines text.toList))) ∧
    ∀ comments others : List Comment,
      (comments.filter isDocumentation).getLast? = (others.filter isDocumentation).getLast? →
      description? comments = description? others := by
  -- The last documentation comment decides, and its lines are those of a description.
  refine ⟨?_, ?_, ?_⟩
  · -- The comment that is written is the last one that is found.
    intro gutter rows final before behind blank noFeed breaks isBreak described plain
    have lines := descriptionLines_written blank noFeed breaks isBreak described
    obtain ⟨first, head, -⟩ := described.first
    obtain ⟨rest, whole⟩ := List.head?_eq_some_iff.1 head
    have found : isDocumentation ⟨.block, String.ofList (written gutter rows final)⟩ = true := by
      simp [isDocumentation, written]
    rw [List.append_cons, description?_append_of_none plain, description?_eq, List.filter_append,
      List.filter_singleton, found, cond_true, List.getLast?_concat, Option.bind_some, lines, whole]
  · -- Its lines can be told apart in the text that they are joined to.
    intro comments text known
    rw [description?_eq, Option.bind_eq_some_iff] at known
    obtain ⟨comment, -, known⟩ := known
    split at known
    · cases known
    · rename_i more
      have described := isDescription_descriptionLines more
      rw [← Option.some.inj known, String.toList_ofList, described.splitLines_eq]
      exact ⟨described, rfl⟩
  · intro comments others same
    rw [description?_eq, description?_eq, same]

/-- A description with an empty line and with a line that looks like a gutter is read back, behind
an older comment and before one that is no documentation. -/
theorem description?_roundTrip_listed :
    String.ofList (written [' '] [(['\n'], "Sizes:".toList), (['\r', '\n'], []),
        (['\n'], "  * small".toList)] ['\n']) = "*\n * Sizes:\r\n * \n *   * small\n " ∧
      description? [⟨.block, "* Old. "⟩, ⟨.block, "*\n * Sizes:\r\n * \n *   * small\n "⟩,
        ⟨.line, " const"⟩] = some "Sizes:\n\n  * small" := by
  -- The comment that is written is evaluated, and the theorem reads it back.
  have text : String.ofList (written [' '] [(['\n'], "Sizes:".toList), (['\r', '\n'], []),
      (['\n'], "  * small".toList)] ['\n']) = "*\n * Sizes:\r\n * \n *   * small\n " := by
    decide +kernel
  refine ⟨text, ?_⟩
  have described : IsDescription ["Sizes:".toList, [], "  * small".toList] :=
    ⟨by decide +kernel, by decide +kernel, ⟨_, rfl, by decide⟩, ⟨_, rfl, by decide⟩⟩
  have read := description?_roundTrip.1 [' '] [(['\n'], "Sizes:".toList), (['\r', '\n'], []),
    (['\n'], "  * small".toList)] ['\n'] [⟨.block, "* Old. "⟩] [⟨.line, " const"⟩]
    (by decide) (by decide) (by simp [IsLineBreak]) (.inl rfl) described (by decide)
  rw [text] at read
  exact read.trans (by decide +kernel)

end PropCatalog.Syntax.Comment
