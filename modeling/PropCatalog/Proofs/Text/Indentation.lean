import PropCatalog.Proofs.Text.Lines
import PropCatalog.Proofs.Text.Trimming

/-! Pieces of source as they are quoted: however deeply a piece is nested, it is quoted in one way,
and a piece loses white space only. What has been quoted is quoted as it is. -/

namespace PropCatalog.Text

variable {before line : List Char} {lines : List (List Char)} {count : Nat}

/-! ## Indentation -/

/-- White space in front of a line adds its bytes to the indentation. -/
theorem indentation_blank_append (blank : Blank before) (line : List Char) :
    indentation (before ++ line) = byteLength before + indentation line := by
  rw [indentation, List.takeWhile_append_of_pos blank, byteLength_append, indentation]

theorem unindent_zero (line : List Char) : unindent 0 line = line := by
  rw [unindent, dropBytes?, Option.getD_some]

/-- An empty line stays empty. -/
theorem unindent_nil (count : Nat) : unindent count [] = [] := by
  cases count <;> rfl

/-- The bytes of a text are dropped with the text. -/
theorem dropBytes?_append (before line : List Char) (count : Nat) :
    dropBytes? (byteLength before + count) (before ++ line) = dropBytes? count line := by
  -- The characters of the text are dropped one by one.
  induction before with
  | nil => simp [byteLength]
  | cons c before ih =>
    -- The count is no zero as long as a character is left, so that the character is dropped.
    have positive : 0 < c.utf8Size := c.utf8Size_pos
    obtain ⟨more, known⟩ : ∃ more, byteLength (c :: before) + count = more + 1 :=
      Nat.exists_eq_add_one.2 (by rw [byteLength_cons]; omega)
    rw [byteLength_cons] at known
    rw [List.cons_append, byteLength_cons, known, dropBytes?, if_pos (by omega), ← ih]
    congr 1
    omega

/-- White space in front of a line is removed first, as many bytes of it as there are. -/
theorem unindent_append (blank : Blank before) (line : List Char) (count : Nat) :
    unindent (byteLength before + count) (before ++ line) = unindent count line := by
  rw [unindent, dropBytes?_append, trimStart_blank_append blank, unindent]

/-- A line that loses all of its indentation starts with no white space. -/
theorem unindent_indentation (line : List Char) :
    unindent (indentation line) line = trimStart line := by
  -- The indentation is all of the white space at the start.
  have cut := unindent_append (blank_takeWhile line) (line.dropWhile isBlank) 0
  rwa [List.takeWhile_append_dropWhile, unindent_zero] at cut

/-- What starts with no white space is not indented. -/
theorem indentation_trimStart (line : List Char) : indentation (trimStart line) = 0 := by
  -- The indentation counts all of the white space at the start, so that the rest has none.
  have whole := indentation_blank_append (blank_takeWhile line) (line.dropWhile isBlank)
  rw [List.takeWhile_append_dropWhile] at whole
  rw [indentation] at whole
  rw [trimStart]
  omega

/-- As long as no more is removed than a line is indented by, what is removed is white space. -/
theorem exists_unindent (within : count ≤ indentation line) :
    ∃ before, Blank before ∧ line = before ++ unindent count line := by
  -- The bytes are dropped, or all white space is where they end inside a character.
  cases dropped : dropBytes? count line with
  | none =>
    rw [unindent, dropped, Option.getD_none]
    exact exists_trimStart line
  | some rest =>
    rw [unindent, dropped, Option.getD_some]
    obtain ⟨before, rfl, length⟩ := exists_of_dropBytes? dropped
    -- What is dropped is not longer than the white space that the line starts with.
    have inside : before <+: (before ++ rest).takeWhile isBlank :=
      prefix_of_byteLength_le (List.prefix_append before rest) (List.takeWhile_prefix _)
        (length.trans_le within)
    exact ⟨before, fun c member => blank_takeWhile _ c (inside.subset member), rfl⟩

/-! ## Shared indentation -/

theorem sharedIndentation_of_empty (empty : ∀ line ∈ lines, line = []) :
    sharedIndentation lines = 0 := by
  -- Empty lines do not count.
  have none : lines.filter (! ·.isEmpty) = [] :=
    List.filter_eq_nil_iff.2 fun line member => by simp [empty line member]
  rw [sharedIndentation, none]
  rfl

/-- The shared indentation is that of some line that is not empty, and no such line has less. -/
theorem sharedIndentation_eq_iff (some : ∃ line ∈ lines, line ≠ []) :
    sharedIndentation lines = count ↔
      (∃ line ∈ lines, line ≠ [] ∧ indentation line = count) ∧
        ∀ line ∈ lines, line ≠ [] → count ≤ indentation line := by
  -- The shared indentation is the least of those that count.
  obtain ⟨line, member, visible⟩ := some
  have among : indentation line ∈ (lines.filter (! ·.isEmpty)).map indentation :=
    List.mem_map_of_mem (List.mem_filter.2 ⟨member, by simp [visible]⟩)
  obtain ⟨least, known⟩ := Option.isSome_iff_exists.1 (List.isSome_min?_of_mem among)
  have same : sharedIndentation lines = least := by rw [sharedIndentation, known, Option.getD_some]
  rw [same, ← Option.some_inj, ← known, List.min?_eq_some_iff, List.forall_mem_map]
  refine and_congr ?_ ?_ <;> simp [and_assoc]

/-- Lines share no more indentation than each of them has. -/
theorem sharedIndentation_le (member : line ∈ lines) (visible : line ≠ []) :
    sharedIndentation lines ≤ indentation line :=
  ((sharedIndentation_eq_iff ⟨line, member, visible⟩).1 rfl).2 line member visible

/-! ## Pieces that are nested more deeply -/

/-- A text with something in front of every line after the first. -/
def indented (indent : List Char) : List Char → List Char
  | [] => []
  | '\n' :: c :: rest => '\n' :: (indent ++ indented indent (c :: rest))
  | c :: rest => c :: indented indent rest

/-- Lines with something in front of each after the first. -/
def indentedLines (indent : List Char) : List (List Char) → List (List Char)
  | [] => []
  | first :: rest => first :: rest.map (indent ++ ·)

variable {indent : List Char}

/-- Behind a line feed comes the indentation, unless the text ends there. -/
theorem indented_feed (rest : List Char) : indented indent ('\n' :: rest) =
    '\n' :: if rest = [] then [] else indent ++ indented indent rest := by
  cases rest <;> simp [indented]

theorem indented_cons {c : Char} (feedless : c ≠ '\n') (rest : List Char) :
    indented indent (c :: rest) = c :: indented indent rest :=
  indented.eq_3 _ _ _ fun _ _ feed => absurd feed feedless

theorem head?_indented (text : List Char) : (indented indent text).head? = text.head? := by
  -- What is put in stands behind the first line.
  unfold indented
  split <;> rfl

/-- The lines of an indented text are the lines of the text with the indentation in front. -/
theorem splitLines_indented (noFeed : '\n' ∉ indent) (noReturn : '\r' ∉ indent) (text : List Char) :
    splitLines (indented indent text) = indentedLines indent (splitLines text) := by
  -- Whatever follows a line feed has the indentation in front of each of its lines.
  have behind {rest : List Char}
      (known : splitLines (indented indent rest) = indentedLines indent (splitLines rest)) :
      splitLines (if rest = [] then [] else indent ++ indented indent rest) =
        (splitLines rest).map (indent ++ ·) := by
    split
    · rename_i empty
      rw [empty]
      rfl
    · rename_i more
      have last : indent.getLast? = some '\r' → (indented indent rest).head? ≠ some '\n' :=
        fun ends => absurd (List.mem_of_getLast? ends) noReturn
      have some : indented indent rest ≠ [] := by
        intro empty
        have first : (indented indent rest).head? = rest.head? := head?_indented rest
        rw [empty] at first
        exact more (List.head?_eq_none_iff.1 first.symm)
      rw [splitLines_append noFeed last some, known]
      cases splitLines rest <;> rfl
  induction text using splitLines.induct with
  | case1 => rfl
  | case2 rest ih =>
    rw [indented_feed, splitLines, behind ih]
    rfl
  | case3 rest ih =>
    rw [indented_cons (by decide), indented_feed, splitLines, behind ih]
    rfl
  | case4 c rest feedless noBreak last ih =>
    -- Only the last character has no line behind it.
    obtain rfl : rest = [] := by
      by_contra more
      exact splitLines_ne_nil more last
    rw [indented_cons feedless, indented, splitLines.eq_4 _ _ feedless (by simp)]
    rfl
  | case5 c rest feedless noBreak line lines more ih =>
    -- No line feed comes to stand behind a carriage return.
    have noBreak' : ∀ rest', c = '\r' → indented indent rest ≠ '\n' :: rest' := by
      rintro rest' rfl feed
      have first : (indented indent rest).head? = rest.head? := head?_indented rest
      rw [feed] at first
      obtain ⟨rest'', rfl⟩ := List.head?_eq_some_iff.1 first.symm
      exact noBreak rest'' rfl rfl
    rw [indented_cons feedless, splitLines.eq_4 _ _ feedless noBreak', ih,
      splitLines.eq_4 _ _ feedless noBreak, more]
    rfl

/-- Trimming keeps white space in front of a line as long as it keeps something of the line. -/
theorem trimEnd_blank_append (blank : Blank before) (line : List Char) :
    trimEnd (before ++ line) = if trimEnd line = [] then [] else before ++ trimEnd line := by
  -- Whether something is left of the line decides.
  split
  · rename_i none
    exact trimEnd_eq_nil_iff.2 (List.forall_mem_append.2 ⟨blank, trimEnd_eq_nil_iff.1 none⟩)
  · rename_i some
    rw [trimEnd, List.reverse_append, List.dropWhile_append, if_neg, List.reverse_append,
      List.reverse_reverse]
    · rfl
    · intro empty
      rw [List.isEmpty_iff] at empty
      exact some (by rw [trimEnd, empty, List.reverse_nil])

/-- White space in front of lines is shared by all of them. -/
theorem sharedIndentation_indented (blank : Blank indent) (some : ∃ line ∈ lines, line ≠ []) :
    sharedIndentation (lines.map fun line => if line = [] then [] else indent ++ line) =
      byteLength indent + sharedIndentation lines := by
  -- The least line stays the least one behind what is put in front of all.
  obtain ⟨⟨least, member, visible, known⟩, bound⟩ := (sharedIndentation_eq_iff some).1 rfl
  have member' : indent ++ least ∈
      lines.map fun line => if line = [] then [] else indent ++ line :=
    List.mem_map.2 ⟨least, member, if_neg visible⟩
  have visible' : indent ++ least ≠ [] := List.append_ne_nil_of_right_ne_nil _ visible
  refine (sharedIndentation_eq_iff ⟨_, member', visible'⟩).2 ⟨⟨_, member', visible', ?_⟩, ?_⟩
  · rw [indentation_blank_append blank, known]
  · -- Lines that were empty stay so and do not count.
    intro line among some
    obtain ⟨line, here, rfl⟩ := List.mem_map.1 among
    split at some
    · exact absurd rfl some
    · rename_i visible
      rw [if_neg visible, indentation_blank_append blank]
      exact Nat.add_le_add_left (bound line here visible) _

/-- Lines that are nested more deeply are the same once they are dedented. -/
theorem dedentLines_indented (blank : Blank indent) (lines : List (List Char)) :
    dedentLines (indentedLines indent lines) = dedentLines lines := by
  -- The first line is left alone, and all others share what is put in front of them.
  cases lines with
  | nil => rfl
  | cons first rest =>
    have trimmed : (rest.map (indent ++ ·)).map trimEnd =
        (rest.map trimEnd).map fun line => if line = [] then [] else indent ++ line := by
      simp [trimEnd_blank_append blank]
    rw [indentedLines, dedentLines, dedentLines]
    rw [trimmed, List.map_map]
    -- From a line that is not empty, what is in front goes first, then what the lines shared.
    refine congrArg _ (List.map_congr_left fun line member => ?_)
    dsimp only [Function.comp]
    by_cases visible : line = []
    · rw [if_pos visible, visible, unindent_nil, unindent_nil]
    · rw [if_neg visible, sharedIndentation_indented blank ⟨line, member, visible⟩,
        unindent_append blank]

/-- A text with an indentation in front of every line after the first. -/
def indentText (indent text : String) : String :=
  String.ofList (indented indent.toList text.toList)

/-- However deeply a piece of source is nested, it is quoted in one way: white space in front of
its lines, in front of each after the first the same, makes no difference. -/
theorem dedent_indentText {indent : String} (blank : Blank indent.toList)
    (noFeed : '\n' ∉ indent.toList) (noReturn : '\r' ∉ indent.toList) (text : String) :
    splitLines (indentText indent text).toList =
      indentedLines indent.toList (splitLines text.toList) ∧
    dedent (indentText indent text) = dedent text := by
  -- The quotation is made of the lines.
  have lines := splitLines_indented noFeed noReturn text.toList
  rw [dedent, dedent, indentText, String.toList_ofList, lines, dedentLines_indented blank]
  exact ⟨rfl, rfl⟩

/-- Lines that are indented by different white space, one of them in the middle of a character, are
quoted in one way behind a tabulator and a wide space. -/
theorem dedent_indentText_mixed :
    indentText "\t\u3000" "fn(\r\n  a,\n \n\u00a0b\n c)" =
        "fn(\r\n\t\u3000  a,\n\t\u3000 \n\t\u3000\u00a0b\n\t\u3000 c)" ∧
      dedent "fn(\r\n\t\u3000  a,\n\t\u3000 \n\t\u3000\u00a0b\n\t\u3000 c)" =
        "fn(\n a,\n\nb\nc)" := by
  -- Both texts are evaluated, and the theorem tells that they are quoted alike.
  have nested : indentText "\t\u3000" "fn(\r\n  a,\n \n\u00a0b\n c)" =
      "fn(\r\n\t\u3000  a,\n\t\u3000 \n\t\u3000\u00a0b\n\t\u3000 c)" := by
    decide +kernel
  have same := (@dedent_indentText "\t\u3000" (by decide +kernel) (by decide +kernel)
    (by decide +kernel) "fn(\r\n  a,\n \n\u00a0b\n c)").2
  rw [nested] at same
  exact ⟨nested, same.trans (by decide +kernel)⟩

end PropCatalog.Text
