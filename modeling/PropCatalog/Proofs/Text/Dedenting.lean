import PropCatalog.Proofs.Related
import PropCatalog.Proofs.Text.Indentation

/-! What becomes of the lines of a piece of source that is quoted. They lose white space only, the
later ones all as much of it, and nothing more is lost when the quoted piece is quoted again. -/

namespace PropCatalog.Text

variable {line : List Char} {lines : List (List Char)} {count : Nat}

/-! ## What each line loses -/

/-- The indentation that lines share is white space in each of them. -/
theorem exists_unindent_shared (member : line ∈ lines) :
    ∃ before, Blank before ∧ line = before ++ unindent (sharedIndentation lines) line := by
  -- An empty line has nothing to lose, and any other one has at least what is shared.
  by_cases visible : line = []
  · refine ⟨[], by simp [Blank], ?_⟩
    rw [visible, unindent_nil]
    rfl
  · exact exists_unindent (sharedIndentation_le member visible)

/-- Whether a line has lost white space only, and all that was at its end. -/
structure Strips (line out : List Char) : Prop where
  ended : trimEnd out = out
  lost : ∃ before after, Blank before ∧ Blank after ∧ line = before ++ (out ++ after)

/-- Each line loses white space only. -/
theorem strips_dedentLines (lines : List (List Char)) :
    List.Forall₂ Strips lines (dedentLines lines) := by
  -- The first line is trimmed at its end only.
  cases lines with
  | nil => exact .nil
  | cons first rest =>
    refine .cons ?_ ?_
    · obtain ⟨after, blank, whole⟩ := exists_trimEnd first
      exact ⟨trimEnd_trimEnd first, [], after, by simp [Blank], blank, whole⟩
    · rw [List.map_map, List.forall₂_map_right_iff, List.forall₂_same]
      intro line member
      -- A line is trimmed at its end first, and cut at its start after that.
      obtain ⟨after, blank, whole⟩ := exists_trimEnd line
      obtain ⟨before, blank', trimmed⟩ :=
        exists_unindent_shared (List.mem_map.2 ⟨line, member, rfl⟩)
      refine ⟨trimEnd_eq_self_of_suffix (trimEnd_trimEnd line) ⟨before, trimmed.symm⟩,
        before, after, blank', blank, ?_⟩
      rw [Function.comp_apply, ← List.append_assoc, ← trimmed]
      exact whole

/-- What is lost is no part of a line that has been trimmed. -/
theorem Strips.trim_eq {out : List Char} (strips : Strips line out) : trim out = trim line := by
  -- Only white space around the line is lost.
  obtain ⟨before, after, blank, blank', rfl⟩ := strips.lost
  exact (trim_around blank blank').symm

/-! ## Lines that keep their distance -/

/-- Whether the white space in front of a line is ASCII. -/
def AsciiIndented (line : List Char) : Prop :=
  ∀ c ∈ line.takeWhile isBlank, c.toNat < 128

/-- An ASCII character is one byte. -/
theorem byteLength_of_ascii {text : List Char} (ascii : ∀ c ∈ text, c.toNat < 128) :
    byteLength text = text.length := by
  -- Each character counts one.
  induction text with
  | nil => rfl
  | cons c rest ih =>
    obtain ⟨here, later⟩ := List.forall_mem_cons.1 ascii
    have single : c.utf8Size = 1 :=
      Char.utf8Size_eq_one_iff.2 (UInt32.le_iff_toNat_le.2 (Nat.le_of_lt_succ here))
    rw [byteLength_cons, single, ih later, List.length_cons, Nat.add_comm]

/-- Where every character of the indentation is one byte, any part of it can be removed. -/
theorem indentation_unindent (ascii : AsciiIndented line) (within : count ≤ indentation line) :
    indentation (unindent count line) + count = indentation line := by
  -- As many characters as bytes are cut, so that the cut is never inside a character.
  have length := byteLength_of_ascii ascii
  have fits : count ≤ (line.takeWhile isBlank).length := by
    rw [← length]
    exact within
  obtain ⟨before, after, spaces, rfl⟩ : ∃ before after, line.takeWhile isBlank = before ++ after ∧
      before.length = count :=
    ⟨_, _, (List.take_append_drop count _).symm, List.length_take_of_le fits⟩
  rw [AsciiIndented, spaces] at ascii
  have blank : Blank before := fun c member =>
    blank_takeWhile line c (spaces ▸ List.mem_append_left after member)
  have bytes : byteLength before = before.length :=
    byteLength_of_ascii fun c member => ascii c (List.mem_append_left after member)
  have whole : line = before ++ (after ++ line.dropWhile isBlank) := by
    rw [← List.append_assoc, ← spaces, List.takeWhile_append_dropWhile]
  have cut := unindent_append blank (after ++ line.dropWhile isBlank) 0
  rw [unindent_zero, Nat.add_zero, bytes, ← whole] at cut
  rw [cut]
  conv_rhs => rw [whole, indentation_blank_append blank, bytes]
  exact Nat.add_comm _ _

/-- Trimming a line at its end leaves its indentation, unless the line is white space. -/
theorem takeWhile_trimEnd (visible : ¬ Blank line) :
    (trimEnd line).takeWhile isBlank = line.takeWhile isBlank := by
  -- Only white space behind the visible part is cut.
  obtain ⟨after, blank, whole⟩ := exists_trimEnd line
  have some : ¬ Blank (trimEnd line) := by
    intro none
    refine visible ?_
    rw [whole]
    exact List.forall_mem_append.2 ⟨none, blank⟩
  conv_rhs => rw [whole, List.takeWhile_append]
  rw [if_neg]
  intro length
  -- All of the trimmed line would be white space then.
  exact some (List.takeWhile_eq_self_iff.1
    ((List.takeWhile_prefix isBlank).eq_of_length length))

/-- Each later line with an ASCII indentation loses what all of them share. -/
theorem indentation_dedented {rest : List (List Char)} (member : line ∈ rest)
    (visible : ¬ Blank line) (ascii : AsciiIndented line) :
    indentation (unindent (sharedIndentation (rest.map trimEnd)) (trimEnd line)) +
      sharedIndentation (rest.map trimEnd) = indentation line := by
  -- Trimmed at its end, the line still has its indentation, and that is cut by the shared one.
  have lead := takeWhile_trimEnd visible
  have some : trimEnd line ≠ [] := fun none => visible (trimEnd_eq_nil_iff.1 none)
  have within := sharedIndentation_le (List.mem_map_of_mem member) some
  have ascii' : AsciiIndented (trimEnd line) := by
    rw [AsciiIndented, lead]
    exact ascii
  rw [indentation_unindent ascii' within, indentation, lead, indentation]

/-! ## Dedenting again -/

/-- Once trimmed lines have lost what they share, they share no more. -/
theorem sharedIndentation_unindent (ended : ∀ line ∈ lines, trimEnd line = line) :
    sharedIndentation (lines.map (unindent (sharedIndentation lines))) = 0 := by
  -- Some line has no more indentation than is shared, unless all lines are empty.
  by_cases some : ∃ line ∈ lines, line ≠ []
  · -- The line with the least indentation has none left, and something else it has.
    obtain ⟨⟨least, member, visible, known⟩, -⟩ := (sharedIndentation_eq_iff some).1 rfl
    have cut : unindent (sharedIndentation lines) least = trimStart least := by
      rw [← known, unindent_indentation]
    have left : trimStart least ≠ [] := by
      intro none
      refine visible ?_
      rw [← ended least member]
      exact trimEnd_eq_nil_iff.2 (List.dropWhile_eq_nil_iff.1 none)
    have member' : trimStart least ∈ lines.map (unindent (sharedIndentation lines)) :=
      List.mem_map.2 ⟨least, member, cut⟩
    exact (sharedIndentation_eq_iff ⟨_, member', left⟩).2
      ⟨⟨_, member', left, indentation_trimStart least⟩, fun _ _ _ => Nat.zero_le _⟩
  · refine sharedIndentation_of_empty (List.forall_mem_map.2 fun line member => ?_)
    have empty : line = [] := by
      by_contra visible
      exact some ⟨line, member, visible⟩
    rw [empty, unindent_nil]

theorem trimEnd_of_mem_dedentLines (lines : List (List Char)) :
    ∀ line ∈ dedentLines lines, trimEnd line = line := by
  -- Each line comes from one that has been trimmed.
  intro out member
  obtain ⟨line, -, strips⟩ := exists_mem_of_forall₂ (strips_dedentLines lines).flip member
  exact strips.ended

/-- Lines that are dedented stay as they are. -/
theorem dedentLines_dedentLines (lines : List (List Char)) :
    dedentLines (dedentLines lines) = dedentLines lines := by
  -- There is nothing to trim, and no indentation is shared.
  cases lines with
  | nil => rfl
  | cons first rest =>
    obtain ⟨-, later⟩ := List.forall_mem_cons.1 (trimEnd_of_mem_dedentLines (first :: rest))
    have trimmed : ∀ line ∈ rest.map trimEnd, trimEnd line = line := by simp [trimEnd_trimEnd]
    rw [dedentLines, dedentLines, trimEnd_trimEnd]
    rw [List.map_congr_left later, List.map_id', sharedIndentation_unindent trimmed,
      List.map_congr_left fun line _ => unindent_zero line, List.map_id']

/-! ## Quoting again -/

/-- What becomes of the lines of a piece of source that is quoted. -/
structure Dedents (lines printed : List (List Char)) : Prop where
  length : printed.length = lines.length
  /-- Each line is without white space at its end and has lost white space only. -/
  strips : List.Forall₂ Strips lines printed
  content : printed.map trim = lines.map trim
  first : printed.head? = lines.head?.map trimEnd
  /-- Between later lines, the indentation differs by as much as before. -/
  steps : ∀ pair ∈ lines.tail.zip printed.tail, ∀ pair' ∈ lines.tail.zip printed.tail,
    ¬ Blank pair.1 → ¬ Blank pair'.1 → AsciiIndented pair.1 → AsciiIndented pair'.1 →
      (indentation pair.2 : Int) - indentation pair'.2 = indentation pair.1 - indentation pair'.1

theorem dedents_dedentLines (lines : List (List Char)) : Dedents lines (dedentLines lines) where
  length := length_dedentLines lines
  strips := strips_dedentLines lines
  content := map_eq_of_forall₂ (strips_dedentLines lines).flip fun _ _ strips => strips.trim_eq
  first := by
    cases lines <;> rfl
  steps := by
    cases lines with
    | nil => simp
    | cons first rest =>
      rw [List.tail_cons, dedentLines, List.tail_cons, List.map_map, ← List.map_prod_left_eq_zip]
      simp only [List.forall_mem_map]
      intro line member line' member' visible visible' ascii ascii'
      -- Both lines have lost the shared indentation.
      have lost := indentation_dedented member visible ascii
      have lost' := indentation_dedented member' visible' ascii'
      dsimp only [Function.comp]
      omega

/-- The lines of a quoted piece are those that were joined, unless the piece ends with a blank
line. -/
theorem splitLines_dedent {text : String}
    (ends : ∀ line ∈ (splitLines text.toList).getLast?, ¬ Blank line) :
    splitLines (dedent text).toList = dedentLines (splitLines text.toList) := by
  -- No line has a line feed in it or a carriage return at its end, and the last one is not empty.
  have content := (dedents_dedentLines (splitLines text.toList)).content
  rw [dedent, String.toList_ofList]
  refine splitLines_joinLines ?_ ?_ ?_
  · exact notMem_of_mem_dedentLines (notMem_of_mem_splitLines text.toList)
  · intro line member
    exact getLast?_ne_of_trimEnd (trimEnd_of_mem_dedentLines _ line member) (by decide)
  · -- The last line has lost white space only, and there is more in it.
    intro empty
    have same := congrArg List.getLast? content
    rw [List.getLast?_map, List.getLast?_map, empty] at same
    obtain ⟨line, last, none⟩ := Option.map_eq_some_iff.1 same.symm
    exact ends line last (trim_eq_nil_iff.1 none)

/-- A piece of source that does not end with a blank line is quoted line by line, and when it has
been quoted it is quoted as it is. -/
theorem dedent_dedents {text : String}
    (ends : ∀ line ∈ (splitLines text.toList).getLast?, ¬ Blank line) :
    Dedents (splitLines text.toList) (splitLines (dedent text).toList) ∧
      dedent (dedent text) = dedent text := by
  -- The quotation has the dedented lines, and these stay as they are.
  have lines := splitLines_dedent ends
  constructor
  · rw [lines]
    exact dedents_dedentLines _
  · rw [dedent, lines, dedentLines_dedentLines]
    rfl

/-- A call over several lines, with white space at their ends and an empty line, loses two of its
tabulators and is quoted as it is from then on. -/
theorem dedent_dedents_tabulated :
    (∀ line ∈ (splitLines "fn( \n\t\ta,\r\n\t\n\t\t\tb)".toList).getLast?, ¬ Blank line) ∧
      Dedents ["fn( ".toList, "\t\ta,".toList, "\t".toList, "\t\t\tb)".toList]
        ["fn(".toList, "a,".toList, [], "\tb)".toList] ∧
      dedent "fn(\na,\n\n\tb)" = "fn(\na,\n\n\tb)" := by
  -- The quotation and its lines are evaluated, and the theorem relates them.
  have ends : ∀ line ∈ (splitLines "fn( \n\t\ta,\r\n\t\n\t\t\tb)".toList).getLast?,
      ¬ Blank line := by decide +kernel
  have quoted : dedent "fn( \n\t\ta,\r\n\t\n\t\t\tb)" = "fn(\na,\n\n\tb)" := by decide +kernel
  have lines : splitLines "fn( \n\t\ta,\r\n\t\n\t\t\tb)".toList =
      ["fn( ".toList, "\t\ta,".toList, "\t".toList, "\t\t\tb)".toList] := by decide +kernel
  have lines' : splitLines "fn(\na,\n\n\tb)".toList =
      ["fn(".toList, "a,".toList, [], "\tb)".toList] := by decide +kernel
  have tidied := dedent_dedents ends
  rw [quoted, lines, lines'] at tidied
  exact ⟨ends, tidied⟩

end PropCatalog.Text
