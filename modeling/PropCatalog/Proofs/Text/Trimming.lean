import Mathlib.Data.List.DropRight
import PropCatalog.Text.Blank

/-! Texts without the white space at their ends: what is taken away, and where nothing is. -/

namespace PropCatalog.Text

variable {text before after : List Char}

/-- Whether a text is white space only. -/
def Blank (text : List Char) : Prop :=
  ∀ c ∈ text, isBlank c = true

instance (text : List Char) : Decidable (Blank text) :=
  decidable_of_iff (text.all isBlank = true) List.all_eq_true

theorem blank_takeWhile (text : List Char) : Blank (text.takeWhile isBlank) :=
  fun _ member => List.mem_takeWhile_imp member

/-! ## At the end -/

/-- Only white space is taken away at the end. -/
theorem exists_trimEnd (text : List Char) : ∃ after, Blank after ∧ text = trimEnd text ++ after :=
  ⟨text.rtakeWhile isBlank, fun _ member => List.mem_rtakeWhile_imp member,
    List.rdropWhile_append_rtakeWhile.symm⟩

/-- Nothing is left of white space. -/
theorem trimEnd_eq_nil_iff : trimEnd text = [] ↔ Blank text :=
  List.rdropWhile_eq_nil_iff

theorem trimEnd_trimEnd (text : List Char) : trimEnd (trimEnd text) = trimEnd text :=
  List.rdropWhile_idempotent isBlank text

/-- Nothing is taken away where the last character is no white space. -/
theorem trimEnd_eq_self_iff : trimEnd text = text ↔ ∀ c ∈ text.getLast?, isBlank c = false := by
  -- What is dropped from the end is white space, up to the last character that is none.
  refine List.rdropWhile_eq_self_iff.trans ⟨?_, ?_⟩
  · intro last c known
    obtain ⟨some, rfl⟩ := List.mem_getLast?_eq_getLast known
    simpa using last some
  · intro last some
    simp [last _ (List.getLast_mem_getLast? some)]

/-- So white space is not its last character. -/
theorem getLast?_ne_of_trimEnd {c : Char} (ended : trimEnd text = text) (blank : isBlank c = true) :
    text.getLast? ≠ some c := by
  -- The last character is no white space.
  intro last
  have visible := trimEnd_eq_self_iff.1 ended c last
  rw [blank] at visible
  cases visible

/-- White space at the end makes no difference. -/
theorem trimEnd_append_blank (blank : Blank after) : trimEnd (text ++ after) = trimEnd text := by
  -- All of the white space comes first from the end.
  rw [trimEnd, List.reverse_append, List.dropWhile_append_of_pos (by simpa [Blank] using blank)]
  rfl

/-- Nothing is taken away from the end of a text from whose end nothing is taken away. -/
theorem trimEnd_eq_self_of_suffix {rest : List Char} (ended : trimEnd text = text)
    (suffix : rest <:+ text) : trimEnd rest = rest := by
  -- The last character of the rest is that of the text.
  refine trimEnd_eq_self_iff.2 fun c last => ?_
  obtain ⟨before, rfl⟩ := suffix
  refine trimEnd_eq_self_iff.1 ended c ?_
  rw [Option.mem_def] at last
  rw [List.getLast?_append, last]
  rfl

/-! ## At the start -/

/-- White space at the start makes no difference. -/
theorem trimStart_blank_append (blank : Blank before) :
    trimStart (before ++ text) = trimStart text :=
  List.dropWhile_append_of_pos blank

/-- Only white space is taken away at the start. -/
theorem exists_trimStart (text : List Char) :
    ∃ before, Blank before ∧ text = before ++ trimStart text :=
  ⟨text.takeWhile isBlank, blank_takeWhile text, List.takeWhile_append_dropWhile.symm⟩

theorem trimStart_suffix (text : List Char) : trimStart text <:+ text :=
  List.dropWhile_suffix isBlank

/-- Nothing is taken away where the first character is no white space. -/
theorem trimStart_eq_self_of_head {c : Char} (visible : isBlank c = false) :
    trimStart (c :: text) = c :: text :=
  List.dropWhile_cons_of_neg (by simp [visible])

/-! ## At both ends -/

/-- White space around a text makes no difference. -/
theorem trim_around (blank : Blank before) (blank' : Blank after) :
    trim (before ++ (text ++ after)) = trim text := by
  -- The white space in front goes first, then that at the end.
  rw [trim, trimStart_blank_append blank, trimStart, List.dropWhile_append]
  split
  · -- The text is white space itself, so that nothing is left of either.
    rename_i none
    rw [List.isEmpty_iff] at none
    rw [trim, trimStart, none, List.dropWhile_eq_nil_iff.2 blank']
  · exact trimEnd_append_blank blank'

/-- Nothing is left of white space, from whichever end it is taken away. -/
theorem trim_eq_nil_iff : trim text = [] ↔ Blank text := by
  -- What is trimmed at both ends comes back with white space around it.
  rw [trim, trimEnd_eq_nil_iff]
  constructor
  · intro blank
    obtain ⟨before, blank', whole⟩ := exists_trimStart text
    rw [whole]
    exact List.forall_mem_append.2 ⟨blank', blank⟩
  · intro blank c member
    exact blank c ((trimStart_suffix text).subset member)

end PropCatalog.Text
