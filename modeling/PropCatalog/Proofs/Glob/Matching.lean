import PropCatalog.Disk.Path
import PropCatalog.Proofs.Disk.Path
import PropCatalog.Proofs.Glob.Pattern

/-! What patterns match that start with any components: texts with some ending, and texts that pass
through some component. -/

namespace PropCatalog.Glob

variable {text later : List Char}

/-! ## Endings -/

theorem mem_ends_iff : later ∈ ends text ↔ later <:+ text := by
  -- The ends of a text are itself and those of what follows its first character.
  induction text with
  | nil => simp [ends]
  | cons c text ih => rw [ends, List.mem_cons, ih, List.suffix_cons_iff]

/-- What follows a slash is the end of a text. -/
theorem suffix_of_mem_afterSlashes (member : later ∈ afterSlashes text) : later <:+ text := by
  -- What is taken starts behind a slash of the text, or at its end.
  induction text using afterSlashes.induct with
  | case1 => simpa [afterSlashes] using member
  | case2 text ih =>
    rcases List.mem_cons.1 member with rfl | further
    · exact List.suffix_cons _ _
    · exact (ih further).trans (List.suffix_cons _ _)
  | case3 c text noSlash ih =>
    rw [afterSlashes.eq_3 _ _ noSlash] at member
    exact (ih member).trans (List.suffix_cons _ _)

/-- The end of a text counts as behind a slash. -/
theorem nil_mem_afterSlashes (text : List Char) : [] ∈ afterSlashes text := by
  -- The last text that is taken is the empty one.
  induction text using afterSlashes.induct with
  | case1 => simp [afterSlashes]
  | case2 text ih => exact List.mem_cons_of_mem _ ih
  | case3 c text noSlash ih =>
    rw [afterSlashes.eq_3 _ _ noSlash]
    exact ih

/-- Characters match themselves, and what follows them matches what is left. -/
theorem matchTokens_append_iff {characters : List Char} {tokens : List Token} :
    matchTokens (characters.map .char ++ tokens) text = true ↔
      ∃ rest, text = characters ++ rest ∧ matchTokens tokens rest = true := by
  -- Each character is matched by itself alone.
  induction characters generalizing text with
  | nil => simp
  | cons c characters ih =>
    cases text with
    | nil => simp [matchTokens]
    | cons other text =>
      rw [List.map_cons, List.cons_append, matchTokens, Bool.and_eq_true, ih, beq_iff_eq]
      simp [and_assoc]

/-- A star behind any components and before characters matches what ends with them. -/
theorem matchTokens_ending_iff {ending : List Char} :
    matchTokens (.anyComponents :: .anyText :: ending.map .char) text = true ↔ ending <:+ text := by
  -- A star takes up any text, and any components take up what goes to a slash.
  have plain (text : List Char) : matchTokens (ending.map .char) text = true ↔ text = ending := by
    have alone := @matchTokens_append_iff text ending []
    rw [List.append_nil] at alone
    rw [alone]
    simp [matchTokens]
  have star (text : List Char) :
      matchTokens (.anyText :: ending.map .char) text = true ↔ ending <:+ text := by
    simp [matchTokens, plain, mem_ends_iff]
  rw [matchTokens, Bool.or_eq_true, star, List.any_eq_true]
  constructor
  · -- What ends behind a slash ends with the text.
    rintro (ends | ⟨later, member, matched⟩)
    · exact ends
    · exact ((star later).1 matched).trans (suffix_of_mem_afterSlashes member)
  · exact .inl

/-! ## Components -/

/-- A text starts with a component and a slash when the component is its first piece of several. -/
theorem prefix_iff_splitSlashes {name : List Char} (single : '/' ∉ name) :
    name ++ ['/'] <+: text ↔ ∃ pieces, splitSlashes text = name :: pieces ∧ pieces ≠ [] := by
  -- The first slash of the text ends its first piece.
  constructor
  · rintro ⟨rest, rfl⟩
    rw [List.append_assoc, List.singleton_append, splitSlashes_append,
      splitSlashes_of_notMem single]
    exact ⟨_, rfl, splitSlashes_ne_nil rest⟩
  · rintro ⟨pieces, pieced, more⟩
    clear single
    induction text using splitSlashes.induct generalizing name with
    | case1 =>
      rw [splitSlashes] at pieced
      exact absurd (List.cons.inj pieced).2.symm more
    | case2 text ih =>
      rw [splitSlashes] at pieced
      rw [← (List.cons.inj pieced).1]
      exact List.prefix_append ['/'] text
    | case3 c text noSlash none => exact absurd none (splitSlashes_ne_nil text)
    | case4 c text noSlash piece others known ih =>
      rw [splitSlashes.eq_3 _ _ noSlash, known] at pieced
      obtain ⟨rfl, rfl⟩ := List.cons.inj pieced
      rw [List.cons_append, List.cons_prefix_cons]
      exact ⟨rfl, ih known⟩

/-- A component is among the first pieces of a text when it comes with a slash at the start of the
text or behind some other slash. -/
theorem mem_dropLast_splitSlashes_iff {name : List Char} (single : '/' ∉ name) :
    name ∈ (splitSlashes text).dropLast ↔
      name ++ ['/'] <+: text ∨ ∃ later ∈ afterSlashes text, name ++ ['/'] <+: later := by
  -- The first piece of several is at the start, and the others are behind slashes.
  have first {text : List Char} (behind : name ∈ (splitSlashes text).tail.dropLast ↔
      ∃ later ∈ afterSlashes text, name ++ ['/'] <+: later) :
      name ∈ (splitSlashes text).dropLast ↔
        name ++ ['/'] <+: text ∨ ∃ later ∈ afterSlashes text, name ++ ['/'] <+: later := by
    rw [prefix_iff_splitSlashes single, ← behind]
    cases splitSlashes text with
    | nil => simp
    | cons piece pieces =>
      cases pieces with
      | nil => simp
      | cons next pieces => simp [eq_comm]
  refine first ?_
  induction text using splitSlashes.induct with
  | case1 => simp [splitSlashes, afterSlashes]
  | case2 text ih =>
    rw [splitSlashes, List.tail_cons, first ih]
    simp [afterSlashes]
  | case3 c text noSlash none => exact absurd none (splitSlashes_ne_nil text)
  | case4 c text noSlash piece pieces known ih =>
    -- Only the first piece grows, and nothing new is behind a slash.
    rw [known] at ih
    rw [splitSlashes.eq_3 _ _ noSlash, known, afterSlashes.eq_3 _ _ noSlash]
    exact ih

/-- A component between any others matches what passes through it, so that it is one of the pieces
in front of the last one. -/
theorem matchTokens_passing_iff {name : List Char} (single : '/' ∉ name) :
    matchTokens (.anyComponents :: ((name ++ ['/']).map .char ++ [.anyComponents])) text = true ↔
      name ∈ (splitSlashes text).dropLast := by
  -- Whatever is left over is matched.
  have rest (text : List Char) : matchTokens [.anyComponents] text = true := by
    rw [matchTokens, Bool.or_eq_true]
    exact .inr (List.any_eq_true.2 ⟨[], nil_mem_afterSlashes text, rfl⟩)
  have here (text : List Char) :
      matchTokens ((name ++ ['/']).map .char ++ [.anyComponents]) text = true ↔
        name ++ ['/'] <+: text := by
    rw [matchTokens_append_iff]
    simp [rest, List.IsPrefix, eq_comm]
  rw [mem_dropLast_splitSlashes_iff single, matchTokens, Bool.or_eq_true, here, List.any_eq_true]
  simp only [here]

end PropCatalog.Glob
