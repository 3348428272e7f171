import PropCatalog.Glob.Pattern

/-! Patterns that are read behind other text, and texts that they match behind other text. -/

namespace PropCatalog.Glob

/-! ## Matching -/

/-- What follows a slash is among what follows slashes, and so is what follows later ones. -/
theorem mem_afterSlashes (before text : List Char) :
    text ∈ afterSlashes (before ++ '/' :: text) ∧
      ∀ later ∈ afterSlashes text, later ∈ afterSlashes (before ++ '/' :: text) := by
  -- Up to the slash, a slash only adds to what there is.
  induction before using afterSlashes.induct with
  | case1 => exact ⟨List.mem_cons_self, fun _ => List.mem_cons_of_mem _⟩
  | case2 before ih =>
    exact ⟨List.mem_cons_of_mem _ ih.1,
      fun later member => List.mem_cons_of_mem _ (ih.2 later member)⟩
  | case3 c before noSlash ih =>
    rw [List.cons_append, afterSlashes.eq_3 _ _ noSlash]
    exact ih

/-- A pattern that starts with any number of components matches behind a slash, too. -/
theorem matchTokens_behind {tokens : List Token} (any : tokens.head? = some .anyComponents)
    {text : List Char} (known : matchTokens tokens text = true) (before : List Char) :
    matchTokens tokens (before ++ '/' :: text) = true := by
  -- What follows the slash is one of the texts that the rest of the pattern may match.
  obtain ⟨rest, rfl⟩ := List.head?_eq_some_iff.1 any
  obtain ⟨here, later⟩ := mem_afterSlashes before text
  simp only [matchTokens, Bool.or_eq_true, List.any_eq_true] at known ⊢
  rcases known with known | ⟨after, member, known⟩
  · exact .inr ⟨text, here, known⟩
  · exact .inr ⟨after, later after member, known⟩

/-! ## Reading -/

/-- Whether a character stands for itself wherever it is outside of brackets. -/
def isPlain (c : Char) : Bool :=
  c != '?' && c != '[' && c != '*'

/-- A plain character is read as itself. -/
theorem readTokens_cons {c : Char} (plain : isPlain c = true) (position : Nat)
    (before : Option Char) (tokens : List Token) (rest : List Char) :
    readTokens .outside position before tokens (c :: rest) =
      readTokens .outside (position + 1) (some c) (.char c :: tokens) rest := by
  -- None of the characters that are read in a special way is plain.
  simp only [isPlain, Bool.and_eq_true, bne_iff_ne] at plain
  rw [readTokens] <;> simp_all

/-- Plain characters are read as themselves. -/
theorem readTokens_plain {plain : List Char} (each : plain.all isPlain = true) (position : Nat)
    (before : Option Char) (tokens : List Token) (rest : List Char) :
    readTokens .outside position before tokens (plain ++ rest) =
      readTokens .outside (position + plain.length) (plain.getLast?.or before)
        ((plain.map .char).reverse ++ tokens) rest := by
  -- Character by character, the tokens are put in front of those so far.
  induction plain generalizing position before tokens with
  | nil => rfl
  | cons c plain ih =>
    rw [List.all_cons, Bool.and_eq_true] at each
    rw [List.cons_append, readTokens_cons each.1, ih each.2, List.getLast?_cons]
    cases last : plain.getLast? <;> simp [Nat.add_comm, Nat.add_left_comm]

/-- A plain text is a pattern of its characters. -/
theorem ofText_plain {text : String} (plain : text.toList.all isPlain = true) :
    Pattern.ofText text = .ok ⟨text.toList.map .char⟩ := by
  -- Nothing has been read before, and nothing is left afterwards.
  have read := readTokens_plain plain 0 none [] []
  rw [List.append_nil] at read
  simp [Pattern.ofText, read, readTokens, Except.map]

/-- A pattern of characters stands for them. -/
theorem literal?_map_char (text : String) :
    (⟨text.toList.map .char⟩ : Pattern).literal? = some text := by
  -- Every token stands for its character.
  have each (characters : List Char) :
      (characters.map Token.char).mapM Token.literal? = some characters := by
    induction characters with
    | nil => rfl
    | cons c rest ih => simp [Token.literal?, ih]
  rw [Pattern.literal?, each, Option.map_some, String.ofList_toList]

/-- Whether two readings are at the same kind of place. -/
inductive SetState.Alike : SetState → SetState → Prop where
  | outside : Alike .outside .outside
  | opened (start start' : Nat) : Alike (.opened start) (.opened start')
  | negated (start start' : Nat) : Alike (.negated start) (.negated start')
  | inside (start start' : Nat) (isNegated isNegated' : Bool) (characters characters' : List Char) :
    Alike (.inside start isNegated characters) (.inside start' isNegated' characters')

/-- Whether a text is read as a pattern does not depend on what has been read before, except for
the slash right before it. -/
theorem isOk_readTokens {state state' : SetState} (alike : state.Alike state')
    {before before' : Option Char} (slash : before.all (· == '/') = before'.all (· == '/'))
    (position position' : Nat) (tokens tokens' : List Token) (text : List Char) :
    (readTokens state position before tokens text).isOk =
      (readTokens state' position' before' tokens' text).isOk := by
  -- Both readings take the same branch at each character.
  induction state, position, before, tokens, text using readTokens.induct
    generalizing state' position' before' tokens' with
  | case1 | case2 | case3 | case4 | case12 | case13 | case15 =>
    -- Here the reading ends.
    cases alike
    simp_all [readTokens, Except.isOk, Except.toBool]
  | case16 _ _ _ rest =>
    -- Two stars behind anything else than a slash end it as well, whatever follows.
    cases alike
    rcases rest with _ | ⟨c, rest⟩
    · simp_all [readTokens, Except.isOk, Except.toBool]
    · by_cases slash : c = '/' <;> simp_all [readTokens, Except.isOk, Except.toBool]
  | case8 =>
    rename_i ih
    cases alike
    simp only [readTokens]
    exact ih .outside rfl _ _
  | case5 _ _ _ _ _ ih | case6 _ _ _ _ _ _ _ ih | case7 _ _ _ _ _ _ ih
  | case9 _ _ _ _ _ _ _ _ _ ih | case10 _ _ _ _ ih | case11 _ _ _ _ ih | case14 _ _ _ _ _ _ ih
  | case17 _ _ _ _ _ _ ih | case18 _ _ _ _ _ _ _ _ _ _ ih =>
    -- Here it goes on at the same kind of place, behind the same character.
    cases alike
    simp only [readTokens, ← slash, *]
    exact ih (by constructor) rfl _ _

/-- A text is a pattern behind plain text and a slash just when it is one alone. -/
theorem isOk_ofText_behind {before : String} (plain : before.toList.all isPlain = true)
    (text : String) :
    (Pattern.ofText (before ++ "/" ++ text)).isOk = (Pattern.ofText text).isOk := by
  -- The plain text is read through, and it ends in a slash, like nothing at all.
  have slash : ("/" : String).toList = ['/'] := rfl
  have each : (before.toList ++ ['/']).all isPlain = true := by
    rw [List.all_append, plain]
    decide
  have isOk_map (result : Except PatternError (List Token)) :
      (result.map Pattern.mk).isOk = result.isOk := by cases result <;> rfl
  rw [Pattern.ofText, Pattern.ofText, isOk_map, isOk_map, String.toList_append,
    String.toList_append, slash, readTokens_plain each]
  exact isOk_readTokens .outside (by simp) _ _ _ _ _

theorem mem_of_mem_addComponents {c : Char} {tokens : List Token}
    (member : Token.char c ∈ addComponents tokens) : Token.char c ∈ tokens := by
  -- Only a token for any components is added.
  unfold addComponents at member
  split at member
  · exact member
  · simpa using member

/-- The characters of a pattern are characters of its text. -/
theorem mem_of_readTokens {state : SetState} {position : Nat} {before : Option Char}
    {tokens result : List Token} {text : List Char}
    (known : readTokens state position before tokens text = .ok result) {c : Char}
    (member : Token.char c ∈ result) : Token.char c ∈ tokens ∨ c ∈ text := by
  -- Only a plain character is added as one, and it is taken from the text.
  revert known
  fun_induction readTokens state position before tokens text <;> intro known <;>
    grind [mem_of_mem_addComponents]

end PropCatalog.Glob
