import PropCatalog.Json.Layout
import PropCatalog.Json.Reading
import PropCatalog.Proofs.Json.Quoted
import PropCatalog.Proofs.Related
import Mathlib.Data.List.TakeWhile

/-! A value that is written line by line is read back as it was. -/

namespace PropCatalog.Json

/-- Whether a value holds no number, and no string that is no text. -/
inductive Plain : Json → Prop where
  | null : Plain .null
  | bool (value : Bool) : Plain (.bool value)
  | string (value : String) : Plain (.string value)
  | array {items : List Json} (each : ∀ item ∈ items, Plain item) : Plain (.array items)
  | object {members : List (String × Json)} (each : ∀ member ∈ members, Plain member.2) :
    Plain (.object members)

/-! ## Tokens -/

mutual

/-- The tokens of a value. -/
def tokens : Json → List Token
  | .null => [.null]
  | .bool value => [.bool value]
  | .number text => [.number text.toList]
  | .string value => [.string (some value.toList)]
  | .array [] => [.openBracket, .closeBracket]
  | .array (item :: rest) => .openBracket :: (tokens item ++ itemTokens rest)
  | .object [] => [.openBrace, .closeBrace]
  | .object (member :: rest) => .openBrace :: (memberTokens member ++ membersTokens rest)
  | .illFormed => [.string none]

/-- The tokens of the items after the first one. -/
def itemTokens : List Json → List Token
  | [] => [.closeBracket]
  | item :: rest => .comma :: (tokens item ++ itemTokens rest)

/-- The tokens of a member. -/
def memberTokens : String × Json → List Token
  | (name, value) => .string (some name.toList) :: .colon :: tokens value

/-- The tokens of the members after the first one. -/
def membersTokens : List (String × Json) → List Token
  | [] => [.closeBrace]
  | member :: rest => .comma :: (memberTokens member ++ membersTokens rest)

end

/-- Whether a text is made of some tokens and spaces, which shows when enough tokens can be read. -/
def Spells (text : List Char) (tokens : List Token) : Prop :=
  ∀ count, text.length ≤ count → tokensWithin? count text = some tokens

namespace Spells

variable {text : List Char} {tokens : List Token}

theorem of_blank (blank : text.all isSpace) : Spells text [] := by
  -- Nothing is left when the spaces have been skipped.
  intro count _
  have nothing : text.dropWhile isSpace = [] := by
    rw [List.dropWhile_eq_nil_iff]
    exact List.all_eq_true.1 blank
  cases count with
  | zero => simp [tokensWithin?, blank]
  | succ count => simp [tokensWithin?, nothing]

/-- A space before a text changes no token. -/
theorem space {c : Char} (blank : isSpace c = true) (spells : Spells text tokens) :
    Spells (c :: text) tokens := by
  -- Both texts are the same once the spaces in front are skipped.
  intro count enough
  cases count with
  | zero => simp at enough
  | succ count =>
    have skipped : (c :: text).dropWhile isSpace = text.dropWhile isSpace := by simp [blank]
    rw [← spells (count + 1) (by simp at enough; omega), tokensWithin?, tokensWithin?, skipped]

/-- A line end and indentation change no token. -/
theorem newLine (level : Nat) (spells : Spells text tokens) :
    Spells (newLine level ++ text) tokens := by
  -- A line end is a space as well as those that indent the line.
  have indented : ∀ width, Spells (List.replicate width ' ' ++ text) tokens := by
    intro width
    induction width with
    | zero => exact spells
    | succ width ih => exact ih.space rfl
  exact (indented (2 * level)).space rfl

/-- A text that starts with a token has it before the tokens of the rest. -/
theorem token (c : Char) (more : List Char) {read : Token} (spells : Spells text tokens)
    (ink : isSpace c = false) (first : token? (c :: (more ++ text)) = some (read, text)) :
    Spells (c :: (more ++ text)) (read :: tokens) := by
  -- No space is skipped, and the token takes up at least its first character.
  intro count enough
  cases count with
  | zero => simp at enough
  | succ count =>
    have kept : (c :: (more ++ text)).dropWhile isSpace = c :: (more ++ text) := by simp [ink]
    have others := spells count (by simp at enough; omega)
    simp [tokensWithin?, kept, first, others]

/-- A quoted text is one token. -/
theorem quoted (value : List Char) (spells : Spells text tokens) :
    Spells (quoted value ++ text) (.string (some value) :: tokens) :=
  spells.token '\x22' (value.flatMap escape ++ ['\x22']) rfl (token?_quoted value text)

end Spells

/-! ## Texts and their tokens -/

section Layout

variable {value : Json} {text : List Char} {following : List Token}

/-- Whether the text of a value is made of its tokens, at every level and whatever follows. -/
def SpeltOut (value : Json) : Prop :=
  ∀ (level : Nat) (text : List Char) (following : List Token), Spells text following →
    Spells (layout level value ++ text) (value.tokens ++ following)

/-- Items that are spelt out are spelt out one below the other. -/
theorem spells_layoutItems (level : Nat) {items : List Json}
    (each : ∀ item ∈ items, SpeltOut item) (spells : Spells text following) :
    Spells (layoutItems level items ++ text) (itemTokens items ++ following) := by
  -- From the last item to the first, each one stands behind a comma and a new line.
  induction items with
  | nil =>
    have closed : Spells (']' :: text) (.closeBracket :: following) :=
      spells.token ']' [] rfl rfl
    simpa [layoutItems, itemTokens] using closed.newLine level
  | cons item rest ih =>
    obtain ⟨here, below⟩ := List.forall_mem_cons.1 each
    have indented := (here (level + 1) _ _ (ih below)).newLine (level + 1)
    simpa [layoutItems, itemTokens] using indented.token ',' [] rfl rfl

/-- A member is spelt out with its value. -/
theorem spells_layoutMember (level : Nat) {member : String × Json} (spelt : SpeltOut member.2)
    (spells : Spells text following) :
    Spells (layoutMember level member ++ text) (memberTokens member ++ following) := by
  -- The value stands behind the name, a colon and a space.
  rcases member with ⟨name, value⟩
  have spaced := (spelt (level + 1) _ _ spells).space (c := ' ') rfl
  have named := (spaced.token ':' [] rfl rfl).quoted name.toList
  simpa [layoutMember, memberTokens] using named

/-- Members whose values are spelt out are spelt out one below the other. -/
theorem spells_layoutMembers (level : Nat) {members : List (String × Json)}
    (each : ∀ member ∈ members, SpeltOut member.2) (spells : Spells text following) :
    Spells (layoutMembers level members ++ text) (membersTokens members ++ following) := by
  -- From the last member to the first, each one stands behind a comma and a new line.
  induction members with
  | nil =>
    have closed : Spells ('\x7d' :: text) (.closeBrace :: following) :=
      spells.token '\x7d' [] rfl rfl
    simpa [layoutMembers, membersTokens] using closed.newLine level
  | cons member rest ih =>
    obtain ⟨here, below⟩ := List.forall_mem_cons.1 each
    have indented := (spells_layoutMember level here (ih below)).newLine (level + 1)
    simpa [layoutMembers, membersTokens] using indented.token ',' [] rfl rfl

/-- The text of a plain value is made of its tokens. -/
theorem Plain.speltOut (plain : Plain value) : SpeltOut value := by
  -- Each form of a value opens with a token of its own, and what is in it is spelt out.
  induction plain with
  | null =>
    intro level text following spells
    exact spells.token 'n' ['u', 'l', 'l'] rfl rfl
  | bool value =>
    intro level text following spells
    cases value
    · exact spells.token 'f' ['a', 'l', 's', 'e'] rfl rfl
    · exact spells.token 't' ['r', 'u', 'e'] rfl rfl
  | string value =>
    intro level text following spells
    simpa [layout, tokens] using spells.quoted value.toList
  | @array items _ ih =>
    intro level text following spells
    cases items with
    | nil => exact (spells.token ']' [] rfl rfl).token '[' [] rfl rfl
    | cons item rest =>
      obtain ⟨here, below⟩ := List.forall_mem_cons.1 ih
      have first := here (level + 1) _ _ (spells_layoutItems level below spells)
      simpa [layout, tokens] using
        (first.newLine (level + 1)).token '[' [] rfl rfl
  | @object members _ ih =>
    intro level text following spells
    cases members with
    | nil => exact (spells.token '\x7d' [] rfl rfl).token '\x7b' [] rfl rfl
    | cons member rest =>
      obtain ⟨here, below⟩ := List.forall_mem_cons.1 ih
      have first := spells_layoutMember level here (spells_layoutMembers level below spells)
      simpa [layout, tokens] using
        (first.newLine (level + 1)).token '\x7b' [] rfl rfl

end Layout

/-! ## Tokens and the value they are read as -/

section Reading

variable {value : Json}

/-- Whether the tokens of a value are read as that value, whatever follows, when two steps are left
for each of them. -/
def ReadBack (value : Json) : Prop :=
  ∀ (fuel : Nat) (following : List Token), 2 * value.tokens.length ≤ fuel →
    valueWithin? fuel (value.tokens ++ following) = some (value, following)

/-- No value starts with a closing bracket. -/
theorem tokens_eq_cons (value : Json) :
    ∃ token rest, value.tokens = token :: rest ∧ token ≠ .closeBracket := by
  -- The first token of a value shows what form it has.
  unfold tokens
  split <;> exact ⟨_, _, rfl, by simp⟩

/-- Items that are read back are read back one after the other. -/
theorem itemsWithin?_tokens {item : Json} {rest : List Json} (first : ReadBack item)
    (others : ∀ item ∈ rest, ReadBack item) (fuel : Nat) (following : List Token)
    (enough : 2 * (item.tokens ++ itemTokens rest).length < fuel) :
    itemsWithin? fuel (item.tokens ++ (itemTokens rest ++ following)) =
      some (item :: rest, following) := by
  -- Every item leaves enough of the limit for those behind it.
  induction rest generalizing item fuel with
  | nil =>
    obtain ⟨fuel, rfl⟩ := Nat.exists_eq_add_one.2 (by omega : 0 < fuel)
    have here := first fuel (.closeBracket :: following) (by simp at enough; omega)
    simp [itemTokens, itemsWithin?, here]
  | cons next rest ih =>
    obtain ⟨fuel, rfl⟩ := Nat.exists_eq_add_one.2 (by omega : 0 < fuel)
    obtain ⟨second, below⟩ := List.forall_mem_cons.1 others
    simp only [itemTokens, List.length_append, List.length_cons] at enough
    have here := first fuel (.comma :: (next.tokens ++ (itemTokens rest ++ following))) (by omega)
    have after := ih second below fuel (by simp only [List.length_append]; omega)
    simp [itemTokens, itemsWithin?, here, after]

/-- The tokens of a member, in terms of its name and its value. -/
theorem memberTokens_eq (member : String × Json) :
    memberTokens member = .string (some member.1.toList) :: .colon :: member.2.tokens := by
  -- A member is a pair.
  cases member
  rw [memberTokens]

/-- Members whose values are read back are read back one after the other. -/
theorem membersWithin?_tokens {member : String × Json} {rest : List (String × Json)}
    (first : ReadBack member.2) (others : ∀ member ∈ rest, ReadBack member.2) (fuel : Nat)
    (following : List Token)
    (enough : 2 * (memberTokens member ++ membersTokens rest).length < fuel) :
    membersWithin? fuel (memberTokens member ++ (membersTokens rest ++ following)) =
      some ((member :: rest).map fun (name, value) => (some name.toList, value), following) := by
  -- Every member leaves enough of the limit for those behind it.
  induction rest generalizing member fuel with
  | nil =>
    obtain ⟨fuel, rfl⟩ := Nat.exists_eq_add_one.2 (by omega : 0 < fuel)
    simp only [memberTokens_eq, membersTokens, List.length_append, List.length_cons] at enough
    have here := first fuel (.closeBrace :: following) (by omega)
    simp [memberTokens_eq, membersTokens, membersWithin?, here]
  | cons next rest ih =>
    obtain ⟨fuel, rfl⟩ := Nat.exists_eq_add_one.2 (by omega : 0 < fuel)
    obtain ⟨second, below⟩ := List.forall_mem_cons.1 others
    simp only [memberTokens_eq member, membersTokens, List.length_append, List.length_cons]
      at enough
    have here := first fuel
      (.comma :: (memberTokens next ++ (membersTokens rest ++ following))) (by omega)
    have after := ih second below fuel (by simp only [List.length_append]; omega)
    simp [memberTokens_eq member, membersTokens, membersWithin?, here, after]

/-- An object is made of the members that were read for it. -/
theorem ofMembers_names (members : List (String × Json)) :
    ofMembers (members.map fun (name, value) => (some name.toList, value)) = .object members := by
  rw [ofMembers, mapM_map_of_inverse fun member => by simp]

/-- The tokens of a plain value are read as that value. -/
theorem Plain.readBack (plain : Plain value) : ReadBack value := by
  -- The first token decides how to go on, and what is in the value is read back.
  induction plain with
  | null | bool | string =>
    intro fuel following enough
    obtain ⟨fuel, rfl⟩ := Nat.exists_eq_add_one.2 (lt_of_lt_of_le (by simp [tokens]) enough)
    simp [tokens, valueWithin?]
  | @array items _ ih =>
    intro fuel following enough
    cases items with
    | nil =>
      obtain ⟨fuel, rfl⟩ := Nat.exists_eq_add_one.2 (lt_of_lt_of_le (by simp [tokens]) enough)
      simp [tokens, valueWithin?]
    | cons item rest =>
      obtain ⟨here, below⟩ := List.forall_mem_cons.1 ih
      obtain ⟨token, more, shape, opens⟩ := tokens_eq_cons item
      simp only [tokens, List.length_cons] at enough
      obtain ⟨fuel, rfl⟩ := Nat.exists_eq_add_one.2 (by omega : 0 < fuel)
      have items := itemsWithin?_tokens here below fuel following (by omega)
      simp only [shape, List.cons_append] at items
      simp [tokens, valueWithin?, shape, opens, items]
  | @object members _ ih =>
    intro fuel following enough
    cases members with
    | nil =>
      obtain ⟨fuel, rfl⟩ := Nat.exists_eq_add_one.2 (lt_of_lt_of_le (by simp [tokens]) enough)
      simp [tokens, valueWithin?]
    | cons member rest =>
      obtain ⟨here, below⟩ := List.forall_mem_cons.1 ih
      simp only [tokens, List.length_cons] at enough
      obtain ⟨fuel, rfl⟩ := Nat.exists_eq_add_one.2 (by omega : 0 < fuel)
      have members := membersWithin?_tokens here below fuel following (by omega)
      have whole := ofMembers_names (member :: rest)
      simp only [memberTokens_eq, List.cons_append] at members
      simp only [List.map_cons] at members whole
      simp [tokens, memberTokens_eq, valueWithin?, members, whole]

end Reading

/-- A plain value is read back from its text, also when spaces follow. -/
theorem read?_pretty {value : Json} (plain : Plain value) {spaces : String}
    (blank : spaces.toList.all isSpace) : read? (value.pretty ++ spaces) = some value := by
  -- The text is split into the tokens of the value, and these are read with nothing left.
  have spelt : Spells (layout 0 value ++ spaces.toList) value.tokens := by
    simpa using plain.speltOut 0 _ _ (Spells.of_blank blank)
  have split : tokens? (value.pretty ++ spaces).toList = some value.tokens := by
    simpa [tokens?, pretty] using spelt _ (Nat.le_refl _)
  have found := plain.readBack (2 * value.tokens.length + 1) [] (Nat.le_succ _)
  simp only [List.append_nil] at found
  rw [read?, split]
  simp [found]

end PropCatalog.Json
