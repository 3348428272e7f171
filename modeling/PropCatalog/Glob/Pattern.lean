/-! Patterns for paths: a question mark stands for any character, a star for any text, brackets for
one of several characters, and two stars that are a whole component for any components. -/

namespace PropCatalog.Glob

/-- A member of a bracketed set. -/
inductive Member where
  | single (c : Char)
  | range (first last : Char)
  deriving DecidableEq, Repr

inductive Token where
  | char (c : Char)
  | anyChar
  | anyText
  /-- Two stars with the slash after them, if there is one. -/
  | anyComponents
  | set (negated : Bool) (members : List Member)
  deriving DecidableEq, Repr

/-- Why a text is no pattern. -/
inductive Fault where
  | invalidRange
  | tooManyStars
  | partOfComponent
  deriving DecidableEq, Repr

/-- A fault, and the number of characters in front of it. -/
structure PatternError where
  position : Nat
  fault : Fault
  deriving DecidableEq, Repr

/-- The text of a fault. -/
def Fault.message : Fault → String
  | invalidRange => "invalid range pattern"
  | tooManyStars => "wildcards are either regular \x60*\x60 or recursive \x60**\x60"
  | partOfComponent => "recursive wildcards must form a single path component"

/-- The text of an error. -/
def PatternError.message (error : PatternError) : String :=
  "Pattern syntax error near position " ++ toString error.position ++ ": " ++ error.fault.message

/-- The members that characters between brackets spell: two with a hyphen between them are a
range. -/
def membersOf : List Char → List Member
  | [] => []
  | first :: '-' :: last :: rest => .range first last :: membersOf rest
  | c :: rest => .single c :: membersOf rest

/-- How much of a bracketed set has been read. -/
inductive SetState where
  | outside
  /-- After the opening bracket at a position. -/
  | opened (start : Nat)
  /-- After the opening bracket and an exclamation mark. -/
  | negated (start : Nat)
  /-- After the first of its characters; the latest comes first. -/
  | inside (start : Nat) (negated : Bool) (characters : List Char)

/-- Two stars behind each other match no more than the first two when anything is before them. -/
def addComponents (tokens : List Token) : List Token :=
  match tokens with
  | .anyComponents :: _ :: _ => tokens
  | _ => .anyComponents :: tokens

/-- Reads tokens from a position on. The character before is known, and the tokens read so far are
given with the latest first. -/
def readTokens (state : SetState) (position : Nat) (before : Option Char) (tokens : List Token) :
    List Char → Except PatternError (List Token)
  | [] =>
    match state with
    | .outside => .ok tokens.reverse
    | .opened start | .negated start | .inside start _ _ => .error ⟨start, .invalidRange⟩
  | c :: rest =>
    match state with
    | .opened start =>
      if c = '!' then readTokens (.negated start) (position + 1) (some c) tokens rest
      else readTokens (.inside start false [c]) (position + 1) (some c) tokens rest
    | .negated start => readTokens (.inside start true [c]) (position + 1) (some c) tokens rest
    | .inside start isNegated characters =>
      if c = ']' then
        let set := .set isNegated (membersOf characters.reverse)
        readTokens .outside (position + 1) (some c) (set :: tokens) rest
      else
        readTokens (.inside start isNegated (c :: characters)) (position + 1) (some c) tokens rest
    | .outside =>
      match c, rest with
      | '?', rest => readTokens .outside (position + 1) (some c) (.anyChar :: tokens) rest
      | '[', rest => readTokens (.opened position) (position + 1) (some c) tokens rest
      | '*', '*' :: '*' :: _ => .error ⟨position + 2, .tooManyStars⟩
      | '*', '*' :: rest =>
        if before.all (· == '/') then
          match rest with
          | [] => .ok (addComponents tokens).reverse
          | '/' :: rest =>
            readTokens .outside (position + 3) (some '/') (addComponents tokens) rest
          | _ => .error ⟨position + 2, .partOfComponent⟩
        else .error ⟨position - 1, .partOfComponent⟩
      | '*', rest => readTokens .outside (position + 1) (some c) (.anyText :: tokens) rest
      | c, rest => readTokens .outside (position + 1) (some c) (.char c :: tokens) rest

/-- The character that a token without wildcards stands for. -/
def Token.literal? : Token → Option Char
  | .char c => some c
  | _ => none

/-- A pattern, which is what its tokens say. -/
structure Pattern where
  tokens : List Token
  deriving DecidableEq, Repr

/-- What follows each slash of a text, and the end of the text. -/
def afterSlashes : List Char → List (List Char)
  | [] => [[]]
  | '/' :: rest => rest :: afterSlashes rest
  | _ :: rest => afterSlashes rest

/-- The ends of a text, from all of it to nothing. -/
def ends : List Char → List (List Char)
  | [] => [[]]
  | c :: rest => (c :: rest) :: ends rest

def Member.accepts (c : Char) : Member → Bool
  | .single other => c == other
  | .range first last => first ≤ c && c ≤ last

/-- Whether tokens match all of a text. -/
def matchTokens : List Token → List Char → Bool
  | [], text => text.isEmpty
  | .anyText :: rest, text => (ends text).any (matchTokens rest)
  | .anyComponents :: rest, text =>
    matchTokens rest text || (afterSlashes text).any (matchTokens rest)
  | _ :: _, [] => false
  | .char other :: rest, c :: text => c == other && matchTokens rest text
  | .anyChar :: rest, _ :: text => matchTokens rest text
  | .set negated members :: rest, c :: text =>
    members.any (·.accepts c) != negated && matchTokens rest text

namespace Pattern

/-- The pattern that a text spells. -/
def ofText (text : String) : Except PatternError Pattern :=
  (readTokens .outside 0 none [] text.toList).map Pattern.mk

/-- Whether a pattern matches a text. -/
def isMatch (pattern : Pattern) (text : String) : Bool :=
  matchTokens pattern.tokens text.toList

/-- The text that a pattern without wildcards stands for. -/
def literal? (pattern : Pattern) : Option String :=
  (pattern.tokens.mapM Token.literal?).map String.ofList

/-- Whether a pattern stands for any number of components. -/
def isRecursive (pattern : Pattern) : Bool :=
  pattern.tokens.contains .anyComponents

end Pattern

/-- Whether a text is read as a pattern where patterns and plain paths can stand. -/
def isPattern (text : String) : Bool :=
  text.toList.any fun c => c == '*' || c == '?'

end PropCatalog.Glob
