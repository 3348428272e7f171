import PropCatalog.Text.Lines

/-! Comments of a source text, and the description that a documentation comment holds. -/

namespace PropCatalog.Syntax

open PropCatalog.Text

inductive CommentKind where
  | block
  | line
  deriving DecidableEq, Repr

/-- A comment, without its delimiters. -/
structure Comment where
  kind : CommentKind
  text : String
  deriving DecidableEq, Repr

namespace Comment

/-- A documentation comment is a block comment whose text starts with a star. -/
def isDocumentation (comment : Comment) : Bool :=
  comment.kind == .block && comment.text.toList.head? == some '*'

/-- A line of a documentation comment without its gutter: white space, a star and one space. -/
def stripGutter (line : List Char) : List Char :=
  let line := match trim line with
    | '*' :: rest => rest
    | other => other
  trimEnd (match line with
    | ' ' :: rest => rest
    | other => other)

/-- The lines from the first to the last that is not empty. -/
def dropBlankEdges (lines : List (List Char)) : List (List Char) :=
  ((lines.dropWhile (·.isEmpty)).reverse.dropWhile (·.isEmpty)).reverse

/-- The lines of a documentation comment that hold its description. -/
def descriptionLines (comment : Comment) : List (List Char) :=
  dropBlankEdges ((splitLines (comment.text.toList.drop 1)).map stripGutter)

/-- The description in the last documentation comment of a list, unless that comment is blank. -/
def description? (comments : List Comment) : Option String :=
  match comments.reverse.find? isDocumentation with
  | none => none
  | some comment =>
    match comment.descriptionLines with
    | [] => none
    | lines => some (String.ofList (joinLines lines))

/-- Comments that are no documentation can follow without changing the description. -/
theorem description?_append_of_none {comments others : List Comment}
    (plain : ∀ comment ∈ others, comment.isDocumentation = false) :
    description? (comments ++ others) = description? comments := by
  -- The search from the end passes over every one of the others.
  have skipped : others.reverse.find? isDocumentation = none := by
    simpa [List.find?_eq_none] using plain
  simp [description?, List.find?_append, skipped]

end Comment

end PropCatalog.Syntax
