import PropCatalog.Disk.Path
import PropCatalog.Syntax.Grammar.Items

/-! Source files: a module with the text it was read from and the comments in front of its
tokens. -/

namespace PropCatalog.Syntax

open PropCatalog.Text (dedent)

/-- The characters of a text that is put together. -/
theorem ofList_append_eq {text rest : String} {front back : List Char}
    (given : text = String.ofList front) (more : rest = String.ofList back) :
    text ++ rest = String.ofList (front ++ back) := by
  rw [given, more, String.ofList_append]

/-- A parsed source file. -/
structure SourceFile where
  /-- The text without a byte order mark; positions count from its start. -/
  text : String
  module : Module
  /-- The comments that belong to the token at each position. -/
  comments : List (Nat × List Comment)

/-- What follows the last dot of the last component of a path, unless that component has no other
dot than one at its start. -/
def extension? (path : String) : Option String :=
  -- Empty components and single dots name nothing, except at the start of the path.
  let components := ((splitSlashes path.toList).map String.ofList).filter fun part =>
    part != "" && part != "."
  match components.getLast? with
  | none | some ".." => none
  | some name =>
    let characters := name.toList.reverse
    match characters.dropWhile (· != '.') with
    | [] | [_] => none
    | _ => some (String.ofList (characters.takeWhile (· != '.')).reverse)

/-- The dialect of a file: the extension decides about types, and types exclude markup unless it
says so. -/
def Dialect.ofPath (path : String) : Dialect :=
  match extension? path with
  | some "ts" | some "mts" | some "cts" => ⟨true, false⟩
  | some "tsx" => ⟨true, true⟩
  | _ => ⟨false, true⟩

namespace SourceFile

/-- A text without the line that names an interpreter, and the bytes of that line. -/
def skipInterpreter (text : List Char) : Nat × List Char :=
  match text with
  | '#' :: '!' :: rest =>
    let line := rest.takeWhile (! isLineEnd ·)
    (2 + Text.byteLength line, rest.dropWhile (! isLineEnd ·))
  | _ => (0, text)

/-- Reads the source of a file, character by character. -/
def ofCharacters? (path : String) (characters : List Char) : Option SourceFile := do
  let characters := match characters with
    | '\uFEFF' :: rest => rest
    | _ => characters
  let text := String.ofList characters
  let (position, code) := skipInterpreter characters
  let cursor := Cursor.start (Dialect.ofPath path) text.utf8ByteSize position code
  -- No construct nests through more than eight levels of the grammar without taking up text.
  let depth := 8 * (text.utf8ByteSize + 2)
  let (items, finished) ← Grammar.items (Grammar.ofDepth depth) cursor
  return { text, module := ⟨items⟩, comments := finished.comments.filter (! ·.2.isEmpty) }

/-- Reads the source of a file. -/
def parse? (path source : String) : Option SourceFile :=
  ofCharacters? path source.toList

/-- A source that is given by its characters need not be decoded. -/
theorem parse?_eq {source : String} {text : List Char} (given : source = String.ofList text)
    (path : String) : parse? path source = ofCharacters? path text := by
  rw [parse?, given, String.toList_ofList]

/-- The text of a node. -/
def excerpt (file : SourceFile) (span : Span) : String :=
  String.Pos.Raw.extract file.text ⟨span.lo⟩ ⟨span.hi⟩

/-- The text of a node as reports quote it. -/
def quote (file : SourceFile) (span : Span) : String :=
  dedent (file.excerpt span)

/-- What is quoted from a text that is given by its characters. -/
theorem quote_eq {file : SourceFile} {text : List Char} (given : file.text = String.ofList text)
    (span : Span) :
    file.quote span = dedent (if span.hi ≤ span.lo then "" else
      String.ofList (String.Pos.Raw.extract.go₁ text 0 ⟨span.lo⟩ ⟨span.hi⟩)) := by
  -- An excerpt is cut out of the characters of the text.
  have whole : file.text.toList = text := by rw [given, String.toList_ofList]
  rw [← whole]
  rfl

/-- The comments in front of the token at a position. -/
def commentsAt (file : SourceFile) (position : Nat) : List Comment :=
  (file.comments.lookup position).getD []

/-- The description in front of the token at a position. -/
def descriptionAt? (file : SourceFile) (position : Nat) : Option String :=
  Comment.description? (file.commentsAt position)

end SourceFile

end PropCatalog.Syntax
