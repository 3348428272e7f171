import PropCatalog.Text.Blank

/-! Lines of a text, and the removal of indentation that its later lines share. -/

namespace PropCatalog.Text

/-- The lines of a text. A line ends at a line feed, with or without a carriage return before it;
what follows the last one is a line only when it is not empty. -/
def splitLines : List Char → List (List Char)
  | [] => []
  | '\n' :: rest => [] :: splitLines rest
  | '\r' :: '\n' :: rest => [] :: splitLines rest
  | c :: rest =>
    match splitLines rest with
    | [] => [[c]]
    | line :: lines => (c :: line) :: lines

/-- Joins lines by line feeds, without one at the end. -/
def joinLines : List (List Char) → List Char
  | [] => []
  | [line] => line
  | line :: lines => line ++ '\n' :: joinLines lines

/-- The bytes that a text takes in UTF-8. -/
def byteLength (text : List Char) : Nat :=
  text.foldl (fun length c => length + c.utf8Size) 0

/-- Drops exactly `count` bytes, or fails when that would cut a character or pass the end. -/
def dropBytes? : Nat → List Char → Option (List Char)
  | 0, text => some text
  | _ + 1, [] => none
  | count + 1, c :: rest =>
    if c.utf8Size ≤ count + 1 then dropBytes? (count + 1 - c.utf8Size) rest else none

/-- The bytes of white space that a line starts with. -/
def indentation (line : List Char) : Nat :=
  byteLength (line.takeWhile isBlank)

/-- The least indentation among the lines that are not empty, and zero when all are. -/
def sharedIndentation (lines : List (List Char)) : Nat :=
  ((lines.filter (! ·.isEmpty)).map indentation).min?.getD 0

/-- Removes `count` bytes of indentation, or all of it where the cut would not fall between
characters. -/
def unindent (count : Nat) (line : List Char) : List Char :=
  (dropBytes? count line).getD (trimStart line)

/-- Every line is trimmed at its end, and those after the first lose the indentation they share. -/
def dedentLines : List (List Char) → List (List Char)
  | [] => []
  | first :: rest =>
    let trimmed := rest.map trimEnd
    trimEnd first :: trimmed.map (unindent (sharedIndentation trimmed))

/-- A piece of source as it is quoted in a report: its lines do not depend on how deeply it was
nested. -/
def dedent (text : String) : String :=
  String.ofList (joinLines (dedentLines (splitLines text.toList)))

/-- Dedenting keeps the number of lines. -/
theorem length_dedentLines (lines : List (List Char)) :
    (dedentLines lines).length = lines.length := by
  -- Each line is mapped on its own.
  cases lines <;> simp [dedentLines]

end PropCatalog.Text
