import PropCatalog.Disk.FileTree
import PropCatalog.Glob.Pattern

/-! The paths on a disk that match a pattern, found component by component. -/

namespace PropCatalog

namespace Glob

/-- The path that starts a search; paths found in it are spelled without it. -/
def here : Path := ⟨false, ["."]⟩

/-- The path of an entry, which stands alone in the directory that the search starts from. -/
def entryOf (path : Path) (name : String) : Path :=
  if path.components = here.components then Path.ofText name else path.join (Path.ofText name)

/-- The path from which those of entries found below it are spelled. -/
def baseOf (path : Path) : Path :=
  if path.components = here.components then .empty else path

/-- Names that directories have for themselves and what they are in; a pattern finds them only when
it starts with a dot. -/
def specialNames (pattern : Pattern) : List String :=
  match pattern.tokens with
  | .char '.' :: _ => [".", ".."].filter pattern.isMatch
  | _ => []

/-- The paths that the components of a pattern lead to from a path, with what is there. -/
def searchFrom (disk : Disk) : List Pattern → Path → List Path
  | [], path => [path]
  | pattern :: rest, path =>
    match pattern.literal? with
    | some name =>
      let next := entryOf path name
      let present :=
        if name = "." || name = ".." then disk.hasDirectory path else disk.contains next
      if present then searchFrom disk rest next else []
    | none =>
      match disk.find path with
      | .ok (.directory entries) =>
        if pattern.isRecursive then
          let found := FileTree.descendantsIn (baseOf path) entries
          match rest with
          | [] => (found.filter (·.2.isDirectory)).map Prod.fst
          | next :: others =>
            if next.isRecursive then searchFrom disk (next :: others) path
            else
              (found.filter fun (path, _) => path.fileName?.any next.isMatch).flatMap
                fun (path, _) => searchFrom disk others path
        else
          let found := (entries.filter fun (name, _) => pattern.isMatch name).map fun (name, _) =>
            (baseOf path).entry name
          (found ++ (specialNames pattern).map path.entry).flatMap (searchFrom disk rest)
      | _ => []

/-- The components of a pattern, without one that is empty at its end. -/
def componentTexts (text : String) : List String :=
  let pieces := (splitSlashes text.toList).map String.ofList
  if pieces.getLast? = some "" then pieces.dropLast else pieces

/-- The directories that match the text of a pattern. The whole text and each of its components must
be patterns. -/
def directories (disk : Disk) (text : String) : Except PatternError (List Path) := do
  let _ ← Pattern.ofText text
  let (start, texts) :=
    match componentTexts text with
    | "" :: texts => (Path.ofText "/", texts)
    | texts => (here, texts)
  let patterns ← texts.mapM Pattern.ofText
  return (searchFrom disk patterns start).filter disk.hasDirectory

end Glob

end PropCatalog
