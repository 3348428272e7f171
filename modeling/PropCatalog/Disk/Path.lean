/-! Paths as they are spelled, and the components that they name. -/

namespace PropCatalog

/-- The pieces of a text between its slashes. -/
def splitSlashes : List Char → List (List Char)
  | [] => [[]]
  | '/' :: rest => [] :: splitSlashes rest
  | c :: rest =>
    match splitSlashes rest with
    | [] => [[c]]
    | piece :: pieces => (c :: piece) :: pieces

/-- A path as it is spelled: the pieces between its slashes, and whether a slash comes first. -/
structure Path where
  rooted : Bool
  segments : List String
  deriving DecidableEq, Repr, Inhabited

namespace Path

/-- The path of an empty text. -/
def empty : Path := ⟨false, []⟩

/-- The path that a text spells. -/
def ofText (text : String) : Path :=
  match (splitSlashes text.toList).map String.ofList with
  | [""] => empty
  | ["", ""] => ⟨true, []⟩
  | "" :: segments => ⟨true, segments⟩
  | segments => ⟨false, segments⟩

/-- The text that spells a path. -/
def text (path : Path) : String :=
  (if path.rooted then "/" else "") ++ "/".intercalate path.segments

/-- Nothing and a single dot name nothing between slashes. -/
def isSilent (segment : String) : Bool :=
  segment == "" || segment == "."

/-- The dot that a path starts with, and the segments after it. -/
def splitDot (path : Path) : List String × List String :=
  match path.rooted, path.segments with
  | false, "." :: rest => (["."], rest)
  | _, segments => ([], segments)

/-- The components that a path names: its root, the dot it starts with, and the names in it. -/
def components (path : Path) : List String :=
  (if path.rooted then ["/"] else []) ++ path.splitDot.1 ++
    path.splitDot.2.filter (! isSilent ·)

/-- Removes what names nothing at the end. -/
def dropSilentEnd (segments : List String) : List String :=
  (segments.reverse.dropWhile isSilent).reverse

/-- The path without its last component. -/
def parent? (path : Path) : Option Path :=
  let (dot, body) := path.splitDot
  match dropSilentEnd body, dot with
  | [], [] => none
  | [], _ => some ⟨path.rooted, []⟩
  | body, dot => some ⟨path.rooted, dot ++ dropSilentEnd body.dropLast⟩

/-- A path followed by another one, unless that starts at the root. -/
def join (path other : Path) : Path :=
  if other.rooted then other
  else
    let front := if path.segments.getLast? = some "" then path.segments.dropLast else path.segments
    match path.segments, other.segments with
    | [], segments => ⟨path.rooted, segments⟩
    | _, [] => ⟨path.rooted, front ++ [""]⟩
    | _, segments => ⟨path.rooted, front ++ segments⟩

/-- The path of an entry of a directory. -/
def entry (path : Path) (name : String) : Path :=
  path.join ⟨false, [name]⟩

/-- Whether a path names another one, or something below it. -/
def isWithin (path base : Path) : Bool :=
  base.components.isPrefixOf path.components

/-- The segments after a number of names. -/
def dropNames : Nat → List String → List String
  | 0, segments => segments.dropWhile isSilent
  | _ + 1, [] => []
  | count + 1, segment :: rest =>
    if isSilent segment then dropNames (count + 1) rest else dropNames count rest

/-- What follows a base in a path within it. -/
def relativeTo? (path base : Path) : Option Path :=
  if path.isWithin base then
    match base.components.length with
    | 0 => some { path with segments := dropSilentEnd path.segments }
    | count + 1 =>
      let heads := (if path.rooted then 1 else 0) + path.splitDot.1.length
      some ⟨false, dropSilentEnd (dropNames (count + 1 - heads) path.splitDot.2)⟩
  else none

/-- The name that a path ends with. -/
def fileName? (path : Path) : Option String :=
  match path.components.getLast? with
  | some "/" | some "." | some ".." => none
  | name => name

/-- What follows the last dot of the name that a path ends with, unless there is no other dot than
one at its start. -/
def extension? (path : Path) : Option String :=
  path.fileName?.bind fun name =>
    let characters := name.toList.reverse
    match characters.dropWhile (· != '.') with
    | [] | [_] => none
    | _ => some (String.ofList (characters.takeWhile (· != '.')).reverse)

end Path

end PropCatalog
