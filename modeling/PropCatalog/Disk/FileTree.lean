import PropCatalog.Disk.Path

/-! Directories with what is in them, and what paths lead to. -/

namespace PropCatalog

/-- A file with its text, which is missing when its bytes are no UTF-8, or a directory. -/
inductive FileTree where
  | file (text : Option String)
  | directory (entries : List (String × FileTree))

namespace FileTree

instance : Inhabited FileTree := ⟨directory []⟩

/-- The file that holds some bytes. -/
def ofBytes (bytes : ByteArray) : FileTree :=
  .file (String.fromUTF8? bytes)

def isDirectory : FileTree → Bool
  | .file _ => false
  | .directory _ => true

def entries : FileTree → List (String × FileTree)
  | .file _ => []
  | .directory entries => entries

/-- The entry of a name. -/
def child? (tree : FileTree) (name : String) : Option FileTree :=
  tree.entries.lookup name

/-- Puts an entry in place of the one of its name, or at the end. -/
def setEntry (name : String) (tree : FileTree) :
    List (String × FileTree) → List (String × FileTree)
  | [] => [(name, tree)]
  | (other, old) :: rest =>
    if other = name then (name, tree) :: rest else (other, old) :: setEntry name tree rest

/-- Puts a tree where names lead to, in directories that are made where they are missing. -/
def put (tree : FileTree) : List String → FileTree → FileTree
  | [], _ => tree
  | name :: names, parent =>
    .directory (setEntry name (put tree names ((parent.child? name).getD default)) parent.entries)

/-- Makes a directory where names lead to, unless one is there. -/
def makeDirectory : List String → FileTree → FileTree
  | [], tree => if tree.isDirectory then tree else default
  | name :: names, parent =>
    .directory
      (setEntry name (makeDirectory names ((parent.child? name).getD default)) parent.entries)

mutual

/-- Everything below a tree at a path, with the path of each. -/
def descendants (path : Path) : FileTree → List (Path × FileTree)
  | .file _ => []
  | .directory entries => descendantsIn path entries

/-- The entries of a directory at a path and everything below them. -/
def descendantsIn (path : Path) : List (String × FileTree) → List (Path × FileTree)
  | [] => []
  | (name, tree) :: rest =>
    (path.entry name, tree) :: descendants (path.entry name) tree ++ descendantsIn path rest

end

end FileTree

/-- Why nothing is found at a path. -/
inductive AccessError where
  | missing
  | notDirectory
  deriving DecidableEq, Repr

/-- The text of a failed access. -/
def AccessError.message : AccessError → String
  | missing => "No such file or directory (os error 2)"
  | notDirectory => "Not a directory (os error 20)"

/-- All files, and the directory that paths start from when they do not start at the root. -/
structure Disk where
  root : FileTree
  current : List String

namespace Disk

/-- One step along a path: the trees from here up to the root lead to the next ones. -/
def enter : List FileTree → String → Except AccessError (List FileTree)
  | [], _ => .error .missing
  | here :: above, segment =>
    if ! here.isDirectory then .error .notDirectory
    else if Path.isSilent segment then .ok (here :: above)
    else if segment = ".." then .ok (if above.isEmpty then [here] else above)
    else
      match here.child? segment with
      | some tree => .ok (tree :: here :: above)
      | none => .error .missing

/-- The tree at a path. -/
def find (disk : Disk) (path : Path) : Except AccessError FileTree :=
  if path.rooted || ! path.segments.isEmpty then
    let segments := (if path.rooted then [] else disk.current) ++ path.segments
    match segments.foldlM enter [disk.root] with
    | .ok (tree :: _) => .ok tree
    | .ok [] => .error .missing
    | .error cause => .error cause
  else .error .missing

/-- Whether anything is at a path. -/
def contains (disk : Disk) (path : Path) : Bool :=
  (disk.find path).isOk

/-- Whether a directory is at a path. -/
def hasDirectory (disk : Disk) (path : Path) : Bool :=
  match disk.find path with
  | .ok tree => tree.isDirectory
  | .error _ => false

/-- The text of the file at a path. -/
def text? (disk : Disk) (path : Path) : Option String :=
  match disk.find path with
  | .ok (.file text) => text
  | _ => none

/-- Puts a file where names lead to from the current directory. -/
def write (disk : Disk) (names : List String) (text : String) : Disk :=
  { disk with root := disk.root |> FileTree.put (.file (some text)) (disk.current ++ names) }

end Disk

end PropCatalog
