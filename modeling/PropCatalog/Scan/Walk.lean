import PropCatalog.Disk.FileTree
import PropCatalog.Scan.Ignore

/-! The source files below a path, without what is left out. -/

namespace PropCatalog

/-- The extensions of source files. -/
def sourceExtensions : List String :=
  ["js", "jsx", "mjs", "cjs", "ts", "tsx", "mts", "cts"]

/-- Whether a path names a source file. -/
def Path.isSource (path : Path) : Bool :=
  path.extension?.any sourceExtensions.contains

namespace FileTree

mutual

/-- The source files of a tree at a path. Nothing is looked at below what is left out. -/
def sources (ignored : IgnoreSet) (path : Path) (tree : FileTree) : List Path :=
  if ignored.contains path then []
  else
    match tree with
    | .file _ => if path.isSource then [path] else []
    | .directory entries => sourcesIn ignored path entries

/-- The source files among and below the entries of a directory at a path. -/
def sourcesIn (ignored : IgnoreSet) (path : Path) : List (String × FileTree) → List Path
  | [] => []
  | (name, tree) :: rest =>
    sources ignored (path.entry name) tree ++ sourcesIn ignored path rest

end

end FileTree

end PropCatalog
