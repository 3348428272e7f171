import PropCatalog.Disk.Path
import PropCatalog.Glob.Pattern

/-! What a scan leaves out. -/

namespace PropCatalog

/-- The patterns of files with tests. -/
def testPatterns : List String :=
  ["**/*.test.tsx", "**/*.test.ts", "**/*.test.jsx", "**/*.test.js",
    "**/*.spec.tsx", "**/*.spec.ts", "**/*.spec.jsx", "**/*.spec.js",
    "**/__tests__/**"]

/-- Paths and patterns to leave out. -/
structure IgnoreSet where
  bases : List Path
  patterns : List Glob.Pattern
  deriving DecidableEq, Repr

namespace IgnoreSet

def empty : IgnoreSet := ⟨[], []⟩

/-- Adds an entry: a pattern as it is, or a path below a base. What is no pattern is not added. -/
def add (base : Path) (set : IgnoreSet) (entry : String) : IgnoreSet :=
  if Glob.isPattern entry then
    match Glob.Pattern.ofText entry with
    | .ok pattern => { set with patterns := set.patterns ++ [pattern] }
    | .error _ => set
  else { set with bases := set.bases ++ [base.join (Path.ofText entry)] }

/-- The set of some entries, and of the patterns of tests if those are left out too. -/
def ofEntries (base : Path) (entries : List String) (tests : Bool) : IgnoreSet :=
  (entries ++ if tests then testPatterns else []).foldl (add base) empty

/-- The entries that look like patterns but are none. -/
def faults (entries : List String) : List (String × Glob.PatternError) :=
  (entries.filter Glob.isPattern).filterMap fun entry =>
    match Glob.Pattern.ofText entry with
    | .ok _ => none
    | .error cause => some (entry, cause)

/-- Whether a path is left out: when it lies within a base, or when its text matches a pattern. -/
def contains (set : IgnoreSet) (path : Path) : Bool :=
  set.bases.any path.isWithin || set.patterns.any (·.isMatch path.text)

end IgnoreSet

end PropCatalog
