import ImportChart.Ordered.Distinct
import ImportChart.Text.Path
import ImportChart.Tree

/-!
# The tree of a list of paths

`Tree.ofPaths` is the tree whose files are the given paths, empty segments left out. In each
directory the directories come before the files, and both are sorted by name. The tree depends on
the set of paths alone: each level is made from the names that occur, sorted and each once.
-/

namespace ImportChart

/-- Names in order, each once. -/
def sortedNames (names : List String) : List String :=
  (firsts names).mergeSort fun a b => decide (a ≤ b)

/-- The path of an entry of the directory at `parent`; the root has the empty path. -/
def pathBelow (parent name : String) : String :=
  if parent = "" then name else parent ++ "/" ++ name

/-- The names of the files directly in a directory, given the paths below it as segments. -/
def fileNames (paths : List (List String)) : List String :=
  paths.filterMap fun
    | [name] => some name
    | _ => none

/-- The names of the directories directly in a directory. -/
def directoryNames (paths : List (List String)) : List String :=
  paths.filterMap fun
    | name :: _ :: _ => some name
    | _ => none

/-- The paths below one directory of a directory. -/
def pathsBelow (name : String) (paths : List (List String)) : List (List String) :=
  paths.filterMap fun
    | first :: second :: rest => if first = name then some (second :: rest) else none
    | _ => none

/-- The entries of the directory at `parent`, as deep as `depth` levels. -/
def entriesBelow : Nat → String → List (List String) → Tree
  | 0, _, _ => []
  | depth + 1, parent, paths =>
    (sortedNames (directoryNames paths)).map (fun name =>
      let path := pathBelow parent name
      .directory name path (entriesBelow depth path (pathsBelow name paths))) ++
    (sortedNames (fileNames paths)).map fun name => .file name (pathBelow parent name) none

/-- The tree of a list of paths. No path is deeper than the longest. -/
def Tree.ofPaths (paths : List String) : Tree :=
  let segments := paths.map Path.namedSegments
  entriesBelow ((segments.map List.length).foldl max 0) "" segments

end ImportChart
