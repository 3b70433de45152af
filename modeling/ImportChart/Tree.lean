import ImportChart.Reference

/-!
# Trees of files and directories

A tree is a list of nodes, each a file or a directory with nodes of its own. Paths are relative to
the root of the tree. A file carries dependencies once it has been annotated; a file without any
carries an empty list, which is not the same as none.
-/

namespace ImportChart

/-- A file or a directory of a tree. -/
inductive Node where
  | file (name path : String) (dependencies : Option (List Dependency))
  | directory (name path : String) (children : List Node)

namespace Node

/-- The last segment of the path, by which siblings are told apart. -/
def name : Node → String
  | file name _ _ => name
  | directory name _ _ => name

/-- The path from the root. -/
def path : Node → String
  | file _ path _ => path
  | directory _ path _ => path

def isFile : Node → Bool
  | file .. => true
  | directory .. => false

def isDirectory : Node → Bool
  | file .. => false
  | directory .. => true

/-- The children of a directory; a file has none. -/
def children : Node → List Node
  | file .. => []
  | directory _ _ children => children

/-- The dependencies of an annotated file. -/
def dependencies? : Node → Option (List Dependency)
  | file _ _ dependencies => dependencies
  | directory .. => none

/-- A file with the given dependencies; a directory stays as it is. -/
def withDependencies (node : Node) (dependencies : List Dependency) : Node :=
  match node with
  | file name path _ => file name path (some dependencies)
  | directory .. => node

/-- A directory with the given children; a file stays as it is. -/
def withChildren (node : Node) (children : List Node) : Node :=
  match node with
  | file .. => node
  | directory name path _ => directory name path children

end Node

/-- The nodes at the root of a tree. -/
abbrev Tree := List Node

mutual
/-- The files at and below a node, in the order of the tree. -/
def Node.files : Node → List Node
  | .file name path dependencies => [.file name path dependencies]
  | .directory _ _ children => Tree.files children
/-- The files of a tree, in its order. -/
def Tree.files : Tree → List Node
  | [] => []
  | node :: rest => node.files ++ Tree.files rest
end

/-- The paths of the files of a tree. -/
def Tree.filePaths (tree : Tree) : List String :=
  tree.files.map Node.path

mutual
/-- The first file at a path, at or below a node. -/
def Node.findFile? (path : String) : Node → Option Node
  | .file name own dependencies => if own = path then some (.file name own dependencies) else none
  | .directory _ _ children => Tree.findFile? path children
/-- The first file of a tree at a path. -/
def Tree.findFile? (path : String) : Tree → Option Node
  | [] => none
  | node :: rest =>
    match node.findFile? path with
    | some found => some found
    | none => Tree.findFile? path rest
end

mutual
/-- A node whose files carry the dependencies that `dependenciesOf` gives for their paths. -/
def Node.annotate (dependenciesOf : String → List Dependency) : Node → Node
  | .file name path _ => .file name path (some (dependenciesOf path))
  | .directory name path children =>
    .directory name path (Tree.annotateWith dependenciesOf children)
/-- A tree whose files carry the dependencies that `dependenciesOf` gives for their paths. -/
def Tree.annotateWith (dependenciesOf : String → List Dependency) : Tree → Tree
  | [] => []
  | node :: rest => node.annotate dependenciesOf :: Tree.annotateWith dependenciesOf rest
end

/-- The dependencies listed last for a path, and none for a path that is not listed. -/
def dependenciesAt (files : List ResolvedFile) (path : String) : List Dependency :=
  ((files.reverse.find? (·.path = path)).map (·.dependencies)).getD []

/-- A tree whose every file carries the dependencies listed for it. -/
def Tree.annotate (tree : Tree) (files : List ResolvedFile) : Tree :=
  tree.annotateWith (dependenciesAt files)

end ImportChart
