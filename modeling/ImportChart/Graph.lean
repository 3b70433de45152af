import ImportChart.Ordered.Table
import ImportChart.Settings
import ImportChart.Text.Path
import ImportChart.Tree

/-!
# The graph behind a diagram

The nodes of a graph are files and packages, each under its key: the path of a file or the token of
a package. They stand in the order in which they were first met, and a node is known by its place in
that order, after which it is named. Each edge is there once, also in the order of its first
meeting.

A graph is built file by file (`Graph.addFile`). A file without dependencies is passed over; any
other file has a node, even if none of its dependencies is drawn. A node that is the source of
dependencies in one place and the target of some in another counts as a source.
-/

namespace ImportChart

/-- What a node stands for in the styling of a diagram. -/
inductive Role where
  /-- A file with dependencies. -/
  | source
  | internal
  | external
  | builtin
  deriving DecidableEq, Repr

/-- The role of what a dependency of an origin leads to. -/
def Role.ofOrigin : Origin → Role
  | .internal => .internal
  | .external => .external
  | .builtin => .builtin

/-- The name by which the node at a place is written. -/
def nodeName (place : Nat) : String :=
  "node" ++ toString place

/-- A node of a graph. -/
structure GraphNode where
  /-- The name by which the node is written. -/
  id : String
  key : String
  label : String
  role : Role
  deriving DecidableEq, Repr

/-- Nodes, and edges between their places. -/
structure Graph where
  nodes : List GraphNode
  edges : List (Nat × Nat)
  deriving DecidableEq, Repr

/-- The files from which a graph is made. -/
inductive GraphInput where
  /-- The annotated files of a tree. -/
  | tree (roots : Tree)
  /-- Files with their dependencies, as deep as their paths have slashes. -/
  | files (table : Table String (List Dependency))

/-- The label of what a dependency leads to: the last segment of a file's path, and a package's
token. -/
def Dependency.label (dependency : Dependency) (target : String) : String :=
  if dependency.origin = .internal then Path.fileName target else target

namespace Graph

/-- No nodes. -/
def empty : Graph := { nodes := [], edges := [] }

/-- The place of a key. -/
def place? (graph : Graph) (key : String) : Option Nat :=
  graph.nodes.findIdx? (·.key = key)

/-- A graph with a node for a key, and its place. A new node is named after its place. A node that
is there keeps its name and its label, and its role unless it becomes a source. -/
def insertNode (graph : Graph) (key label : String) (role : Role) : Graph × Nat :=
  match graph.place? key with
  | none =>
    let node := { id := nodeName graph.nodes.length, key, label, role }
    ({ graph with nodes := graph.nodes ++ [node] }, graph.nodes.length)
  | some place =>
    if role = .source then
      ({ graph with nodes := graph.nodes.modify place ({ · with role := .source }) }, place)
    else (graph, place)

/-- A graph with an edge. -/
def insertEdge (graph : Graph) (edge : Nat × Nat) : Graph :=
  if edge ∈ graph.edges then graph else { graph with edges := graph.edges ++ [edge] }

/-- A graph with an edge from a place to what a dependency leads to, if it leads anywhere. -/
def addDependency (source : Nat) (graph : Graph) (dependency : Dependency) : Graph :=
  match dependency.target? with
  | none => graph
  | some target =>
    let (graph, place) :=
      graph.insertNode target (dependency.label target) (.ofOrigin dependency.origin)
    graph.insertEdge (source, place)

/-- A graph with a source node for a path and edges to what the dependencies lead to. -/
def addSource (graph : Graph) (path : String) (dependencies : List Dependency) : Graph :=
  let (graph, source) := graph.insertNode path (Path.fileName path) .source
  dependencies.foldl (addDependency source) graph

/-- A graph with a file, if it has dependencies, and edges to those that are shown. -/
def addFile (options : RenderOptions) (graph : Graph) (file : String × List Dependency) : Graph :=
  if file.2.isEmpty then graph
  else graph.addSource file.1 (file.2.filter fun dependency => options.shows dependency.origin)

end Graph

mutual
/-- The annotated files at and below a node at a depth, as deep as the options admit. -/
def Node.filesWithin (options : RenderOptions) (depth : Nat) :
    Node → List (String × List Dependency)
  | .file _ path (some dependencies) => [(path, dependencies)]
  | .file _ _ none => []
  | .directory _ _ children =>
    if options.admitsDepth (depth + 1) then Tree.filesWithin options (depth + 1) children else []
/-- The annotated files of the nodes at a depth, as deep as the options admit. -/
def Tree.filesWithin (options : RenderOptions) (depth : Nat) :
    Tree → List (String × List Dependency)
  | [] => []
  | node :: rest => node.filesWithin options depth ++ Tree.filesWithin options depth rest
end

namespace GraphInput

/-- The files as deep as the options admit, in order. -/
def filesWithin (options : RenderOptions) : GraphInput → List (String × List Dependency)
  | tree roots => if options.admitsDepth 0 then Tree.filesWithin options 0 roots else []
  | files table => table.filter fun file => options.admitsDepth (Path.depth file.1)

/-- The dependencies of the file at a path, if it is there and was read. -/
def dependenciesOf? (path : String) : GraphInput → Option (List Dependency)
  | tree roots => (Tree.findFile? path roots).bind Node.dependencies?
  | files table => table.get? path

end GraphInput

/-- The graph of the files that options admit. -/
def Graph.ofInput (input : GraphInput) (options : RenderOptions) : Graph :=
  (input.filesWithin options).foldl (Graph.addFile options) .empty

/-- The graph of one file and all its dependencies. -/
def Graph.focused (path : String) (dependencies : List Dependency) : Graph :=
  Graph.empty.addSource path dependencies

end ImportChart
