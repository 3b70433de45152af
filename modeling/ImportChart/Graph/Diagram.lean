import ImportChart.Graph

/-!
# Diagrams

A diagram is the text of a flowchart: a header with the direction, a line for each edge, and, when
it is styled, a trailer that gives each role a class and puts every node of the graph into the class
of its role. A node is written by its name, which is `node` and its place.
-/

namespace ImportChart

/-- Every role, in the order of the trailer. -/
def Role.all : List Role :=
  [.source, .internal, .external, .builtin]

/-- The name of a role's class. -/
def Role.className : Role → String
  | .source => "codeStyle"
  | .internal => "internalStyle"
  | .external => "externalStyle"
  | .builtin => "builtinStyle"

/-- The style of a role's class. -/
def Role.style : Role → String
  | .source => "fill:#4A90E2,stroke:#2E5C8A,stroke-width:2px,color:#fff"
  | .internal => "fill:#50C878,stroke:#2E7D4E,stroke-width:2px,color:#fff"
  | .external => "fill:#FF6B6B,stroke:#C92A2A,stroke-width:2px,color:#fff"
  | .builtin => "fill:#FFA500,stroke:#CC8400,stroke-width:2px,color:#fff"

namespace Diagram

/-- The first line. -/
def header (direction : Direction) : String :=
  "graph " ++ direction.letters

/-- The characters that would end a label. -/
def labelMarks : List Char :=
  ['\x22', '[', ']']

/-- A label without the characters that would end it. -/
def cleanLabel (label : String) : String :=
  String.ofList (label.toList.filter fun c => !labelMarks.contains c)

/-- The name of a node with its label. -/
def labelled (id label : String) : String :=
  id ++ "[\"" ++ cleanLabel label ++ "\"]"

/-- The line of an edge; an edge between places without nodes has none. -/
def edgeLine? (graph : Graph) (edge : Nat × Nat) : Option String :=
  match graph.nodes[edge.1]?, graph.nodes[edge.2]? with
  | some source, some target =>
    some ("    " ++ labelled source.id source.label ++ " --> " ++ labelled target.id target.label)
  | _, _ => none

/-- The lines of the edges, in order. -/
def edgeLines (graph : Graph) : List String :=
  graph.edges.filterMap (edgeLine? graph)

/-- The names of the nodes of a role, in order. -/
def nodesOf (graph : Graph) (role : Role) : List String :=
  (graph.nodes.filter (·.role = role)).map (·.id)

/-- The class of a role and its nodes; nothing if it has none. -/
def classLines (graph : Graph) (role : Role) : List String :=
  match nodesOf graph role with
  | [] => []
  | names =>
    ["    classDef " ++ role.className ++ " " ++ role.style,
     "    class " ++ ",".intercalate names ++ " " ++ role.className]

/-- The lines of the styling trailer. -/
def trailer (graph : Graph) : List String :=
  ["", "    %% Styling"] ++ Role.all.flatMap (classLines graph)

/-- Lines as a text, with no line end after the last. -/
def ofLines (lines : List String) : String :=
  "\n".intercalate lines

/-- The lines of the diagram of a graph. -/
def lines (graph : Graph) (options : RenderOptions) : List String :=
  header options.direction :: edgeLines graph ++ if options.styled then trailer graph else []

/-- The diagram of the files that options admit. -/
def render (input : GraphInput) (options : RenderOptions) : String :=
  ofLines (lines (Graph.ofInput input options) options)

/-- The diagram of one file and all its dependencies, unstyled. A file that is not there, or was not
read, stands alone. -/
def renderFile (input : GraphInput) (path : String) (direction : Direction) : String :=
  match input.dependenciesOf? path with
  | some dependencies => ofLines (header direction :: edgeLines (Graph.focused path dependencies))
  | none => ofLines [header direction, "    " ++ labelled (nodeName 0) (Path.fileName path)]

end Diagram

end ImportChart
