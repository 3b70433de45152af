import ImportChart.Proofs.Graph.Trace
import ImportChart.Proofs.Tree.Depth

/-!
# What a graph is made of

`Graph.ofInput` passes one graph through every file and every dependency. Here the same graph is
read off the list of the files alone (`Graph.ofInput_from_sources`): its keys are the first
occurrences of the paths and targets, its edges the first occurrences of the pairs of them, and the
role of a node is decided by whether its key is the path of a file, and if not, by the first
dependency that leads to it.

The files are those of `GraphInput.sources`, which looks at each file by itself: whether its depth
is admitted, whether it is annotated, and whether it has any dependencies, shown or not. That the
graph is the graph of their trace (`Graph.ofInput_traces`) gives each part of the theorem.
-/

namespace ImportChart

/-- The dependencies that options show. -/
def RenderOptions.shown (options : RenderOptions)
    (dependencies : List Dependency) : List Dependency :=
  dependencies.filter fun dependency => options.shows dependency.origin

/-- The files that are drawn as sources: those at an admitted depth with a dependency, each with the
dependencies that are shown. -/
def GraphInput.sources (options : RenderOptions) (input : GraphInput) :
    List (String × List Dependency) :=
  ((options.admitted input.placedFiles).filter fun file => !file.2.isEmpty).map fun file =>
    (file.1, options.shown file.2)

/-- The key of the node at a place. -/
def Graph.key? (graph : Graph) (place : Nat) : Option String :=
  graph.nodes[place]?.map GraphNode.key

/-! ## What is met with files -/

namespace Encounter

variable {files : List (String × List Dependency)} {key : String}

theorem map_key_filterMap_encounter? (dependencies : List Dependency) :
    (dependencies.filterMap Dependency.encounter?).map Encounter.key =
      dependencies.filterMap Dependency.target? := by
  rw [List.map_filterMap]
  refine List.filterMap_congr fun dependency _ => ?_
  rw [Dependency.encounter?, Option.map_map]
  exact Option.map_id'

/-- The keys met with files are their paths, each followed by the targets of its dependencies. -/
theorem map_key_flatMap_ofFile (files : List (String × List Dependency)) :
    (files.flatMap ofFile).map Encounter.key =
      files.flatMap fun file => file.1 :: file.2.filterMap Dependency.target? := by
  rw [List.map_flatMap]
  refine congrArg (fun f => List.flatMap f files) (funext fun file => ?_)
  rw [ofFile, List.map_cons, map_key_filterMap_encounter?]

theorem role_ne_source {dependency : Dependency} {encounter : Encounter}
    (h : dependency.encounter? = some encounter) : encounter.role ≠ .source := by
  obtain ⟨target, -, rfl⟩ := Option.map_eq_some_iff.mp h
  show Role.ofOrigin dependency.origin ≠ .source
  cases dependency.origin with
  | internal => exact nofun
  | external => exact nofun
  | builtin => exact nofun

/-- The keys met as sources are the paths of the files. -/
theorem isSource_flatMap_ofFile :
    isSource (files.flatMap ofFile) key = true ↔ key ∈ files.map Prod.fst := by
  rw [isSource, List.any_eq_true]
  constructor
  · rintro ⟨encounter, hmem, htrue⟩
    obtain ⟨rfl, hrole⟩ := of_decide_eq_true htrue
    obtain ⟨file, hfile, hmem⟩ := List.mem_flatMap.mp hmem
    rcases List.mem_cons.mp hmem with rfl | hmem
    · exact List.mem_map_of_mem hfile
    · obtain ⟨dependency, -, hsome⟩ := List.mem_filterMap.mp hmem
      exact absurd hrole (role_ne_source hsome)
  · intro hmem
    obtain ⟨file, hfile, rfl⟩ := List.mem_map.mp hmem
    exact ⟨_, List.mem_flatMap.mpr ⟨file, hfile, List.mem_cons_self⟩, decide_eq_true ⟨rfl, rfl⟩⟩

/-- The first meeting of a key with dependencies is by the first of them that leads to it. -/
theorem find?_filterMap_encounter? (dependencies : List Dependency) (key : String) :
    (dependencies.filterMap Dependency.encounter?).find? (fun encounter =>
      decide (encounter.key = key)) =
      (dependencies.find? fun dependency => decide (dependency.target? = some key)).bind
        Dependency.encounter? := by
  rw [List.find?_filterMap]
  refine congrArg (fun p => (List.find? p dependencies).bind _) (funext fun dependency => ?_)
  rw [Dependency.encounter?]
  cases dependency.target? with
  | none => rfl
  | some target => exact decide_eq_decide.mpr (Option.some_inj).symm

/-- The first meeting of a key that is not the path of a file is by the first dependency that leads
to it. -/
theorem find?_flatMap_ofFile (h : key ∉ files.map Prod.fst) :
    (files.flatMap ofFile).find? (fun encounter => decide (encounter.key = key)) =
      ((files.flatMap Prod.snd).find? fun dependency => decide (dependency.target? = some key)).bind
        Dependency.encounter? := by
  induction files with
  | nil => rfl
  | cons file rest ih =>
    rw [List.map_cons, List.mem_cons, not_or] at h
    obtain ⟨hfile, hrest⟩ := h
    have hskip : (ofFile file).find? (fun encounter => decide (encounter.key = key)) =
        (file.2.filterMap Dependency.encounter?).find? (fun encounter =>
          decide (encounter.key = key)) :=
      List.find?_cons_of_neg fun heq => hfile (of_decide_eq_true heq).symm
    rw [List.flatMap_cons, List.flatMap_cons, List.find?_append, List.find?_append, hskip,
      find?_filterMap_encounter?, ih hrest]
    cases hfound : file.2.find? fun dependency => decide (dependency.target? = some key) with
    | none => rfl
    | some dependency =>
      have htrue := List.find?_some hfound
      have htarget : dependency.target? = some key := of_decide_eq_true htrue
      rw [Option.bind_some, Option.some_or, Option.bind_some, Dependency.encounter?, htarget]
      rfl

/-- The role of a node made of the first meeting of its key. -/
theorem role_toNode {first : Encounter}
    (h : (files.flatMap ofFile).find? (fun encounter => decide (encounter.key = first.key)) =
      some first)
    (place : Nat) :
    ((toNode (files.flatMap ofFile) place first).role = .source ↔ first.key ∈ files.map Prod.fst) ∧
      (first.key ∉ files.map Prod.fst → ∃ dependency,
        (files.flatMap Prod.snd).find? (fun dependency =>
          decide (dependency.target? = some first.key)) =
            some dependency ∧
          (toNode (files.flatMap ofFile) place first).role = .ofOrigin dependency.origin) := by
  by_cases hsource : first.key ∈ files.map Prod.fst
  · have hrole : (toNode (files.flatMap ofFile) place first).role = .source :=
      if_pos (isSource_flatMap_ofFile.mpr hsource)
    exact ⟨iff_of_true hrole hsource, fun hnot => absurd hsource hnot⟩
  · have hrole : (toNode (files.flatMap ofFile) place first).role = first.role :=
      if_neg (isSource_flatMap_ofFile.not.mpr hsource)
    rw [find?_flatMap_ofFile hsource] at h
    obtain ⟨dependency, hfound, hmet⟩ := Option.bind_eq_some_iff.mp h
    have horigin : first.role = .ofOrigin dependency.origin := by
      obtain ⟨target, -, rfl⟩ := Option.map_eq_some_iff.mp hmet
      rfl
    rw [hrole]
    exact ⟨iff_of_false (role_ne_source hmet) hsource, fun _ => ⟨dependency, hfound, horigin⟩⟩

end Encounter

/-! ## The graph of an input -/

namespace Graph

/-- The graph of an input is made of its sources, each added to the graph of those before it. -/
theorem ofInput_eq_foldl (input : GraphInput) (options : RenderOptions) : ofInput input options =
    (input.sources options).foldl (fun graph file => graph.addSource file.1 file.2) .empty := by
  rw [ofInput, input.filesWithin_eq, GraphInput.sources, List.foldl_map, List.foldl_filter]
  refine congrArg (fun step => List.foldl step _ _) (funext fun graph => funext fun file => ?_)
  rw [addFile]
  cases file.2.isEmpty with
  | true => rfl
  | false => rfl

/-- The graph of an input is that of the trace of its sources. -/
theorem ofInput_traces (input : GraphInput) (options : RenderOptions) :
    (ofInput input options).Traces ((input.sources options).flatMap Encounter.ofFile)
      ((input.sources options).flatMap linksOfFile) := by
  rw [ofInput_eq_foldl]
  exact Traces.empty.foldl_addSource (input.sources options)

variable {graph : Graph} {met : List Encounter} {links : List (String × String)}

theorem Traces.key?_place (h : graph.Traces met links) {key : String}
    (hkey : key ∈ met.map Encounter.key) :
    graph.key? (Encounter.place met key) = some key := by
  rw [key?, ← List.getElem?_map, h.eq_ofTrace, map_key_nodes_ofTrace]
  exact Encounter.getElem?_place hkey

theorem Traces.map_key?_edges (h : graph.Traces met links) :
    graph.edges.map (fun edge => (graph.key? edge.1, graph.key? edge.2)) =
      (firsts links).map fun link => (some link.1, some link.2) := by
  have hedges : graph.edges =
      (firsts links).map fun link => (Encounter.place met link.1, Encounter.place met link.2) := by
    rw [h.eq_ofTrace, ofTrace]
  rw [hedges, List.map_map]
  refine List.map_congr_left fun link hlink => ?_
  obtain ⟨hsource, htarget⟩ := h.closed link (mem_firsts.mp hlink)
  exact Prod.ext (h.key?_place hsource) (h.key?_place htarget)

theorem Traces.edge_lt (h : graph.Traces met links) {edge : Nat × Nat}
    (hedge : edge ∈ graph.edges) :
    edge.1 < graph.nodes.length ∧ edge.2 < graph.nodes.length := by
  rw [h.eq_ofTrace] at hedge ⊢
  obtain ⟨link, hlink, rfl⟩ := List.mem_map.mp hedge
  obtain ⟨hsource, htarget⟩ := h.closed link (mem_firsts.mp hlink)
  rw [length_nodes_ofTrace]
  exact ⟨Encounter.place_lt hsource, Encounter.place_lt htarget⟩

/-- A node is made of the first meeting of its key. -/
theorem Traces.eq_toNode (h : graph.Traces met links) {place : Nat} {node : GraphNode}
    (hnode : graph.nodes[place]? = some node) :
    ∃ first, met.find? (fun encounter => decide (encounter.key = node.key)) = some first ∧
      node = Encounter.toNode met place first := by
  rw [h.eq_ofTrace, getElem?_nodes_ofTrace] at hnode
  obtain ⟨first, hfirst, rfl⟩ := Option.map_eq_some_iff.mp hnode
  exact ⟨first, find?_of_mem_firstsBy (List.mem_of_getElem? hfirst), rfl⟩

/-- A node is named after its place. -/
theorem Traces.id_eq (h : graph.Traces met links) {place : Nat} {node : GraphNode}
    (hnode : graph.nodes[place]? = some node) : node.id = nodeName place := by
  obtain ⟨first, -, rfl⟩ := h.eq_toNode hnode
  rfl

/-- **The graph of an input read off its files**, in their order: its keys, the names of its nodes,
its edges, which lead nowhere else, and the roles of its nodes. -/
theorem ofInput_from_sources (input : GraphInput) (options : RenderOptions) :
    let graph := ofInput input options
    let sources := input.sources options
    graph.nodes.map GraphNode.key =
        firsts (sources.flatMap fun source => source.1 :: source.2.filterMap Dependency.target?) ∧
      (∀ (place : Nat) (node : GraphNode), graph.nodes[place]? = some node →
        node.id = "node" ++ toString place) ∧
      graph.edges.map (fun edge => (graph.key? edge.1, graph.key? edge.2)) =
        (firsts (sources.flatMap fun source =>
          (source.2.filterMap Dependency.target?).map fun target => (source.1, target))).map
            (fun link => (some link.1, some link.2)) ∧
      (∀ edge ∈ graph.edges, edge.1 < graph.nodes.length ∧ edge.2 < graph.nodes.length) ∧
      ∀ node ∈ graph.nodes,
        (node.role = .source ↔ node.key ∈ sources.map Prod.fst) ∧
        (node.key ∉ sources.map Prod.fst → ∃ dependency,
          (sources.flatMap Prod.snd).find? (fun dependency => dependency.target? = some node.key) =
              some dependency ∧
            node.role = .ofOrigin dependency.origin) := by
  intro graph sources
  have htraces : graph.Traces (sources.flatMap Encounter.ofFile) (sources.flatMap linksOfFile) :=
    ofInput_traces input options
  refine ⟨?_, fun place node hnode => ?_, htraces.map_key?_edges,
    fun edge hedge => htraces.edge_lt hedge, ?_⟩
  · rw [htraces.eq_ofTrace, map_key_nodes_ofTrace, Encounter.keys, Encounter.map_key_flatMap_ofFile]
  · obtain ⟨first, -, rfl⟩ := htraces.eq_toNode hnode
    rfl
  · intro node hmem
    obtain ⟨place, hnode⟩ := List.getElem?_of_mem hmem
    obtain ⟨first, hfirst, rfl⟩ := htraces.eq_toNode hnode
    exact Encounter.role_toNode hfirst place

end Graph

end ImportChart
