import ImportChart.Proofs.Analysis.Files
import ImportChart.Proofs.Analysis.Focus
import ImportChart.Proofs.Graph.Agreement

/-!
# The graph of one file within the graph of all

The graph of one file is made of its dependencies alone, which are looked up in the annotated tree;
the graph of all files is made in one round over the tree, in which a node or an edge that is there
is not added again. Both show the same targets behind the file, in the same order
(`Snapshot.focuses_analyze`).

Edges of other files do not stand in the way: an edge is left out only if the same pair was linked
before, and no other file has the path of this one (`Graph.filter_links`). So the links of a file
are those of the whole graph that leave it, and the first of them are the edges
(`Graph.Traces.ends_eq`).
-/

namespace ImportChart

namespace Graph

/-- A graph has a file as its first node, no edges but those of the file, and these lead to what the
edges of the file lead to in another graph, in their order. -/
structure Focuses (focused full : Graph) (path : String) : Prop where
  first : focused.key? 0 = some path
  source_eq : ∀ edge ∈ focused.edges, edge.1 = 0
  ends_eq : focused.edges.map (fun edge => focused.key? edge.2) =
    (full.edges.filter fun edge => full.key? edge.1 = some path).map fun edge => full.key? edge.2

section Trace

variable {graph : Graph} {met : List Encounter} {links : List (String × String)}

/-- A graph whose links from a path are those of a file there. -/
theorem Traces.focuses (h : graph.Traces met links) {path : String} {dependencies : List Dependency}
    (hlinks : (links.filter fun link => link.1 = path) = linksOfFile (path, dependencies)) :
    (focused path dependencies).Focuses graph path := by
  have hfocused : (focused path dependencies).Traces _ _ := focused_traces
  constructor
  · have hmet : path ∈ (Encounter.ofFile (path, dependencies)).map Encounter.key :=
      List.mem_cons_self
    have hfirst := hfocused.key?_place hmet
    rwa [place_self] at hfirst
  · intro edge hedge
    rw [edges_focused] at hedge
    obtain ⟨target, -, rfl⟩ := List.mem_map.mp hedge
    rfl
  · have hends := congrArg (List.map Prod.snd) hfocused.map_key?_edges
    rw [List.map_map, List.map_map] at hends
    rw [h.ends_eq, hlinks]
    exact hends

end Trace

section Files

variable {dependenciesOf : String → List Dependency} {paths : List String} {path : String}

/-- Among files with distinct paths, the links that leave a path are those of the file there. -/
theorem filter_links (hnodup : paths.Nodup) (hmem : path ∈ paths) :
    ((paths.flatMap fun path => linksOfFile (path, dependenciesOf path)).filter
      fun link => link.1 = path) =
      linksOfFile (path, dependenciesOf path) := by
  have hsource : ∀ own ∈ paths, ∀ link ∈ linksOfFile (own, dependenciesOf own), link.1 = own := by
    intro own _ link hlink
    obtain ⟨target, -, rfl⟩ := List.mem_map.mp hlink
    rfl
  have honly : (paths.filter fun own => own = path) = [path] := by
    rw [List.filter_eq, List.count_eq_one_of_mem hnodup hmem]
    rfl
  rw [filter_flatMap_of_key hsource, honly, List.flatMap_singleton]

/-- The links of the graph of files that leaves nothing out. -/
theorem flatMap_linksOfFile_complete {input : GraphInput}
    (h : input.placedFiles = paths.map (PlacedFile.ofPath dependenciesOf))
    (options : RenderOptions) :
    (input.sources options.complete).flatMap linksOfFile =
      paths.flatMap fun path => linksOfFile (path, dependenciesOf path) := by
  rw [GraphInput.sources_of_placedFiles h, List.flatMap_map]
  simp only [RenderOptions.shown_complete]
  apply flatMap_filter_of_eq_nil
  intro path _ hpassed
  have hempty : (!(dependenciesOf path).isEmpty) = false := hpassed
  have hnone : (dependenciesOf path).isEmpty = true := by simpa using hempty
  rw [List.isEmpty_iff.mp hnone]
  rfl

/-- The graph of a file agrees with that of all files, where no other file has its path. -/
theorem focuses_of_placedFiles {input : GraphInput}
    (h : input.placedFiles = paths.map (PlacedFile.ofPath dependenciesOf)) (hnodup : paths.Nodup)
    (hmem : path ∈ paths) (options : RenderOptions) :
    (focused path (dependenciesOf path)).Focuses (ofInput input options.complete) path := by
  refine (ofInput_traces input options.complete).focuses ?_
  rw [flatMap_linksOfFile_complete h, filter_links hnodup hmem]

end Files

end Graph

namespace Snapshot

/-- **The graph of a file agrees with the graph of all files**, for every list of files: what is
looked up at the path of a file that was read are its dependencies, and the graph made of them shows
what is behind the file in the graph of the annotated tree that leaves nothing out. -/
theorem focuses_analyze (files : List (String × String)) (settings : AnalysisSettings)
    (options : RenderOptions) {file : ResolvedFile}
    (h : file ∈ ((ofFiles files).analyze settings).files) :
    let input := GraphInput.tree ((ofFiles files).analyze settings).tree
    input.dependenciesOf? file.path = some file.dependencies ∧
      (Graph.focused file.path file.dependencies).Focuses
        (Graph.ofInput input options.complete) file.path := by
  intro input
  have hmem : file.path ∈ (ofFiles files).tree.filePaths := path_mem_of_mem_files h
  have hown :
      dependenciesAt ((ofFiles files).analyze settings).files file.path = file.dependencies :=
    dependenciesAt_files_analyze h
  have hplaced : input.placedFiles = (ofFiles files).tree.filePaths.map
      (.ofPath (dependenciesAt ((ofFiles files).analyze settings).files)) :=
    placedFiles_tree fun _ hfile => Tree.depth_of_mem_placedFiles_ofPaths hfile
  have hlooked := (ofFiles files).dependenciesOf?_tree_analyze settings file.path
  have hfocuses :=
    Graph.focuses_of_placedFiles hplaced (Tree.nodup_filePaths_ofPaths _) hmem options
  rw [if_pos hmem, hown] at hlooked
  rw [hown] at hfocuses
  exact ⟨hlooked, hfocuses⟩

/-- A file that imports itself, a package, another file by two tokens, and a file that is not there;
and the other file, which was met as a target before. -/
def selfImport : List (String × String) :=
  [("a.js", "import './b';\nimport './a';\nimport 'react';\nimport './b.js';\nimport './none';\n"),
   ("b.js", "import 'react';\nimport './b';\nimport './a';\n")]

theorem focuses_analyze_selfImport :
    let analysis := (ofFiles selfImport).analyze {}
    let full := Graph.ofInput (.tree analysis.tree) ({} : RenderOptions).complete
    ∃ file ∈ analysis.files, file.path = "b.js" ∧
      (full.edges.filter fun edge => full.key? edge.1 = some file.path).map
          (fun edge => full.key? edge.2) =
        [some "react", some "b.js", some "a.js"] := by
  intro analysis full
  have hfiles : ofFiles selfImport =
      { tree := [.file "a.js" "a.js" none, .file "b.js" "b.js" none], contents := selfImport } := by
    cbv
  have hanalyzed : (ofFiles selfImport).analyzed {} = ["a.js", "b.js"] := by
    rw [hfiles]
    decide +kernel
  have hread : ((ofFiles selfImport).parseFile "b.js").resolve (ofFiles selfImport).tree.filePaths ∈
      analysis.files := by
    rw [files_analyze, hanalyzed]
    exact List.mem_map_of_mem (List.mem_cons_of_mem _ List.mem_cons_self)
  obtain ⟨-, hfocuses⟩ := focuses_analyze selfImport {} {} hread
  refine ⟨_, hread, rfl, hfocuses.ends_eq.symm.trans ?_⟩
  rw [hfiles]
  decide +kernel

end Snapshot

end ImportChart
