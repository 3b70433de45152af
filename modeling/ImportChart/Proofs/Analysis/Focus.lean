import ImportChart.Proofs.Analysis.Provenance
import ImportChart.Proofs.Graph.Diagram
import ImportChart.Proofs.Graph.Successors

/-!
# The diagram of one file

The diagram of one file is drawn from the annotated tree of an analysis. Of a file that was read it
has one line for each target of its dependencies, in their order (`Diagram.edgeLines_focused`), and
so only its header if no dependency leads anywhere. A path at which the tree has no file stands
alone.

What becomes of a file that is in the tree but was not read is decided by the annotation: it gives
every file a list of dependencies, an empty one to those that were not read
(`GraphInput.dependenciesOf?_annotateWith`). So in the tree such a file cannot be told from one that
was read and has no dependencies, and it is drawn as if it were (`Snapshot.renderFile_analyze`): as
the header alone.
-/

namespace ImportChart

/-! ## Looking up a file -/

mutual
/-- The file at a path, at or below a node, is the first of the files there with that path. -/
theorem Node.map_findFile? (path : String) (depth : Nat) :
    (node : Node) → (node.findFile? path).map Node.dependencies? =
      ((node.placedFiles depth).find? fun file => decide (file.path = path)).map
        PlacedFile.dependencies?
  | .file name own dependencies => by
    rw [Node.findFile?, Node.placedFiles, List.find?_singleton]
    by_cases h : own = path
    · rw [if_pos h, if_pos (decide_eq_true h)]
      rfl
    · rw [if_neg h, if_neg fun htrue => h (of_decide_eq_true htrue)]
      rfl
  | .directory _ _ children => Tree.map_findFile? path (depth + 1) children
/-- The file of a tree at a path is the first of its files with that path. -/
theorem Tree.map_findFile? (path : String) (depth : Nat) :
    (tree : Tree) → (Tree.findFile? path tree).map Node.dependencies? =
      ((Tree.placedFiles depth tree).find? fun file => decide (file.path = path)).map
        PlacedFile.dependencies?
  | [] => rfl
  | node :: rest => by
    have hnode := node.map_findFile? path depth
    have hrest := Tree.map_findFile? path depth rest
    have hor : Tree.findFile? path (node :: rest) =
        (node.findFile? path).or (Tree.findFile? path rest) := by
      rw [Tree.findFile?]
      cases node.findFile? path with
      | none => rfl
      | some found => rfl
    rw [hor, Tree.placedFiles, List.find?_append, Option.map_or, Option.map_or, hnode, hrest]
end

/-- In an annotated tree every path of a file has the dependencies given for it, and no other path
has any. -/
theorem GraphInput.dependenciesOf?_annotateWith (dependenciesOf : String → List Dependency)
    (tree : Tree) (path : String) :
    (GraphInput.tree (tree.annotateWith dependenciesOf)).dependenciesOf? path =
      if path ∈ tree.filePaths then some (dependenciesOf path) else none := by
  have hlooked : (GraphInput.tree (tree.annotateWith dependenciesOf)).dependenciesOf? path =
      ((Tree.findFile? path (tree.annotateWith dependenciesOf)).map Node.dependencies?).bind
        id := by
    rw [Option.bind_map]
    rfl
  have hpath :
      (fun file => decide (PlacedFile.path file = path)) ∘ PlacedFile.annotate dependenciesOf =
      fun file => decide (file.path = path) := rfl
  rw [hlooked, Tree.map_findFile? path 0, Tree.placedFiles_annotateWith, List.find?_map, hpath,
    ← Tree.map_path_placedFiles 0]
  cases hfound : (Tree.placedFiles 0 tree).find? fun file => decide (file.path = path) with
  | none =>
    have hnot : path ∉ (Tree.placedFiles 0 tree).map PlacedFile.path := by
      intro hmem
      obtain ⟨file, hfile, hown⟩ := List.mem_map.mp hmem
      exact List.find?_eq_none.mp hfound file hfile (decide_eq_true hown)
    rw [if_neg hnot]
    rfl
  | some file =>
    have htrue := List.find?_some hfound
    have hown : file.path = path := of_decide_eq_true htrue
    have hmem : path ∈ (Tree.placedFiles 0 tree).map PlacedFile.path :=
      List.mem_map.mpr ⟨file, List.mem_of_find?_eq_some hfound, hown⟩
    rw [if_pos hmem, ← hown]
    rfl

/-! ## The lines of one file -/

/-- What dependencies lead to, each once, in the order in which it is first led to. -/
def targetsOf (dependencies : List Dependency) : List String :=
  firsts (dependencies.filterMap Dependency.target?)

namespace Diagram

variable (path : String) (dependencies : List Dependency)

/-- The label of a target of the file at a path: the name of the file if it is the file itself, and
otherwise the label of the first dependency that leads to it. -/
def focusLabel (target : String) : String :=
  if target = path then Path.fileName path
  else
    ((dependencies.find? fun dependency => decide (dependency.target? = some target)).map
      fun dependency => dependency.label target).getD ""

/-- The line of a target of the file at a path. The file is the first node, and behind it the
targets are numbered in order. -/
def focusLine (target : String) : String :=
  "    " ++ labelled (nodeName 0) (Path.fileName path) ++ " --> " ++
    labelled (nodeName ((firsts (path :: dependencies.filterMap Dependency.target?)).idxOf target))
      (focusLabel path dependencies target)

/-- The line of a file that stands alone. -/
def standaloneLine : String :=
  "    " ++ labelled (nodeName 0) (Path.fileName path)

end Diagram

namespace Graph

variable {path : String} {dependencies : List Dependency}

theorem focused_traces : (focused path dependencies).Traces (Encounter.ofFile (path, dependencies))
    (linksOfFile (path, dependencies)) := by
  have h := Traces.empty.addSource (path, dependencies)
  rw [List.nil_append, List.nil_append] at h
  exact h

/-- The file is met first. -/
theorem place_self : Encounter.place (Encounter.ofFile (path, dependencies)) path = 0 :=
  List.idxOf_cons_self

/-- The edges of the graph of one file are from it to its targets, each once. -/
theorem edges_focused : (focused path dependencies).edges =
    (targetsOf dependencies).map fun target =>
      (0, Encounter.place (Encounter.ofFile (path, dependencies)) target) := by
  have hinjective : Function.Injective fun target : String => (path, target) :=
    fun _ _ h => (Prod.mk.inj h).2
  have hlinks : firsts (linksOfFile (path, dependencies)) =
      (targetsOf dependencies).map fun target => (path, target) :=
    (map_firsts hinjective _).symm
  rw [focused_traces.eq_ofTrace, ofTrace, hlinks, List.map_map]
  refine List.map_congr_left fun target _ => ?_
  rw [Function.comp_apply, place_self]

/-- The label of the node of a key is that of its first meeting. -/
theorem Traces.labelAt_place {graph : Graph} {met : List Encounter} {links : List (String × String)}
    (h : graph.Traces met links) {key : String} (hkey : key ∈ met.map Encounter.key) :
    graph.labelAt (Encounter.place met key) =
      ((met.find? fun encounter => decide (encounter.key = key)).map Encounter.label).getD "" := by
  obtain ⟨node, hnode, rfl⟩ := Option.map_eq_some_iff.mp (h.key?_place hkey)
  obtain ⟨first, hfirst, heq⟩ := h.eq_toNode hnode
  rw [labelAt, hnode, hfirst, heq]
  rfl

/-- The label of the file in its graph. -/
theorem labelAt_focused_zero : (focused path dependencies).labelAt 0 = Path.fileName path := by
  have hmet : path ∈ (Encounter.ofFile (path, dependencies)).map Encounter.key := List.mem_cons_self
  have hfile : (Encounter.ofFile (path, dependencies)).find? (fun encounter =>
      decide (encounter.key = path)) =
      some ⟨path, Path.fileName path, .source⟩ := List.find?_cons_of_pos (decide_eq_true rfl)
  have hlabel := focused_traces.labelAt_place hmet
  rw [place_self, hfile] at hlabel
  exact hlabel

/-- The label of a target in the graph of one file. -/
theorem labelAt_focused {target : String} (h : target ∈ dependencies.filterMap Dependency.target?) :
    (focused path dependencies).labelAt
      (Encounter.place (Encounter.ofFile (path, dependencies)) target) =
      Diagram.focusLabel path dependencies target := by
  have hmet : target ∈ (Encounter.ofFile (path, dependencies)).map Encounter.key := by
    rw [Encounter.ofFile, List.map_cons, Encounter.map_key_filterMap_encounter?]
    exact List.mem_cons_of_mem _ h
  rw [focused_traces.labelAt_place hmet, Diagram.focusLabel]
  by_cases hself : target = path
  · have hfile : (Encounter.ofFile (path, dependencies)).find? (fun encounter =>
        decide (encounter.key = target)) =
        some ⟨path, Path.fileName path, .source⟩ :=
      List.find?_cons_of_pos (decide_eq_true hself.symm)
    rw [if_pos hself, hfile]
    rfl
  · have hskip : (Encounter.ofFile (path, dependencies)).find? (fun encounter =>
        decide (encounter.key = target)) =
        (dependencies.filterMap Dependency.encounter?).find? (fun encounter =>
          decide (encounter.key = target)) :=
      List.find?_cons_of_neg fun heq => hself (of_decide_eq_true heq).symm
    rw [if_neg hself, hskip, Encounter.find?_filterMap_encounter?]
    cases hfound : dependencies.find? fun dependency =>
      decide (dependency.target? = some target) with
    | none => rfl
    | some dependency =>
      have htrue := List.find?_some hfound
      have htarget : dependency.target? = some target := of_decide_eq_true htrue
      rw [Option.bind_some, Dependency.encounter?, htarget]
      rfl

end Graph

/-- The edges of the diagram of one file have a line for each target, in order. -/
theorem Diagram.edgeLines_focused (path : String) (dependencies : List Dependency) :
    edgeLines (Graph.focused path dependencies) =
      (targetsOf dependencies).map (focusLine path dependencies) := by
  have htraces : (Graph.focused path dependencies).Traces _ _ := Graph.focused_traces
  rw [edgeLines_eq_map htraces.id_eq fun edge hedge => htraces.edge_lt hedge, Graph.edges_focused,
    List.map_map]
  refine List.map_congr_left fun target htarget => ?_
  rw [Function.comp_apply, edgeLine, focusLine, Graph.labelAt_focused_zero,
    Graph.labelAt_focused (mem_firsts.mp htarget), Encounter.place, Encounter.keys,
    Encounter.ofFile, List.map_cons, Encounter.map_key_filterMap_encounter?]

namespace Diagram

variable {input : GraphInput} {path : String} {dependencies : List Dependency}

theorem ofLines_singleton (line : String) : ofLines [line] = line :=
  String.intercalate_singleton

/-- A file whose dependencies are known has the header and a line for each target. -/
theorem renderFile_of_eq_some (h : input.dependenciesOf? path = some dependencies)
    (direction : Direction) :
    renderFile input path direction =
      ofLines (header direction :: (targetsOf dependencies).map (focusLine path dependencies)) := by
  rw [renderFile, h, ← edgeLines_focused]

/-- Dependencies that lead nowhere leave the header. -/
theorem ofLines_focusLines_of_eq_none (h : ∀ dependency ∈ dependencies, dependency.target? = none)
    (direction : Direction) :
    ofLines (header direction :: (targetsOf dependencies).map (focusLine path dependencies)) =
      header direction := by
  have hnone : dependencies.filterMap Dependency.target? = [] := List.filterMap_eq_nil_iff.mpr h
  rw [targetsOf, hnone]
  exact ofLines_singleton _

end Diagram

/-! ## The files of an analysis -/

namespace Snapshot

variable {snapshot : Snapshot} {settings : AnalysisSettings} {file : ResolvedFile}

/-- What is listed for the path of a file that was read are its dependencies, also if its path is
there twice. -/
theorem dependenciesAt_files_analyze (h : file ∈ (snapshot.analyze settings).files) :
    dependenciesAt (snapshot.analyze settings).files file.path = file.dependencies := by
  cases hfound : (snapshot.analyze settings).files.reverse.find? fun other =>
    decide (other.path = file.path) with
  | none =>
    have hmem := List.mem_reverse.mpr h
    exact absurd (decide_eq_true rfl) (List.find?_eq_none.mp hfound file hmem)
  | some other =>
    have htrue := List.find?_some hfound
    have hpath : other.path = file.path := of_decide_eq_true htrue
    have hother := eq_resolve_of_mem_files (List.mem_reverse.mp (List.mem_of_find?_eq_some hfound))
    rw [hpath, ← eq_resolve_of_mem_files h] at hother
    rw [dependenciesAt, hfound, hother]
    rfl

/-- The dependencies that the annotated tree has at a path. -/
theorem dependenciesOf?_tree_analyze (snapshot : Snapshot)
    (settings : AnalysisSettings) (path : String) :
    (GraphInput.tree (snapshot.analyze settings).tree).dependenciesOf? path =
      if path ∈ snapshot.tree.filePaths then some
        (dependenciesAt (snapshot.analyze settings).files path) else none :=
  GraphInput.dependenciesOf?_annotateWith _ _ _

/-- **The diagram of one file of an analysis.** A file that was read has the header and a line for
each target of its dependencies, in their order, and only the header if none leads anywhere. A path
at which the tree has no file has the header and a line of its own. A file of the tree that was not
read, be it for its name or for the limit, is not told from one without dependencies: it has only
the header. -/
theorem renderFile_analyze (snapshot : Snapshot) (settings : AnalysisSettings) (path : String)
    (direction : Direction) :
    let analysis := snapshot.analyze settings
    let diagram := Diagram.renderFile (.tree analysis.tree) path direction
    (∀ file ∈ analysis.files, file.path = path →
      diagram = Diagram.ofLines (Diagram.header direction ::
          (targetsOf file.dependencies).map (Diagram.focusLine path file.dependencies)) ∧
        ((∀ dependency ∈ file.dependencies, dependency.target? = none) →
          diagram = Diagram.header direction)) ∧
    (path ∉ snapshot.tree.filePaths →
      diagram = Diagram.ofLines [Diagram.header direction, Diagram.standaloneLine path]) ∧
    (path ∈ snapshot.tree.filePaths → path ∉ analysis.files.map ResolvedFile.path →
      diagram = Diagram.header direction) := by
  intro analysis diagram
  have hlooked := snapshot.dependenciesOf?_tree_analyze settings path
  refine ⟨fun file hfile hpath => ?_, fun hnot => ?_, fun hmem hunread => ?_⟩
  · subst hpath
    rw [if_pos (path_mem_of_mem_files hfile), dependenciesAt_files_analyze hfile] at hlooked
    have hlines : diagram = _ := Diagram.renderFile_of_eq_some hlooked direction
    exact ⟨hlines, fun hnone =>
      hlines.trans (Diagram.ofLines_focusLines_of_eq_none hnone direction)⟩
  · rw [if_neg hnot] at hlooked
    show Diagram.renderFile _ path direction = _
    rw [Diagram.renderFile, hlooked]
    rfl
  · rw [if_pos hmem, dependenciesAt_of_not_mem hunread] at hlooked
    have hlines : diagram = _ := Diagram.renderFile_of_eq_some hlooked direction
    exact hlines.trans (Diagram.ofLines_singleton _)

/-- A file that was read, one that no language recognizes, and one beyond the limit of two. -/
def partlyRead : Snapshot where
  tree :=
    [.directory "src" "src" [.file "a.js" "src/a.js" none, .file "b.js" "src/b.js" none],
     .file "c.js" "c.js" none, .file "notes.txt" "notes.txt" none]
  contents :=
    [("src/a.js", "import './b';\nimport 'react';\nimport './b.js';\nimport './none';\n"),
      ("src/b.js", "import './none';")]

theorem renderFile_analyze_partlyRead :
    let settings : AnalysisSettings := { maxFiles := 2 }
    let analysis := partlyRead.analyze settings
    let diagram (path : String) := Diagram.renderFile (.tree analysis.tree) path .leftRight
    partlyRead.analyzed settings = ["src/a.js", "src/b.js"] ∧
      diagram "src/a.js" =
        "graph LR\n    node0[\"a.js\"] --> node1[\"b.js\"]\n    node0[\"a.js\"] --> node2[\"react\"]" ∧
      diagram "src/b.js" = "graph LR" ∧ diagram "none.js" = "graph LR\n    node0[\"none.js\"]" ∧
      diagram "c.js" = "graph LR" := by
  intro settings analysis diagram
  have hanalyzed : partlyRead.analyzed settings = ["src/a.js", "src/b.js"] := by decide +kernel
  have hread : ∀ path ∈ ["src/a.js", "src/b.js"],
      (partlyRead.parseFile path).resolve partlyRead.tree.filePaths ∈ analysis.files := by
    intro path hpath
    rw [files_analyze, hanalyzed]
    exact List.mem_map_of_mem hpath
  have hmissing : "none.js" ∉ partlyRead.tree.filePaths := by decide +kernel
  have hunread : "c.js" ∉ analysis.files.map ResolvedFile.path := by
    rw [map_path_files_analyze, hanalyzed]
    decide
  have hnowhere : ∀ dependency ∈
      ((partlyRead.parseFile "src/b.js").resolve partlyRead.tree.filePaths).dependencies,
      dependency.target? = none := by decide +kernel
  have first :=
    (renderFile_analyze partlyRead settings "src/a.js" .leftRight).1 _ (hread _ (by decide)) rfl
  have second :=
    (renderFile_analyze partlyRead settings "src/b.js" .leftRight).1 _ (hread _ (by decide)) rfl
  have missing := (renderFile_analyze partlyRead settings "none.js" .leftRight).2.1 hmissing
  have unread :=
    (renderFile_analyze partlyRead settings "c.js" .leftRight).2.2 (by decide +kernel) hunread
  refine ⟨hanalyzed, first.1.trans ?_, (second.2 hnowhere).trans ?_,
    missing.trans ?_, unread.trans ?_⟩
  · decide +kernel
  · decide +kernel
  · decide +kernel
  · decide +kernel

/-- A file of the tree that no language recognizes is not read, and yet its diagram is that of a
file that was read and has no dependencies: it does not stand alone. -/
theorem renderFile_analyze_unreadFile :
    let analysis := partlyRead.analyze {}
    "notes.txt" ∉ analysis.files.map ResolvedFile.path ∧
      Diagram.renderFile (.tree analysis.tree) "notes.txt" .leftRight = "graph LR" ∧
      Diagram.renderFile (.tree analysis.tree) "notes.txt" .leftRight ≠
        Diagram.ofLines [Diagram.header .leftRight, Diagram.standaloneLine "notes.txt"] := by
  decide +kernel

end Snapshot

end ImportChart
