import ImportChart.Proofs.Analysis.Provenance
import ImportChart.Proofs.Graph.Diagram
import ImportChart.Proofs.Reference.Placement

/-!
# The lines of the diagram of an analysis

An unstyled diagram is a header and one line for each edge, unless a label breaks its line. Labels
are cleaned of the characters that would end them, but not of line ends; so what the texts of a
snapshot may bring into the diagram decides. Outside of Go no token holds a line end, whatever the
text (`Language.newline_not_mem_token`): the parts that the patterns of the language mark avoid it.
In Go a package may be named between backticks, where a line end is like any other character.

Where no path of the tree holds a line end, the diagram has its lines exactly if no package named by
a file in Go and drawn holds one (`Snapshot.splitOn_render_analyze_iff`).
-/

namespace ImportChart

/-! ## Tokens that stand on one line -/

namespace Language

variable {language : Language} {text : String} {reference : Reference}

/-- The tokens of a text are read by parts that the patterns of the language mark. -/
theorem readBy_of_mem_extract {test : Pattern → Bool} (marks : language.profile.MarksOnly test)
    (h : reference ∈ language.extract text) :
    Lexeme.ReadBy test (.token reference.token.toList) := by
  have hmention : reference ∈ language.mentions text := (firstsBy_sublist _).mem h
  rw [mentions, Scan.stops, Scan.stopsFrom, Scan.references_walk] at hmention
  obtain ⟨before, after, hlexemes, -⟩ := Scan.exists_split_of_mem_locate hmention
  refine Scan.readBy_walk marks text.toList.length .start text.toList _ ?_
  rw [hlexemes]
  exact List.mem_append_right _ List.mem_cons_self

/-- Outside of Go, no part marked as a token reads a line end. -/
theorem tokens_avoid_newline (h : language ≠ .go) :
    language.profile.MarksOnly (Pattern.avoids '\n') := by
  unfold Profile.MarksOnly
  cases language with
  | go => exact absurd rfl h
  | javascript => decide
  | python => decide
  | cpp => decide
  | java => decide

/-- Outside of Go, a token stands on one line. -/
theorem newline_not_mem_token (h : language ≠ .go) (hmem : reference ∈ language.extract text) :
    '\n' ∉ reference.token.toList :=
  Pattern.not_mem_of_readBy_avoids (readBy_of_mem_extract (tokens_avoid_newline h) hmem)

end Language

/-! ## Labels that break a line -/

section Input

variable {input : GraphInput} {options : RenderOptions}

/-- A key that is neither the path of a source nor the target of an internal dependency is its own
label. -/
theorem Graph.labelAt_place {key : String}
    (hmet : key ∈ ((input.sources options).flatMap Encounter.ofFile).map Encounter.key)
    (hpath : ∀ source ∈ input.sources options, source.1 ≠ key)
    (hinternal : ∀ source ∈ input.sources options, ∀ dependency ∈ source.2,
      dependency.origin = .internal → dependency.target? ≠ some key) :
    (ofInput input options).labelAt
      (Encounter.place ((input.sources options).flatMap Encounter.ofFile) key) = key := by
  have htraces := ofInput_traces input options
  obtain ⟨node, hnode, hkey⟩ := Option.map_eq_some_iff.mp (htraces.key?_place hmet)
  rw [labelAt, hnode]
  obtain ⟨first, hfirst, rfl⟩ := htraces.eq_toNode hnode
  obtain ⟨source, hsource, hfound⟩ := List.mem_flatMap.mp (List.mem_of_find?_eq_some hfirst)
  show first.label = key
  change first.key = key at hkey
  rcases List.mem_cons.mp hfound with rfl | hfound
  · exact absurd hkey (hpath source hsource)
  · obtain ⟨dependency, hdependency, hsome⟩ := List.mem_filterMap.mp hfound
    obtain ⟨target, htarget, rfl⟩ := Option.map_eq_some_iff.mp hsome
    subst hkey
    exact if_neg fun horigin => hinternal source hsource dependency hdependency horigin htarget

/-- A drawn dependency has an edge to a node labelled with its target, if its target is neither the
path of a source nor the target of an internal dependency. -/
theorem Graph.exists_edge_labelled {source : String × List Dependency}
    (hsource : source ∈ input.sources options) {dependency : Dependency}
    (hdependency : dependency ∈ source.2) {key : String} (htarget : dependency.target? = some key)
    (hpath : ∀ source ∈ input.sources options, source.1 ≠ key)
    (hinternal : ∀ source ∈ input.sources options, ∀ dependency ∈ source.2,
      dependency.origin = .internal → dependency.target? ≠ some key) :
    ∃ edge ∈ (ofInput input options).edges, (ofInput input options).labelAt edge.2 = key := by
  have htraces := ofInput_traces input options
  have hlink := mem_flatMap_linksOfFile hsource hdependency htarget
  have hedge := (mem_edges_ofTrace htraces.closed).mpr hlink
  rw [← htraces.eq_ofTrace] at hedge
  exact ⟨_, hedge, labelAt_place (htraces.closed _ hlink).2 hpath hinternal⟩

/-- Any other character of a label than the marks is on the line of an edge to its node. -/
theorem Diagram.mem_edgeLine_of_mem_label {graph : Graph} {edge : Nat × Nat} {c : Char}
    (hmark : c ∉ labelMarks) (h : c ∈ (graph.labelAt edge.2).toList) :
    c ∈ (edgeLine graph edge).toList := by
  have hclean : c ∈ (cleanLabel (graph.labelAt edge.2)).toList := by
    rw [cleanLabel, String.toList_ofList, List.mem_filter, Bool.not_eq_true', List.contains_eq_mem]
    exact ⟨h, decide_eq_false hmark⟩
  have hnode : c ∈ (labelled (nodeName edge.2) (graph.labelAt edge.2)).toList := by
    simp only [labelled, String.toList_append, List.mem_append]
    exact .inl (.inr hclean)
  rw [edgeLine, String.toList_append]
  exact List.mem_append_right _ hnode

/-- An unstyled diagram whose paths stand on one line each is its header and the lines of its edges
exactly if the tokens drawn stand on one line each. -/
theorem Diagram.splitOn_render_iff (hstyled : options.styled = false)
    (hpath : ∀ source ∈ input.sources options, '\n' ∉ source.1.toList)
    (hinternal : ∀ source ∈ input.sources options, ∀ dependency ∈ source.2,
      dependency.origin = .internal →
      ∀ target, dependency.target? = some target → '\n' ∉ target.toList) :
    (render input options).toList.splitOn '\n' = (header options.direction).toList ::
        (Graph.ofInput input options).edges.map (fun edge =>
          (edgeLine (Graph.ofInput input options) edge).toList) ↔
      ∀ source ∈ input.sources options, ∀ dependency ∈ source.2, dependency.origin ≠ .internal →
        '\n' ∉ dependency.token.toList := by
  constructor
  · -- the line of an edge to a token with a line end is no line of any text
    intro hlines source hsource dependency hdependency horigin hend
    obtain ⟨edge, hedge, hlabel⟩ := Graph.exists_edge_labelled hsource hdependency
      (Dependency.target?_of_ne_internal horigin) (fun other hother heq =>
        hpath other hother (heq ▸ hend))
      (fun other hother internal hmem hself heq =>
        hinternal other hother internal hmem hself _ heq hend)
    have hline : (edgeLine (Graph.ofInput input options) edge).toList ∈
        (render input options).toList.splitOn '\n' := by
      rw [hlines]
      exact List.mem_cons_of_mem _ (List.mem_map.mpr ⟨edge, hedge, rfl⟩)
    rw [← hlabel] at hend
    exact not_mem_of_mem_splitOn hline (mem_edgeLine_of_mem_label (by decide) hend)
  · intro htoken
    have honLines : input.OnLines options := by
      refine fun source hsource => ⟨hpath source hsource, fun target hmem => ?_⟩
      obtain ⟨dependency, hdependency, htarget⟩ := List.mem_filterMap.mp hmem
      rcases Dependency.target?_eq_some_iff.mp htarget with ⟨horigin, -⟩ | ⟨horigin, rfl⟩
      · exact hinternal source hsource dependency hdependency horigin target htarget
      · exact htoken source hsource dependency hdependency horigin
    have hdrawable := Graph.isDrawable_ofInput honLines
    rw [render, splitOn_ofLines (lines_ne_nil _ options) (hdrawable.newline_not_mem_lines options),
      hdrawable.lines_eq, styling, hstyled]
    simp

end Input

/-! ## The diagram of an analysis -/

namespace Snapshot

/-- **The diagram of an analysis has its lines, packages of Go apart.** Where no path of the tree
holds a line end, an unstyled diagram is the header and one line for each edge exactly if no foreign
package that a file in Go names, and that is drawn, holds a line end. Texts in other languages
cannot break a line. -/
theorem splitOn_render_analyze_iff {snapshot : Snapshot}
    (hpath : ∀ path ∈ snapshot.tree.filePaths, '\n' ∉ path.toList) {settings : AnalysisSettings}
    {input : GraphInput} (hinput : input ∈ (snapshot.analyze settings).inputs)
    {options : RenderOptions} (hstyled : options.styled = false) :
    let graph := Graph.ofInput input options
    (Diagram.render input options).toList.splitOn '\n' =
      (Diagram.header options.direction).toList ::
        graph.edges.map (fun edge => (Diagram.edgeLine graph edge).toList) ↔
      ∀ source ∈ input.sources options, Language.detect source.1 = .go →
        ∀ dependency ∈ source.2, dependency.origin ≠ .internal →
        '\n' ∉ dependency.token.toList := by
  intro graph
  refine (Diagram.splitOn_render_iff hstyled ?_ ?_).trans
    ⟨fun h source hsource _ => h source hsource,
      fun h source hsource dependency hdependency horigin => ?_⟩
  · exact fun source hsource => hpath _ (path_mem_of_source hinput hsource)
  · intro source hsource dependency hdependency horigin target htarget
    rcases Dependency.target?_eq_some_iff.mp htarget with ⟨-, htarget⟩ | ⟨hforeign, -⟩
    · exact hpath target ((readIn_of_source hinput hsource hdependency).target_mem horigin htarget)
    · exact absurd horigin hforeign
  · by_cases hgo : Language.detect source.1 = .go
    · exact h source hsource hgo dependency hdependency horigin
    · exact Language.newline_not_mem_token hgo
        (readIn_of_source hinput hsource hdependency).reference_mem

/-- A file in Go that names its package between backticks, on one line. -/
def rawImport : Snapshot where
  tree := [.file "main.go" "main.go" none]
  contents := [("main.go", "import `a.b/c`\n")]

theorem splitOn_render_analyze_rawImport :
    let input := GraphInput.tree (rawImport.analyze {}).tree
    let options : RenderOptions := { styled := false }
    (∀ path ∈ rawImport.tree.filePaths, '\n' ∉ path.toList) ∧
    input ∈ (rawImport.analyze {}).inputs ∧
      (Graph.ofInput input options).edges = [(0, 1)] ∧
      (Diagram.render input options).toList.splitOn '\n' =
        (Diagram.header options.direction).toList ::
        (Graph.ofInput input options).edges.map fun edge =>
          (Diagram.edgeLine (Graph.ofInput input options) edge).toList := by
  intro input options
  have hpath : ∀ path ∈ rawImport.tree.filePaths, '\n' ∉ path.toList := by decide +kernel
  have htokens : ∀ source ∈ input.sources options, Language.detect source.1 = .go →
      ∀ dependency ∈ source.2, dependency.origin ≠ .internal → '\n' ∉ dependency.token.toList := by
    decide +kernel
  have hedges : (Graph.ofInput input options).edges = [(0, 1)] := by decide +kernel
  exact ⟨hpath, List.mem_cons_self, hedges,
    (splitOn_render_analyze_iff hpath List.mem_cons_self rfl).mpr htokens⟩

/-- A file in Go that names its package over two lines. -/
def brokenImport : Snapshot where
  tree := [.file "main.go" "main.go" none]
  contents := [("main.go", "import `a.b\nc`\n")]

/-- The one edge of such a file is drawn on two lines. -/
theorem splitOn_render_analyze_brokenImport :
    let input := GraphInput.tree (brokenImport.analyze {}).tree
    let options : RenderOptions := { styled := false }
    brokenImport.tree.filePaths = ["main.go"] ∧ (Graph.ofInput input options).edges.length = 1 ∧
      Diagram.render input options = "graph LR\n    node0[\"main.go\"] --> node1[\"a.b\nc\"]" ∧
      ((Diagram.render input options).toList.splitOn '\n').length = 3 := by
  decide +kernel

end Snapshot

end ImportChart
